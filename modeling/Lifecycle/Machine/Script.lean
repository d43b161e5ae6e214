import Lifecycle.Machine.Program
import Lifecycle.Pid

/-!
# Scripted programs

A script is a list of instructions that a process carries out one after another. The process
keeps the PIDs of the children it has started, and writes a numbered line for each instruction
that has an answer.
-/

namespace Lifecycle

/-- One instruction of a script. -/
inductive Instruction where
  /-- Run a program in a new child. -/
  | exec (name : String) (argc : Nat)
  /-- Wait for one of the children, by its place among them. -/
  | join (child : Nat)
  /-- Wait for a process by its PID. -/
  | joinPid (pid : UInt32)
  | halt
  | log (text : String)
  | signal (token : String)
  | wait (token : String)
  | raise
  | exit (code : Int32)
  | done (status : Int32)
  /-- Trap with the address of a buffer that holds the given bytes and zero bytes after them. -/
  | execBytes (bytes : List UInt8) (argc : UInt64)
  /-- Trap with an address in the unmapped page instead of a name. -/
  | execAddress (address : UInt64)
  /-- Wait for a child, with a status slot in the unmapped page. -/
  | joinAddress (child : Nat) (address : UInt64)
deriving Inhabited

namespace Script

/-- What a scripted process keeps. -/
structure State where
  pid : Pid
  /-- Lines written. -/
  lines : Nat
  /-- The children started, in order. -/
  children : List UInt32
deriving Inhabited

/-- `n` with at least `width` digits. -/
def padded (width n : Nat) : String :=
  let digits := toString n
  String.ofList (List.replicate (width - digits.length) '0') ++ digits

/-- A line of the process. -/
def line (s : State) (text : String) : String :=
  s!"P{padded 4 s.pid.number.toNat} {padded 3 s.lines} {text}"

/-- Writes a line and goes on. -/
def say (s : State) (text : String) (next : State → Program) : Program :=
  .log (line s text) (next { s with lines := s.lines + 1 })

/-- The PID of a child by its place; a number no process has, if there is no such child. -/
def child (s : State) (i : Nat) : UInt32 := s.children.getD i 0xffffffff

/-- The state with one child more. -/
def adopt (s : State) (pid : UInt32) : State := { s with children := s.children ++ [pid] }

/-- How the answer of a library call is written. -/
def outcome {α : Type} (value : α → String) : Except UserError α → String
  | .ok a => s!"Ok({value a})"
  | .error e => s!"Err({e.describe})"

/-- How the end of a joined child is written. -/
def joinOutcome : JoinStatus → String
  | .exited code => s!"Exited({code.toInt})"
  | .killed => "Killed"

/-- How the PID of a new child is written. -/
def pidOutcome (pid : UInt32) : String := toString pid.toNat

/-- How an answer without a value is written. -/
def unitOutcome (_ : Unit) : String := "()"

/-- Joins `pid` and writes the outcome. -/
def joinAndSay (s : State) (pid : UInt32) (next : State → Program) : Program :=
  .join pid fun answer => say s s!"join {pid.toNat} {outcome joinOutcome answer}" next

/-- The low bits of an address, which lie in the unmapped page. -/
def unmapped (address : UInt64) : UInt64 := address &&& 0xfff

/-- One instruction. -/
def perform (s : State) (next : State → Program) : Instruction → Program
  | .exec name argc =>
    .exec name argc fun answer =>
      say s s!"exec {name} {outcome pidOutcome answer}" fun s =>
        match answer with
        | .ok pid => next (adopt s pid)
        | .error _ => next s
  | .join i => joinAndSay s (child s i) next
  | .joinPid pid => joinAndSay s pid next
  | .halt => .halt fun answer => say s s!"halt {outcome unitOutcome answer}" next
  | .log text => say s text next
  | .signal token => .signal token (next s)
  | .wait token => .wait token (next s)
  | .raise => .raise
  | .exit code => .exit code
  | .done status => .done status
  | .execBytes bytes argc =>
    .trap (.ofArguments Syscall.exec.number [Program.locals, argc, 0]) (Program.localBytes bytes)
      fun raw _ =>
        say s s!"exec_bytes {raw.toInt}" fun s =>
          if 0 ≤ raw then next (adopt s raw.toUInt64.toUInt32) else next s
  | .execAddress address =>
    .trap (.ofArguments Syscall.exec.number [unmapped address, 0, 0]) default fun raw _ =>
      say s s!"exec_addr {raw.toInt}" next
  | .joinAddress i address =>
    .trap (.ofArguments Syscall.join.number [(child s i).toUInt64, unmapped address, 0]) default
      fun raw _ => say s s!"join_addr {raw.toInt}" next

/-- The program of a script. It returns zero at the end. -/
def program : List Instruction → State → Program
  | [], _ => .done 0
  | i :: rest, s => perform s (program rest) i

/-- What the process of a PID runs. -/
def body (script : List Instruction) (pid : Pid) : Program := program script ⟨pid, 0, []⟩

end Script

end Lifecycle
