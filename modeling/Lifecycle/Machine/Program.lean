import Lifecycle.UserLibrary

/-!
# User programs

A `Program` is the rest of a user program: what it does next, and how it goes on with each answer.
Programs write lines to the transcript of the machine, signal semaphores and wait for them, and
trap into the kernel. They end by returning an exit code, or by raising an exception.

A trap hands the kernel registers and a memory, and gets back the return register and the memory.
Library calls keep their locals at a fixed address.

* `Program.exec`, `Program.join`, `Program.halt`: the calls of the user library as programs.
-/

namespace Lifecycle

/-- The rest of a user program. -/
inductive Program where
  /-- Return from the program. -/
  | done (status : Int32)
  /-- Raise an exception. -/
  | raise
  /-- Write a line to the transcript. -/
  | log (line : String) (next : Program)
  /-- Raise a semaphore by one. -/
  | signal (token : String) (next : Program)
  /-- Wait until a semaphore is above zero, and lower it by one. -/
  | wait (token : String) (next : Program)
  /-- Trap into the kernel. -/
  | trap (registers : Registers) (memory : Bytes) (next : Int64 → Bytes → Program)

namespace Program

instance : Inhabited Program := ⟨done 0⟩

/-- Where library calls keep their locals. -/
def locals : UInt64 := 0x10000

/-- The memory with `bytes` among the locals. -/
def localBytes (bytes : List UInt8) : Bytes := Bytes.store default locals bytes

/-- Runs a program in a new child, with `argc` arguments. -/
def exec (name : String) (argc : Nat) (next : Except UserError UInt32 → Program) : Program :=
  match UserLibrary.nameBuffer name with
  | none => next (.error (.syscall .invalidArgument))
  | some buffer =>
    trap (UserLibrary.execTrap locals argc 0) (localBytes buffer)
      (fun raw _ => next (UserLibrary.execReply raw))

/-- Waits for the child `pid`. -/
def join (pid : UInt32) (next : Except UserError JoinStatus → Program) : Program :=
  trap (UserLibrary.joinTrap pid locals) (localBytes (Bytes.wordBytes 0))
    (fun raw memory => next (UserLibrary.joinReply raw (memory.readWord locals)))

/-- Stops the machine. -/
def halt (next : Except UserError Unit → Program) : Program :=
  trap UserLibrary.haltTrap default (fun raw _ => next (UserLibrary.haltReply raw))

/-- Ends the process with a code. What would come after the system call never runs. -/
def exit (code : Int32) : Program :=
  trap (UserLibrary.exitTrap code) default (fun _ _ => raise)

end Program

end Lifecycle
