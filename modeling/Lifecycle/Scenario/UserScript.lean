import Lifecycle.Machine.Program

/-!
# Library calls against a scripted kernel

One call of the user library whose trap is answered by a given return register, and for a join by
a given value in the status slot. What is observed is the trap (`TrapView`) and the answer of the
library.
-/

namespace Lifecycle.Scenario

/-- A call of the user library. -/
inductive UserCall where
  | exec (name : String) (argc : Nat)
  /-- The kernel stores `stored` in the status slot, if it is there. -/
  | join (pid : UInt32) (stored : Option Int32)
  | halt
  | exit (code : Int32)
deriving Inhabited

/-- What the kernel sees of a trap. -/
inductive TrapView where
  /-- The number of the call, the name up to its terminator, and the number of arguments. -/
  | exec (number : UInt64) (name : Option String) (argc : UInt64)
  /-- The number of the call, the PID, the value in the status slot, and the third argument. -/
  | join (number pid : UInt64) (slot : Int32) (third : UInt64)
  /-- A call that passes no address. -/
  | plain (call : Syscall) (number : UInt64) (arguments : List UInt64)
deriving DecidableEq, Inhabited

/-- What a call of the user library answers. -/
inductive UserReply where
  | pid (pid : UInt32)
  | status (status : JoinStatus)
  | done
  /-- The call does not return. -/
  | retired
  | failed (error : UserError)
deriving DecidableEq, Inhabited

namespace UserCall

/-- The reply of a call that can fail. -/
def replyOf {α : Type} (value : α → UserReply) : Except UserError α → UserReply
  | .ok a => value a
  | .error e => .failed e

/-- The view of a trap that passes no address. -/
def plain (call : Syscall) (r : Registers) : TrapView :=
  .plain call r.number [r.arg1, r.arg2, r.arg3]

/-- Runs a call whose trap returns `raw`. -/
def run (raw : Int64) : UserCall → List TrapView × UserReply
  | exec name argc =>
    match UserLibrary.nameBuffer name with
    | none => ([], .failed (.syscall .invalidArgument))
    | some buffer =>
      let r := UserLibrary.execTrap Program.locals argc 0
      let name := (Program.localBytes buffer).readText r.arg1 UserLibrary.maxNameLength
      ([.exec r.number name r.arg2], replyOf .pid (UserLibrary.execReply raw))
  | join pid stored =>
    let r := UserLibrary.joinTrap pid Program.locals
    let memory := Program.localBytes (Bytes.wordBytes 0)
    let after := (stored.bind (memory.writeWord r.arg2)).getD memory
    ([.join r.number r.arg1 (memory.readWord r.arg2) r.arg3],
      replyOf .status (UserLibrary.joinReply raw (after.readWord r.arg2)))
  | halt =>
    ([plain .halt UserLibrary.haltTrap], replyOf (fun _ => .done) (UserLibrary.haltReply raw))
  | exit code => ([plain .exit (UserLibrary.exitTrap code)], .retired)

end UserCall

end Lifecycle.Scenario
