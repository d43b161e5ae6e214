import Lifecycle.Image
import Lifecycle.Task

/-!
# Errors and failed checks

A `ProcessError` is an answer to the caller of an operation: the operation did not happen. A
`Fault` is a failed check, of the kernel's own bookkeeping or of the machine while it works for a
call: it ends the call on the spot, and what the call had changed before stays changed.
-/

namespace Lifecycle

/-- Why an operation on processes is refused. -/
inductive ProcessError where
  /-- No PID, table slot, memory or task is left. -/
  | resourceExhausted
  /-- There is no such executable or process. -/
  | notFound
  /-- The target of a join is not an un-joined child of the caller. -/
  | invalidJoin
  /-- The executable exists and cannot be loaded. -/
  | loadFailure
  | invalidArgument (why : String)
  | permissionDenied
deriving DecidableEq, Inhabited

/-- The wording of a process error. -/
def ProcessError.message : ProcessError → String
  | resourceExhausted => "process table exhausted"
  | notFound => "not found"
  | invalidJoin => "not an un-joined child of the caller"
  | loadFailure => "executable could not be loaded"
  | invalidArgument why => s!"invalid argument: {why}"
  | permissionDenied => "permission denied"

/-- The answer of a launch whose image cannot be loaded. -/
def LoadError.toProcessError : LoadError → ProcessError
  | notFound => .notFound
  | malformed _ => .loadFailure
  | outOfMemory => .resourceExhausted

/-- The answer of a launch that gets no task. -/
def SpawnError.toProcessError : SpawnError → ProcessError
  | noResources => .resourceExhausted

/-- A failed check. -/
inductive Fault where
  /-- The exit status of a record is written a second time. -/
  | statusWrittenTwice (pid : Pid)
  /-- A record is reclaimed while a task waits on it. -/
  | joinerPending (pid : Pid)
  /-- The allocator hands out the PID of a record in the table. -/
  | pidInUse (pid : Pid)
  /-- The count of running records falls below zero. -/
  | runningUnderflow
  /-- The record of a launch is gone when its address space arrives. -/
  | removedWhileLoading (pid : Pid)
  /-- The record of a failed launch is gone before it is undone. -/
  | rolledBackTwice (pid : Pid)
  /-- The root process did not get the PID of the root. -/
  | rootNotFirst (pid : Pid)
  /-- An un-joined child has no record. -/
  | childMissing (child : Pid)
  /-- A record disappears inside one critical section. -/
  | vanished (pid : Pid)
  /-- The machine computes a number of pages or an address that does not fit in a register. -/
  | overflow
  /-- The machine is to start a thread whose name holds a zero byte. -/
  | zeroInThreadName (name : String)
deriving DecidableEq, Inhabited

/-- The wording of a failed check. The plain comparisons and the arithmetic have none. -/
def Fault.message : Fault → Option String
  | statusWrittenTwice pid => some s!"exit status of process {pid} written twice"
  | joinerPending pid => some s!"process {pid} reclaimed while a joiner is pending"
  | pidInUse _ => none
  | runningUnderflow => none
  | removedWhileLoading pid => some (unreachable s!"PID {pid} removed while loading")
  | rolledBackTwice pid => some s!"rolled back PID {pid} twice"
  | rootNotFirst _ => none
  | childMissing child => some (unreachable s!"un-joined child {child} missing from the table")
  | vanished pid => some (unreachable s!"PID {pid} vanished under the table lock")
  | overflow => none
  | zeroInThreadName name => some (zeroByte name.toUTF8.data.toList)
where
  /-- The wording of a state that must not arise. -/
  unreachable (what : String) : String := s!"internal error: entered unreachable code: {what}"
  /-- The wording for a thread name: where its first zero byte is, and its bytes. -/
  zeroByte (bytes : List UInt8) : String :=
    let listed := ", ".intercalate (bytes.map toString)
    s!"thread name may not contain interior null bytes: NulError({bytes.idxOf 0}, [{listed}])"

/-- How a critical section that can refuse ends. -/
inductive Outcome (α : Type) where
  | ok (value : α)
  /-- The operation is refused, and nothing was changed. -/
  | refused (error : ProcessError)
  /-- A check failed. -/
  | faulted (fault : Fault)
deriving DecidableEq, Inhabited

end Lifecycle
