import Lifecycle.Status
import Lifecycle.Syscall.Error
import Lifecycle.Syscall.Number
import Lifecycle.Text.Hex

/-!
# The kernel's log

A `Notice` is one record of the log. Its level and its wording are functions of what it reports.
-/

namespace Lifecycle

/-- How urgent a record of the log is. -/
inductive Level where
  | trace
  | debug
  | info
  | warn
deriving DecidableEq, Inhabited

/-- A record of the log. -/
inductive Notice where
  | loadFailed (name : String) (pid : Pid) (cause : LoadError)
  | noContext (pid : Pid) (cause : SpawnError)
  | created (name : String) (pid parent : Pid) (pages : Nat)
  | createdRoot (name : String) (pid : Pid)
  | rolledBack (pid : Pid)
  | notChild (child caller : Pid)
  | waits (caller : Pid) (task : TaskId) (child : Pid)
  | collected (caller child : Pid) (status : ExitStatus)
  | exited (pid : Pid) (status : ExitStatus)
  | idle
  | haltRefused (caller : Pid)
  | haltRequested
  | entered (caller : Pid) (call : Syscall) (arg1 arg2 arg3 : UInt64)
  | unknownSyscall (caller : Pid) (number : UInt64)
  | returned (caller : Pid) (result : SyscallResult)
  | slotNotWritable (caller child : Pid) (slot : UInt64)
  | exitUnrecorded (caller : Pid) (status : ExitStatus) (cause : ProcessError)
deriving Inhabited

namespace Notice

/-- How urgent a notice is. -/
def level : Notice → Level
  | loadFailed .. => .warn
  | noContext .. => .warn
  | created .. => .info
  | createdRoot .. => .info
  | rolledBack .. => .debug
  | notChild .. => .warn
  | waits .. => .debug
  | collected .. => .debug
  | exited _ (.code _) => .info
  | exited _ .abnormal => .warn
  | idle => .info
  | haltRefused .. => .warn
  | haltRequested => .info
  | entered .. => .trace
  | unknownSyscall .. => .warn
  | returned .. => .trace
  | slotNotWritable .. => .warn
  | exitUnrecorded .. => .warn

/-- The wording of a notice. -/
def text : Notice → String
  | loadFailed name pid cause =>
    s!"[EXEC] Loading {name} for PID {pid} failed: {cause.message}"
  | noContext pid cause => s!"[EXEC] No execution context for PID {pid}: {cause.message}"
  | created name pid parent pages =>
    s!"[EXEC] Created process {name} (PID {pid}, parent {parent}, {pages} pages)"
  | createdRoot name pid => s!"[EXEC] Created root process {name} (PID {pid})"
  | rolledBack pid => s!"[EXEC] Rolled back PID {pid}"
  | notChild child caller => s!"[JOIN] PID {child} is not an un-joined child of {caller}"
  | waits caller task child => s!"[JOIN] PID {caller} ({task}) waits for {child}"
  | collected caller child status =>
    s!"[JOIN] PID {caller} collected {child} ({status.describe})"
  | exited pid (.code code) => s!"[EXIT] PID {pid} exited with status {code.toInt}"
  | exited pid .abnormal => s!"[EXIT] PID {pid} terminated abnormally"
  | idle => "[EXIT] No processes left, halting"
  | haltRefused caller => s!"[PROC] PID {caller} is not allowed to halt"
  | haltRequested => "[PROC] Halt requested by root process"
  | entered caller call arg1 arg2 arg3 =>
    s!"[SYSCALL] PID {caller} {call.name}({Text.hex arg1.toNat}, {Text.hex arg2.toNat}"
      ++ s!", {Text.hex arg3.toNat})"
  | unknownSyscall caller number =>
    s!"[SYSCALL] PID {caller} issued unknown syscall {number.toNat}"
  | returned caller result => s!"[SYSCALL] PID {caller} -> {result.describe}"
  | slotNotWritable caller child slot =>
    s!"[SYSCALL] PID {caller} joined {child} but status slot {Text.hex slot.toNat} is not writable"
  | exitUnrecorded caller (.code _) cause =>
    s!"[SYSCALL] exit by PID {caller} with no live record: {cause.message}"
  | exitUnrecorded caller .abnormal cause =>
    s!"[SYSCALL] Exception in PID {caller} with no live record: {cause.message}"

end Notice

end Lifecycle
