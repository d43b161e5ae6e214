/-!
# Exit statuses

How a process ended (`ExitStatus`), and the state of a process record (`ProcessState`): running,
or exited with a status that waits to be collected.
-/

namespace Lifecycle

/-- How a process ended. -/
inductive ExitStatus where
  /-- The process exited with this code. -/
  | code (value : Int32)
  /-- The kernel ended the process after an exception. -/
  | abnormal
deriving DecidableEq, Inhabited

/-- The state of a process. -/
inductive ProcessState where
  | running
  /-- The process has ended; its status waits to be collected. -/
  | exited (status : ExitStatus)
deriving DecidableEq, Inhabited

namespace ExitStatus

/-- How a status is written inside a larger value. -/
def describe : ExitStatus → String
  | code value => s!"Code({value.toInt})"
  | abnormal => "Abnormal"

end ExitStatus

namespace ProcessState

/-- The process has ended. -/
def isExited : ProcessState → Bool
  | running => false
  | exited _ => true

/-- The exit status, once there is one. -/
def status? : ProcessState → Option ExitStatus
  | running => none
  | exited status => some status

/-- How a state is written inside a larger value. -/
def describe : ProcessState → String
  | running => "Running"
  | exited status => s!"Exited({status.describe})"

@[simp] theorem isExited_running : running.isExited = false := rfl

@[simp] theorem isExited_exited (s : ExitStatus) : (exited s).isExited = true := rfl

theorem isExited_eq_false_iff {s : ProcessState} : s.isExited = false ↔ s = running := by
  cases s <;> simp [isExited]

end ProcessState

end Lifecycle
