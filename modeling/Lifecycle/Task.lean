import Lifecycle.Pid

/-!
# Tasks

A task is the scheduler's unit of execution; it runs one process, or belongs to the host. A new
process starts from a `UserContext`, the registers its task begins with.
-/

namespace Lifecycle

/-- The scheduler's number of a task. -/
structure TaskId where
  number : UInt64
deriving DecidableEq, Inhabited

namespace TaskId

instance : ToString TaskId := ⟨fun t => s!"task#{t.number.toNat}"⟩

/-- How a task is written inside a larger value. -/
def describe (t : TaskId) : String := s!"TaskId({t.number.toNat})"

end TaskId

/-- The registers a new process starts with. -/
structure UserContext where
  pid : Pid
  /-- First instruction. -/
  entry : UInt64
  /-- Top of the user stack. -/
  stack : UInt64
  /-- Number of arguments. -/
  argc : UInt32
  /-- Address of the arguments, which are not copied: always zero. -/
  argv : UInt64
deriving DecidableEq, Inhabited

/-- The scheduler cannot create a task. -/
inductive SpawnError where
  | noResources
deriving DecidableEq, Inhabited

/-- The wording of a spawn error. -/
def SpawnError.message : SpawnError → String
  | noResources => "no resources for a new task"

end Lifecycle
