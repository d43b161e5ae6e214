import Lifecycle.Config
import Lifecycle.Notice
import Lifecycle.Table

/-!
# The kernel

The state all operations share (`Kernel`), and what an operation does to the machine around it
(`Effect`).

An operation runs in steps. Between two steps of one operation any steps of others may run, so a
step reads and writes the shared state in one critical section at most. What a step does to the
machine, in order, is its list of effects.
-/

namespace Lifecycle

/-- The state that the operations share. -/
structure Kernel where
  config : Config
  table : Table
  /-- A root process exists, or its launch is under way. -/
  booted : Bool
deriving Inhabited

namespace Kernel

/-- A kernel before its root process, handing out the PIDs of `range`. -/
def new (config : Config) (range : PidRange) : Kernel :=
  ⟨config, .new config.maxProcesses range, false⟩

/-- The PIDs this kernel hands out. -/
def range (k : Kernel) : PidRange := k.table.pids.range

end Kernel

/-- What a step does to the machine around the kernel. -/
inductive Effect where
  /-- Write a record to the log. -/
  | note (notice : Notice)
  /-- Drop an address space: its pages are free again. -/
  | release (space : AddressSpace)
  /-- Make a task runnable, or let its next sleep end at once. -/
  | wake (task : TaskId)
  /-- Stop the machine. -/
  | halt
deriving Inhabited

namespace Effect

/-- The release of an address space, if there is one. -/
def releaseAll (spaces : List AddressSpace) : List Effect := spaces.map release

/-- The release of the address space that a record still holds. -/
def releaseOf (record : Record) : List Effect := releaseAll record.space.toList

end Effect

end Lifecycle
