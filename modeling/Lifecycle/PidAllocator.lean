import Lifecycle.Pid

/-!
# The PID allocator

Numbers that were never handed out come first, in increasing order. When they are used up, the
numbers given back are handed out again, the oldest first. A number given back by a launch that
never ran can be taken back into the counter, if it is the last one handed out
(`PidAllocator.unreserve`).
-/

namespace Lifecycle

/-- The state of the allocator. -/
structure PidAllocator where
  range : PidRange
  /-- The smallest number not handed out yet. -/
  next : UInt32
  /-- The numbers given back, oldest first. -/
  recycled : List Pid
deriving Inhabited

namespace PidAllocator

/-- An allocator that has handed out nothing. -/
def new (range : PidRange) : PidAllocator := ⟨range, Pid.root.number, []⟩

/-- Takes a PID; `none` if every number of the range is in use. -/
def alloc (a : PidAllocator) : Option (Pid × PidAllocator) :=
  if a.next ≤ a.range.largest then some (⟨a.next⟩, { a with next := a.next + 1 })
  else match a.recycled with
    | [] => none
    | pid :: rest => some (pid, { a with recycled := rest })

/-- Gives back the PID of a process that has left the table. -/
def dealloc (a : PidAllocator) (pid : Pid) : PidAllocator :=
  { a with recycled := a.recycled ++ [pid] }

/-- Gives back a PID that no process ran under. The counter goes back if `pid` was its last
number. -/
def unreserve (a : PidAllocator) (pid : Pid) : PidAllocator :=
  if pid.number + 1 = a.next then { a with next := a.next - 1 } else a.dealloc pid

end PidAllocator

end Lifecycle
