/-!
# System calls

The system calls of the process kernel and their numbers.
-/

namespace Lifecycle

/-- A system call. -/
inductive Syscall where
  /-- Stop the machine. Only the root process may. -/
  | halt
  /-- End the calling process. -/
  | exit
  /-- Run a program in a new child process. -/
  | exec
  /-- Wait for a child process. -/
  | join
deriving DecidableEq, Inhabited

namespace Syscall

/-- The number a program passes to name the call. -/
def number : Syscall → UInt64
  | halt => 0
  | exit => 1
  | exec => 2
  | join => 3

/-- The call of a number. -/
def ofNumber? (n : UInt64) : Option Syscall :=
  if n = 0 then some halt
  else if n = 1 then some exit
  else if n = 2 then some exec
  else if n = 3 then some join
  else none

/-- The name of the call in a trace. -/
def name : Syscall → String
  | halt => "halt"
  | exit => "exit"
  | exec => "exec"
  | join => "join"

theorem ofNumber?_number (s : Syscall) : ofNumber? s.number = some s := by cases s <;> rfl

theorem ofNumber?_eq_some_iff {n : UInt64} {s : Syscall} : ofNumber? n = some s ↔ n = s.number := by
  constructor
  · intro h
    unfold ofNumber? at h
    repeat' split at h
    all_goals first | (cases h; assumption) | exact absurd h (by simp)
  · rintro rfl; exact ofNumber?_number s

end Syscall

end Lifecycle
