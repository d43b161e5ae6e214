import Lifecycle.Record
import Lifecycle.Syscall.Registers

/-!
# Scenarios

A scenario is a list of steps that drive a kernel one after another. While a step waits for the
loader, for the scheduler or in its sleep, further steps can run inside it: they stand for what
other processes do in the meantime.
-/

namespace Lifecycle.Scenario

/-- What a step does. -/
inductive Action where
  /-- Create the root process. -/
  | root (name : String)
  | exec (caller : Pid) (name : String) (argc : Int32)
  | join (caller child : Pid)
  | exit (pid : Pid) (code : Int32)
  | kill (pid : Pid)
  | halt (caller : Pid)
  | exception (caller : Pid)
  | syscall (caller : Pid) (registers : Registers)
  /-- Store a string in user memory. -/
  | setString (address : UInt64) (value : String)
  /-- Make user memory read-only or writable. -/
  | setReadOnly (on : Bool)
  /-- Make the scheduler refuse or accept new tasks. -/
  | setRefusing (on : Bool)
  | lookup (pid : Pid)
  | info (pid : Pid)
  | list
  /-- Register a process without launching it. -/
  | allocate (parent : Option Pid) (name : String)
  | config
deriving Inhabited

/-- A step of a scenario. A `task` is the task number the step runs under. -/
inductive Step where
  /-- An action, with the steps that run while the loader works, while the scheduler works, and in
  each sleep. -/
  | act (task : Option UInt64) (action : Action) (load spawn : List Step)
      (sleeps : List (List Step))
  /-- A step `n` times over. -/
  | again (task : Option UInt64) (n : Nat) (step : Step)

instance : Inhabited Step := ⟨.act none .list [] [] []⟩

/-- How a scenario's loader answers for a name: what it loads, or why it cannot. -/
structure ImageFile where
  pages : Nat := 4
  entry : UInt64 := 4096
  stack : UInt64 := 65536
deriving DecidableEq, Inhabited

/-- The answers of a loader by name. -/
abbrev Images := List (String × Except LoadError ImageFile)

/-- The executables every scenario has. -/
def standardImages : Images := [
  ("init.coff", .ok ⟨4, 4096, 65536⟩),
  ("a.coff", .ok ⟨6, 8192, 32768⟩),
  ("b.coff", .ok ⟨1, 4096, 65536⟩),
  ("empty.coff", .ok ⟨0, 4096, 65536⟩),
  ("broken.coff", .error (.malformed "fragmented executable")),
  ("huge.coff", .error .outOfMemory)]

end Lifecycle.Scenario
