import Lifecycle.Table

/-!
# Scripts over the bare process table

A script whose steps are critical sections of the table itself, without the kernel around them.
Two more steps set the waiter and the address space of a record, which otherwise takes a join or
a launch.
-/

namespace Lifecycle.Scenario

/-- A step of a table script. -/
inductive TableStep where
  | allocate (parent : Option Pid) (name : String)
  | lookup (pid : Pid)
  | remove (pid : Pid)
  | rollback (pid : Pid)
  | markExited (pid : Pid) (status : ExitStatus)
  /-- The text form of a record. -/
  | describe (pid : Pid)
  | setWaiter (pid : Pid) (task : Option TaskId)
  | setPages (pid : Pid) (pages : Option Nat)
  | capacity
deriving Inhabited

/-- How a step of a table script ends. -/
inductive TableResult where
  | pid (pid : Pid)
  | snapshot (snapshot : Snapshot)
  /-- The text form of the record that was touched, if there is one. -/
  | text (record : Option String)
  /-- Whether there is such a record. -/
  | found (found : Bool)
  | capacity (capacity : Nat)
  | refused (error : ProcessError)
  | crashed (fault : Fault)
deriving DecidableEq, Inhabited

namespace TableStep

/-- The result of a critical section that touches one record. -/
def resultOf : Taken → TableResult
  | .absent => .text none
  | .taken r => .text (some r.describe)
  | .faulted fault _ => .crashed fault

/-- Runs a step. -/
def run (t : Table) : TableStep → TableResult × Table
  | allocate parent name =>
    match t.allocate parent name with
    | (.ok pid, t) => (.pid pid, t)
    | (.refused e, t) => (.refused e, t)
    | (.faulted fault, t) => (.crashed fault, t)
  | lookup pid =>
    match t.lookup pid with
    | .ok s => (.snapshot s, t)
    | .error e => (.refused e, t)
  | remove pid => let (taken, t) := t.remove pid; (resultOf taken, t)
  | rollback pid => let (taken, t) := t.rollback pid; (resultOf taken, t)
  | markExited pid status => let (taken, t) := t.markExited pid status; (resultOf taken, t)
  | describe pid => (.text ((t.get? pid).map Record.describe), t)
  | setWaiter pid task =>
    (.found (t.get? pid).isSome, t.adjust pid (fun r => { r with waiter := task }))
  | setPages pid pages =>
    (.found (t.get? pid).isSome,
      t.adjust pid (fun r => { r with space := pages.map (AddressSpace.mk 0) }))
  | capacity => (.capacity t.capacity, t)

end TableStep

/-- The result of each step of a table script, with the table it leaves. -/
def runTable : List TableStep → Table → List (TableResult × Table)
  | [], _ => []
  | step :: rest, t =>
    let (result, t) := step.run t
    (result, t) :: runTable rest t

end Lifecycle.Scenario
