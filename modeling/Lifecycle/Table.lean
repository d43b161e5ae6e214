import Lifecycle.PidAllocator
import Lifecycle.Record

/-!
# The process table

The table holds the records of the processes that run, and of those whose exit status waits to
be collected, together with the PID allocator and the count of running records. One lock guards
all of it, and each operation below is one critical section: a function from the table to its
result and the table it leaves.

A critical section can fail one of its checks (`Fault`). The table it leaves then holds what was
changed up to there, and the result names the record it had already taken out.

* `Table.allocate`: registers a new process under its parent.
* `Table.remove`, `Table.rollback`: take a record out; they differ in what becomes of the PID.
* `Table.storeSpace`: gives a record its address space.
* `Table.checkJoin`: one look of a join at the child it waits for.
* `Table.depart`: the end of a process, with its children disowned.
-/

namespace Lifecycle

/-- The process table. -/
structure Table where
  /-- Most records it holds. -/
  capacity : Nat
  records : PidMap Record
  pids : PidAllocator
  /-- The number of records in state running. -/
  running : Nat
deriving Inhabited

/-- What taking a record out of the table, or changing its state, gives. -/
inductive Taken where
  /-- There is no such record. -/
  | absent
  | taken (record : Record)
  /-- A check failed; `record` is the record at that moment. -/
  | faulted (fault : Fault) (record : Record)
deriving DecidableEq, Inhabited

namespace Table

/-- An empty table. -/
def new (capacity : Nat) (range : PidRange) : Table := ⟨capacity, .empty, .new range, 0⟩

/-! ## Reading -/

/-- The record of `pid`. -/
def get? (t : Table) (pid : Pid) : Option Record := t.records.get? pid

/-- The record of `pid`, if the process has not ended. -/
def running? (t : Table) (pid : Pid) : Option Record :=
  (t.get? pid).filter (fun r => !r.isExited)

/-- The number of records. -/
def count (t : Table) : Nat := t.records.size

/-- The snapshot of one record. -/
def lookup (t : Table) (pid : Pid) : Except ProcessError Snapshot :=
  match t.get? pid with
  | some r => .ok r.snapshot
  | none => .error .notFound

/-- The snapshots of all records, in increasing order of their PIDs. -/
def snapshots (t : Table) : List Snapshot := t.records.values.map Record.snapshot

/-- What is known of one process. -/
def info? (t : Table) (pid : Pid) : Option ProcessInfo :=
  (t.get? pid).map (fun r => r.snapshot.info)

/-- The process listing, in increasing order of the PIDs. -/
def infos (t : Table) : List ProcessInfo := t.snapshots.map Snapshot.info

/-! ## Changing single records -/

/-- The table with `f` applied to the record of `pid`. -/
def adjust (t : Table) (pid : Pid) (f : Record → Record) : Table :=
  { t with records := t.records.adjust pid f }

/-- The table with one running record less; `none` if the count is zero already. -/
def lowerRunning (t : Table) : Option Table :=
  if t.running = 0 then none else some { t with running := t.running - 1 }

/-- The table with `child` no longer among the children of `parent`. -/
def forgetChild (t : Table) (parent : Option Pid) (child : Pid) : Table :=
  match parent with
  | none => t
  | some parent => t.adjust parent (fun r => { r with children := r.children.remove child })

/-- Ends the process `pid` with `status`. The record stays. -/
def markExited (t : Table) (pid : Pid) (status : ExitStatus) : Taken × Table :=
  match t.get? pid with
  | none => (.absent, t)
  | some r =>
    match r.setExited status with
    | .error fault => (.faulted fault r, t)
    | .ok r =>
      let t := t.adjust pid (fun _ => r)
      match t.lowerRunning with
      | none => (.faulted .runningUnderflow r, t)
      | some t => (.taken r, t)

/-! ## Taking records out -/

/-- Takes the record of `pid` out and unlinks it from its parent. No task may wait on it. -/
def unlink (t : Table) (pid : Pid) : Taken × Table :=
  match t.get? pid with
  | none => (.absent, t)
  | some r =>
    let t := { t with records := t.records.erase pid }
    if r.waiter.isSome then (.faulted (.joinerPending pid) r, t)
    else if r.isExited then (.taken r, t.forgetChild r.parent pid)
    else match t.lowerRunning with
      | none => (.faulted .runningUnderflow r, t)
      | some t => (.taken r, t.forgetChild r.parent pid)

/-- Takes the record of `pid` out. Its PID can be handed out again. -/
def remove (t : Table) (pid : Pid) : Taken × Table :=
  match t.unlink pid with
  | (.taken r, t) => (.taken r, { t with pids := t.pids.dealloc pid })
  | result => result

/-- Takes out the record of a launch that never ran. -/
def rollback (t : Table) (pid : Pid) : Taken × Table :=
  match t.unlink pid with
  | (.taken r, t) => (.taken r, { t with pids := t.pids.unreserve pid })
  | result => result

/-! ## Launching -/

/-- The table with the new record `r`, entered among the children of its parent. -/
def register (t : Table) (r : Record) : Table :=
  let t := { t with records := t.records.insert r.pid r, running := t.running + 1 }
  match r.parent with
  | none => t
  | some parent => t.adjust parent (fun p => { p with children := p.children.add r.pid })

/-- Registers a new running process. A parent has to be running itself. -/
def allocate (t : Table) (parent : Option Pid) (name : String) : Outcome Pid × Table :=
  if parent.any (fun p => (t.running? p).isNone) then (.refused .notFound, t)
  else if t.capacity ≤ t.count then (.refused .resourceExhausted, t)
  else match t.pids.alloc with
    | none => (.refused .resourceExhausted, t)
    | some (pid, pids) =>
      let t := { t with pids := pids }
      if t.records.contains pid then (.faulted (.pidInUse pid), t)
      else (.ok pid, t.register (.new pid parent name))

/-- Gives the record of `pid` its address space, and yields the one it replaces; `none` if there
is no such record. -/
def storeSpace (t : Table) (pid : Pid) (space : AddressSpace) :
    Option (Option AddressSpace × Table) :=
  (t.get? pid).map fun r => (r.space, t.adjust pid (fun r => { r with space := some space }))

/-! ## Joining -/

/-- What one look of a join at its child gives. -/
inductive JoinCheck where
  /-- The target is not an un-joined child of the caller. -/
  | notChild
  /-- Another task waits on the child. -/
  | busy
  /-- The child runs, and the task is entered as its waiter. -/
  | waiting
  /-- The child has ended; its record is out of the table. -/
  | collected (status : ExitStatus) (record : Option Record)
  /-- A check failed; `record` is the record that was out of the table by then. -/
  | faulted (fault : Fault) (record : Option Record)
deriving DecidableEq, Inhabited

/-- One look of the join of `caller`, which runs as `task`, at `child`. -/
def checkJoin (t : Table) (caller child : Pid) (task : TaskId) : JoinCheck × Table :=
  if !(t.get? caller).any (fun r => r.children.has child) then (.notChild, t)
  else match t.get? child with
    | none => (.faulted (.childMissing child) none, t)
    | some r =>
      match r.state with
      | .exited status =>
        match t.remove child with
        | (.absent, t) => (.collected status none, t)
        | (.taken r, t) => (.collected status (some r), t)
        | (.faulted fault r, t) => (.faulted fault (some r), t)
      | .running =>
        if r.waiter.any (· ≠ task) then (.busy, t)
        else (.waiting, t.adjust child (fun r => { r with waiter := some task }))

/-! ## Ending -/

/-- What the end of a process leaves to be done once the table is unlocked. -/
structure Departure where
  /-- The task that waits for the end. -/
  waiter : Option TaskId
  /-- The address spaces of the process and of the reclaimed records. -/
  spaces : List AddressSpace
  /-- No process runs any more. -/
  idle : Bool
deriving DecidableEq, Inhabited

/-- How the critical section of a termination ends. -/
inductive Departed where
  /-- There is no running process of that PID. -/
  | notRunning
  | departed (departure : Departure)
  /-- A check failed; `spaces` are the address spaces that were out of the table by then. -/
  | faulted (fault : Fault) (spaces : List AddressSpace)
deriving DecidableEq, Inhabited

/-- Disowns the children of `pid`: a child that has ended is reclaimed, a running one becomes an
orphan. Collects the address spaces of the reclaimed records behind `spaces`. -/
def disown (pid : Pid) :
    List Pid → List AddressSpace → Table → (Option Fault × List AddressSpace) × Table
  | [], spaces, t => ((none, spaces), t)
  | child :: rest, spaces, t =>
    match t.get? child with
    | none => disown pid rest spaces t
    | some r =>
      if r.isExited then
        match t.remove child with
        | (.absent, t) => disown pid rest spaces t
        | (.taken r, t) => disown pid rest (spaces ++ r.space.toList) t
        | (.faulted fault r, t) => ((some fault, spaces ++ r.space.toList), t)
      else
        disown pid rest spaces
          ((t.adjust child (fun r => { r with parent := none })).forgetChild (some pid) child)

/-- Reclaims the record of `pid` at once, if it has no parent that could collect it. -/
def reclaimOrphan (t : Table) (pid : Pid) (parent : Option Pid) :
    (Option Fault × List AddressSpace) × Table :=
  match parent with
  | some _ => ((none, []), t)
  | none =>
    match t.remove pid with
    | (.absent, t) => ((none, []), t)
    | (.taken r, t) => ((none, r.space.toList), t)
    | (.faulted fault r, t) => ((some fault, r.space.toList), t)

/-- Ends the running process `pid`: writes its status, takes its waiter and its address space out,
disowns its children, and reclaims its own record if nobody can collect it. -/
def depart (t : Table) (pid : Pid) (status : ExitStatus) : Departed × Table :=
  match t.running? pid with
  | none => (.notRunning, t)
  | some r =>
    match t.markExited pid status with
    | (.absent, t) => (.faulted (.vanished pid) [], t)
    | (.faulted fault _, t) => (.faulted fault [], t)
    | (.taken exited, t) =>
      let t := t.adjust pid (fun r => { r with waiter := none, space := none })
      match disown pid r.children.keys exited.space.toList t with
      | ((some fault, spaces), t) => (.faulted fault spaces, t)
      | ((none, spaces), t) =>
        match t.reclaimOrphan pid exited.parent with
        | ((some fault, more), t) => (.faulted fault (spaces ++ more), t)
        | ((none, more), t) =>
          (.departed ⟨exited.waiter, spaces ++ more, t.running = 0⟩, t)

end Table

end Lifecycle
