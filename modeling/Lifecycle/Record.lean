import Lifecycle.Error
import Lifecycle.PidMap
import Lifecycle.Status
import Lifecycle.Text.Quoted

/-!
# Process records

A `Record` is what the kernel keeps about one process: its place in the process tree, its state,
the task that waits for its end, and its address space. Readers get copies without the private
parts: a `Snapshot`, or a `ProcessInfo`, which leaves out the memory as well.
-/

namespace Lifecycle

/-- What the kernel keeps about one process. -/
structure Record where
  pid : Pid
  /-- The parent; `none` for the root process and for orphans. -/
  parent : Option Pid
  /-- Name of the executable. -/
  name : String
  state : ProcessState
  /-- The children that have not been joined. -/
  children : PidSet
  /-- The task of the parent that sleeps until this process ends. -/
  waiter : Option TaskId
  /-- The address space: none before the image is loaded, and none after the end. -/
  space : Option AddressSpace
deriving DecidableEq, Inhabited

namespace Record

/-- A running record without children, waiter and address space. -/
def new (pid : Pid) (parent : Option Pid) (name : String) : Record where
  pid := pid
  parent := parent
  name := name
  state := .running
  children := .empty
  waiter := none
  space := none

/-- The process has ended. -/
def isExited (r : Record) : Bool := r.state.isExited

/-- The exit status, once there is one. -/
def status? (r : Record) : Option ExitStatus := r.state.status?

/-- The record with an exit status. A status is written once. -/
def setExited (r : Record) (status : ExitStatus) : Except Fault Record :=
  if r.isExited then .error (.statusWrittenTwice r.pid) else .ok { r with state := .exited status }

/-- The pages its address space holds. -/
def residentPages (r : Record) : Nat := (r.space.map (·.pages)).getD 0

/-- The text form of an optional field. -/
def describeOption {α : Type} (describe : α → String) : Option α → String
  | none => "None"
  | some a => s!"Some({describe a})"

/-- The text form of a record, on one line. -/
def describe (r : Record) : String :=
  s!"Process \x7b pid: {r.pid.describe}, parent: {describeOption Pid.describe r.parent}"
    ++ s!", name: {Text.quote r.name}, state: {r.state.describe}"
    ++ s!", children: {r.children.describe}, waiter: {describeOption TaskId.describe r.waiter}"
    ++ s!", resident_pages: {r.residentPages} \x7d"

end Record

/-- A copy of a record for readers: the sizes of the child set and the address space stand for
them. -/
structure Snapshot where
  pid : Pid
  parent : Option Pid
  name : String
  state : ProcessState
  /-- Number of children that have not been joined. -/
  unjoinedChildren : Nat
  residentPages : Nat
deriving DecidableEq, Inhabited

/-- The snapshot of a record. -/
def Record.snapshot (r : Record) : Snapshot where
  pid := r.pid
  parent := r.parent
  name := r.name
  state := r.state
  unjoinedChildren := r.children.size
  residentPages := r.residentPages

/-- What a process listing shows of a process. -/
structure ProcessInfo where
  pid : Pid
  parent : Option Pid
  name : String
  state : ProcessState
  /-- Number of children that have not been joined. -/
  unjoinedChildren : Nat
deriving DecidableEq, Inhabited

/-- The part of a snapshot that a listing shows. -/
def Snapshot.info (s : Snapshot) : ProcessInfo where
  pid := s.pid
  parent := s.parent
  name := s.name
  state := s.state
  unjoinedChildren := s.unjoinedChildren

end Lifecycle
