import Lifecycle.Kernel

/-!
# Launches

A launch turns the name of an executable into a running process. It reserves a record, has the
image loaded, stores the address space and has the scheduler create a task. While the image is
loaded and while the task is created the table is not locked, so the record of a launch is visible
to every other operation.

A launch that fails after its record was reserved takes the record out again, and the launch of a
root process allows another one.

* `Launch.boot`, `Launch.exec`: the launch of a root process, and of a child of a running process.
* `Launch.step`: the next step of the kernel.
* `Launch.loaded`, `Launch.spawned`: the answers of the loader and of the scheduler.
* `Launch.aborted`: the machine fails one of its checks instead of answering.
-/

namespace Lifecycle

/-- What a launch is to create. Without a parent it creates the root process. -/
structure Order where
  parent : Option Pid
  /-- Name of the executable. -/
  name : String
  /-- Number of arguments. -/
  argc : UInt32
deriving DecidableEq, Inhabited

/-- A launch. Each constructor says what comes next. -/
inductive Launch where
  /-- Claim the right to create the root process. -/
  | booting (name : String)
  /-- Reserve a record. -/
  | reserving (order : Order)
  /-- The loader builds the address space. -/
  | loading (order : Order) (pid : Pid)
  /-- Store the address space in the record. -/
  | storing (order : Order) (pid : Pid) (image : LoadedImage)
  /-- The scheduler creates the task. -/
  | spawning (order : Order) (pid : Pid) (image : LoadedImage)
  /-- Take the record out again. -/
  | undoing (order : Order) (pid : Pid) (cause : ProcessError)
  /-- Drop the record that was taken out. -/
  | discarding (order : Order) (record : Record) (cause : ProcessError)
  /-- Allow another launch of a root process. -/
  | clearing (cause : ProcessError)
  | finished (result : Except ProcessError Pid)
  /-- A check failed. -/
  | crashed (fault : Fault)
deriving Inhabited

namespace Launch

/-- The launch of the root process. -/
def boot (config : Config) (name : String) : Launch :=
  match config.validateName name with
  | .error e => .finished (.error e)
  | .ok () => .booting name

/-- The launch of a child of `caller`. -/
def exec (config : Config) (caller : Pid) (name : String) (argc : Int32) : Launch :=
  match config.validateName name with
  | .error e => .finished (.error e)
  | .ok () =>
    if argc < 0 then .finished (.error (.invalidArgument "negative argument count"))
    else .reserving ⟨some caller, name, argc.toUInt32⟩

/-- Where a launch without a record goes on when it fails. -/
def abandon (order : Order) (cause : ProcessError) : Launch :=
  match order.parent with
  | none => .clearing cause
  | some _ => .finished (.error cause)

/-- The registers of the task to be created. -/
def context (order : Order) (pid : Pid) (image : LoadedImage) : UserContext where
  pid := pid
  entry := image.entry
  stack := image.stack
  argc := order.argc
  argv := 0

/-- The notice of a launch that succeeds. -/
def createdNotice (order : Order) (pid : Pid) (image : LoadedImage) : Notice :=
  match order.parent with
  | none => .createdRoot order.name pid
  | some parent => .created order.name pid parent image.space.pages

/-- The next step of the kernel. A launch that waits for an answer or has ended stays as it is. -/
def step (k : Kernel) : Launch → Kernel × List Effect × Launch
  | booting name =>
    if k.booted then
      (k, [], .finished (.error (.invalidArgument "root process already exists")))
    else ({ k with booted := true }, [], .reserving ⟨none, name, 0⟩)
  | reserving order =>
    match k.table.allocate order.parent order.name with
    | (.ok pid, t) => ({ k with table := t }, [], .loading order pid)
    | (.refused e, t) => ({ k with table := t }, [], abandon order e)
    | (.faulted fault, t) => ({ k with table := t }, [], .crashed fault)
  | storing order pid image =>
    match k.table.storeSpace pid image.space with
    | none => (k, [.release image.space], .crashed (.removedWhileLoading pid))
    | some (replaced, t) =>
      ({ k with table := t }, Effect.releaseAll replaced.toList, .spawning order pid image)
  | undoing order pid cause =>
    match k.table.rollback pid with
    | (.absent, t) => ({ k with table := t }, [], .crashed (.rolledBackTwice pid))
    | (.taken r, t) => ({ k with table := t }, [], .discarding order r cause)
    | (.faulted fault r, t) => ({ k with table := t }, Effect.releaseOf r, .crashed fault)
  | discarding order r cause =>
    (k, .note (.rolledBack r.pid) :: Effect.releaseOf r, abandon order cause)
  | clearing cause => ({ k with booted := false }, [], .finished (.error cause))
  | l => (k, [], l)

/-- The launch goes on with the answer of the loader. -/
def loaded (answer : Except LoadError LoadedImage) : Launch → List Effect × Launch
  | loading order pid =>
    match answer with
    | .ok image => ([], .storing order pid image)
    | .error e => ([.note (.loadFailed order.name pid e)], .undoing order pid e.toProcessError)
  | l => ([], l)

/-- The launch goes on with the answer of the scheduler. The first process has the PID of the
root. -/
def spawned (answer : Except SpawnError Unit) : Launch → List Effect × Launch
  | spawning order pid image =>
    match answer with
    | .error e => ([.note (.noContext pid e)], .undoing order pid e.toProcessError)
    | .ok () =>
      ([.note (createdNotice order pid image)],
        if order.parent.isNone ∧ pid ≠ Pid.root then .crashed (.rootNotFirst pid)
        else .finished (.ok pid))
  | l => ([], l)

/-- The launch ends because the machine failed a check instead of answering. -/
def aborted (fault : Fault) : Launch → Launch
  | loading .. | spawning .. => crashed fault
  | l => l

end Launch

end Lifecycle
