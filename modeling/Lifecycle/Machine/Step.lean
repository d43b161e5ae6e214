import Lifecycle.Machine.State

/-!
# Steps of the machine

A `Move` names what happens next: an actor takes its next step, a task that sleeps wakes up for no
reason, or the host has no thread for a task that is being created. `Machine.next` is the machine
after a move, if the move is possible. All interleavings of the actors are the sequences of moves.

* `Machine.advance`: the next step of an actor. A task that sleeps without a wakeup and a task
  that waits for a semaphore at zero have none.
-/

namespace Lifecycle

/-- Who acts. -/
inductive Actor where
  | host
  | task (serial : Nat)
deriving DecidableEq, Inhabited

/-- The task number that the calls of an actor run under. -/
def Actor.taskId : Actor → TaskId
  | host => Machine.hostTask
  | task serial => .ofSerial serial

/-- What happens next. -/
inductive Move where
  /-- An actor takes its next step. -/
  | advance (actor : Actor)
  /-- A task that sleeps wakes up for no reason. -/
  | rouse (serial : Nat)
  /-- There is no thread for the task that an actor is creating. -/
  | starve (actor : Actor)
deriving DecidableEq, Inhabited

namespace Machine

/-- The call of an errand goes on, and nothing is claimed for it. -/
def resume (m : Machine) (e : Errand) (answer : List Effect × Call) : Machine × Errand :=
  (m.applyAll answer.1, { e with call := answer.2, claimed := false })

/-- The call of an errand ends on a failed check of the machine. A place claimed for a new task is
not given back. -/
def abort (m : Machine) (e : Errand) (fault : Fault) : Machine × Errand :=
  (m, { e with call := e.call.aborted fault, claimed := false })

/-- The scheduler claims a place for a new task, if the executable is a program and there is
room. -/
def claim (m : Machine) (e : Errand) (name : String) : Machine × Errand :=
  if (m.loader.registry.body? name).isNone ∨ m.maxTasks ≤ m.live then
    m.resume e (e.call.spawned (.error .noResources))
  else ({ m with live := m.live + 1 }, { e with claimed := true })

/-- The machine with a new task. Wakeups for its number reach it from now on. -/
def enroll (m : Machine) (t : Task) : Machine :=
  { m with
    tasks := m.tasks ++ [t]
    threads := (t.id, t.serial) :: m.threads.filter (fun e => e.1 ≠ t.id) }

/-- The machine without a task that has finished. Its place is free again. -/
def finish (m : Machine) (t : Task) : Machine :=
  { m with
    tasks := m.tasks.filter (fun u => u.serial ≠ t.serial)
    threads := m.threads.filter (fun e => e.1 ≠ t.id)
    live := m.live - 1 }

/-- The name of the thread that runs a process. -/
def threadName (pid : Pid) (name : String) : String := s!"pid{pid}-{name}"

/-- The scheduler creates the task that a place is claimed for. -/
def start (m : Machine) (e : Errand) (name : String) (context : UserContext) : Machine × Errand :=
  match m.loader.registry.body? name with
  | none => ({ m with live := m.live - 1 }).resume e (e.call.spawned (.error .noResources))
  | some body =>
    let thread := threadName context.pid name
    let task : Task := ⟨m.nextTask, context.pid, false, .running (body context.pid)⟩
    let m := { m with nextTask := m.nextTask + 1 }
    if 0 ∈ thread.toUTF8.data.toList then m.abort e (.zeroInThreadName thread)
    else (m.enroll task).resume e (e.call.spawned (.ok ()))

/-- The place claimed for a new task is given back, for want of a thread. The number of the task is
used up. -/
def unclaim (m : Machine) (e : Errand) : Machine × Errand :=
  ({ m with live := m.live - 1, nextTask := m.nextTask + 1 }).resume e
    (e.call.spawned (.error .noResources))

/-- The next step of an errand; `none` if its task has to sleep. -/
def work (m : Machine) (e : Errand) : Option (Machine × Errand) :=
  match e.call.request? with
  | some (.load name) =>
    let (answer, loader) := m.loader.load name
    let m := { m with loader := loader }
    some (match answer with
      | .ok answer => m.resume e (e.call.loaded answer)
      | .error fault => m.abort e fault)
  | some (.spawn name context) =>
    some (if e.claimed then m.start e name context else m.claim e name)
  | some .sleep => none
  | none =>
    let (kernel, effects, call) := e.call.step m.kernel
    some (({ m with kernel := kernel }).applyAll effects, { e with call := call })

/-- What the task of the process `pid` does when the call of an errand has ended. A failed check
inside a system call counts as an exception of the program. -/
def leave (pid : Pid) (origin : Origin) (ended : Ended) : List Effect × Activity :=
  match origin with
  | .trap slot memory next =>
    match ended.leave pid slot memory with
    | .error _ => ([], .inKernel ⟨Kernel.exception pid, .exception, false⟩)
    | .ok (effects, .returns raw, memory) => (effects, .running (next raw memory))
    | .ok (effects, .retires, _) => (effects, .retiring)
  | _ => ([], .retiring)

/-- The start of a system call of the task `t`. -/
def enter (m : Machine) (t : Task) (r : Registers) (memory : Bytes)
    (next : Int64 → Bytes → Program) : Machine :=
  match m.kernel.enter t.pid t.id r memory with
  | (effects, .answered result) =>
    (m.applyAll effects).proceed t.serial (.running (next result.raw memory))
  | (effects, .started call) =>
    (m.applyAll effects).proceed t.serial (.inKernel ⟨call, .trap r.arg2 memory next, false⟩)

/-- The next step of the program of the task `t`. A program that returns makes the system call
that ends its process. -/
def runProgram (m : Machine) (t : Task) : Program → Option Machine
  | .done status => some (m.proceed t.serial (.running (.exit status)))
  | .raise =>
    some (m.proceed t.serial (.inKernel ⟨Kernel.exception t.pid, .exception, false⟩))
  | .log line next =>
    some (({ m with written := line :: m.written }).proceed t.serial (.running next))
  | .signal token next =>
    some ((m.setSemaphore token (m.semaphore token + 1)).proceed t.serial (.running next))
  | .wait token next =>
    if m.semaphore token = 0 then none
    else some ((m.setSemaphore token (m.semaphore token - 1)).proceed t.serial (.running next))
  | .trap registers memory next => some (m.enter t registers memory next)

/-- The task `t` wakes up. -/
def wakeUp (m : Machine) (t : Task) (e : Errand) (permit : Bool) : Machine :=
  m.adjustTask t.serial fun t =>
    { t with permit := permit, activity := .inKernel { e with call := e.call.woken } }

/-- The next step of the task `t`. A task that has left the kernel for good is finished. -/
def advanceTask (m : Machine) (t : Task) : Option Machine :=
  match t.activity with
  | .running program => m.runProgram t program
  | .inKernel e =>
    match e.call.ended? with
    | some ended =>
      let (effects, activity) := leave t.pid e.origin ended
      some ((m.applyAll effects).proceed t.serial activity)
    | none =>
      if e.call.request? = some .sleep then
        if t.permit then some (m.wakeUp t e false) else none
      else (m.work e).map fun (m, e) => m.proceed t.serial (.inKernel e)
  | .retiring => some (m.finish t)

/-- The next step of the host. -/
def advanceHost (m : Machine) : Option Machine :=
  match m.host with
  | .booting e =>
    match e.call.ended? with
    | some ended => some { m with host := .booted ended }
    | none => (m.work e).map fun (m, e) => { m with host := .booting e }
  | _ => none

/-- The next step of an actor, if it has one. -/
def advance (m : Machine) : Actor → Option Machine
  | .host => m.advanceHost
  | .task serial => (m.task? serial).bind m.advanceTask

/-- The task `serial` wakes up for no reason, if it sleeps. -/
def rouse (m : Machine) (serial : Nat) : Option Machine :=
  (m.task? serial).bind fun t =>
    match t.activity with
    | .inKernel e => if e.call.request? = some .sleep then some (m.wakeUp t e t.permit) else none
    | _ => none

/-- The actor gets no thread for the task it is creating, if it is creating one. -/
def starve (m : Machine) : Actor → Option Machine
  | .host =>
    match m.host with
    | .booting e =>
      if e.claimed then let (m, e) := m.unclaim e; some { m with host := .booting e } else none
    | _ => none
  | .task serial =>
    (m.task? serial).bind fun t =>
      match t.activity with
      | .inKernel e =>
        if e.claimed then let (m, e) := m.unclaim e; some (m.proceed serial (.inKernel e))
        else none
      | _ => none

/-- The machine after a move, if the move is possible. -/
def next (m : Machine) : Move → Option Machine
  | .advance actor => m.advance actor
  | .rouse serial => m.rouse serial
  | .starve actor => m.starve actor

end Machine

end Lifecycle
