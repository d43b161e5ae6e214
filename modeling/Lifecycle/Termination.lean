import Lifecycle.Kernel

/-!
# Terminations

A termination writes the exit status of a process, disowns its children, gives its memory back
and wakes the task that waits for it. When the last running process ends, the machine is halted.

All changes of the table happen in one critical section. The address spaces are dropped and the
waiter is woken after it, with the table unlocked.

* `Termination.exit`, `Termination.kill`: the end of a process by its own will and after an
  exception.
* `Termination.step`: the next step of the kernel.
-/

namespace Lifecycle

/-- How far a termination has come. -/
inductive TerminationStage where
  /-- Change the table. -/
  | departing
  /-- Drop the address spaces. -/
  | releasing (departure : Table.Departure)
  /-- Wake the waiter. -/
  | waking (waiter : Option TaskId) (idle : Bool)
  /-- Report the end, and halt the machine if no process runs. -/
  | closing (idle : Bool)
  | finished (result : Except ProcessError Unit)
  /-- A check failed. -/
  | crashed (fault : Fault)
deriving Inhabited

/-- The termination of the process `pid` with an exit status. -/
structure Termination where
  pid : Pid
  status : ExitStatus
  stage : TerminationStage
deriving Inhabited

namespace Termination

/-- The process ends with `code`. -/
def exit (pid : Pid) (code : Int32) : Termination := ⟨pid, .code code, .departing⟩

/-- The kernel ends the process. -/
def kill (pid : Pid) : Termination := ⟨pid, .abnormal, .departing⟩

/-- The termination at another stage. -/
def goTo (e : Termination) (stage : TerminationStage) : Termination := { e with stage := stage }

/-- What follows the end of the last running process. -/
def idleEffects (config : Config) (idle : Bool) : List Effect :=
  if idle && config.haltWhenIdle then [.note .idle, .halt] else []

/-- The next step of the kernel. A termination that has ended stays as it is. -/
def step (k : Kernel) (e : Termination) : Kernel × List Effect × Termination :=
  match e.stage with
  | .departing =>
    match k.table.depart e.pid e.status with
    | (.notRunning, t) => ({ k with table := t }, [], e.goTo (.finished (.error .notFound)))
    | (.departed departure, t) => ({ k with table := t }, [], e.goTo (.releasing departure))
    | (.faulted fault spaces, t) =>
      ({ k with table := t }, Effect.releaseAll spaces, e.goTo (.crashed fault))
  | .releasing departure =>
    (k, Effect.releaseAll departure.spaces, e.goTo (.waking departure.waiter departure.idle))
  | .waking waiter idle => (k, waiter.toList.map Effect.wake, e.goTo (.closing idle))
  | .closing idle =>
    (k, .note (.exited e.pid e.status) :: idleEffects k.config idle, e.goTo (.finished (.ok ())))
  | _ => (k, [], e)

end Termination

end Lifecycle
