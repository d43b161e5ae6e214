import Lifecycle.Scenario.World
import Lifecycle.Surroundings

/-!
# Running a scenario

`Scenario.run` answers the steps of a scenario in order. Inside a step, a call of the kernel runs
in surroundings (`Meanwhile.surroundings`) where the steps given for a moment run before the
answer is given. A call that falls asleep with no more steps to run is abandoned, and what it did
stays done.
-/

namespace Lifecycle.Scenario

/-- What happens in the world while a call waits. -/
structure Meanwhile where
  load : World → World
  spawn : World → World
  /-- What happens in each sleep, in order. -/
  sleeps : List (World → World)

namespace Meanwhile

/-- The world with the sleeps that are still to come. -/
abbrev Stage := World × List (World → World)

/-- A sleep lasts as long as the next steps take. With no steps left it never ends. -/
def sleep (w : Stage) : Bool × Stage :=
  let asleep := w.1.record (.sleep w.1.task)
  match w.2 with
  | [] => (false, asleep, [])
  | steps :: rest => (true, steps asleep, rest)

/-- The surroundings of a call inside a step. -/
def surroundings (m : Meanwhile) : Surroundings Stage where
  kernel w := w.1.kernel
  withKernel w k := ({ w.1 with kernel := k }, w.2)
  task w := w.1.task
  apply w e := (w.1.apply e, w.2)
  load w name :=
    let (answer, world) := (m.load (w.1.record (.load name))).load name
    (answer, world, w.2)
  spawn w name context :=
    let world := m.spawn (w.1.record (.spawn name context))
    (world.spawn, world, w.2)
  sleep := sleep

/-- More requests than any call inside a step makes: a launch makes two, and a join one for each
sleep. -/
def requests (m : Meanwhile) : Nat := m.sleeps.length + 3

end Meanwhile

namespace World

/-- The result of an operation that was called directly. -/
def resultOf : Option Ended → Result
  | none => .asleep
  | some (.launched (.ok pid)) => .pid pid
  | some (.launched (.error e)) => .refused e
  | some (.joined _ (.ok status)) => .status status
  | some (.joined _ (.error e)) => .refused e
  | some (.terminated _ (.ok ())) => .done
  | some (.terminated _ (.error e)) => .refused e
  | some (.halted (.ok ())) => .done
  | some (.halted (.error e)) => .refused e
  | some (.crashed fault) => .crashed fault

/-- Runs an operation that is called directly. -/
def operate (w : World) (m : Meanwhile) (call : Call) : World × Result :=
  let (ended, w, _) := m.surroundings.drive m.requests call (w, m.sleeps)
  (w, resultOf ended)

/-- The world and the result at the end of a trap. The words it wrote become part of user memory
when it returns. -/
def conclude (w : World) : TrapEnd Memory → World × Result
  | .asleep => (w, .asleep)
  | .crashed fault => (w, .crashed fault)
  | .replied .retires _ => (w.record .retire, .retired)
  | .replied (.returns raw) memory =>
    let words := memory.words.foldl Memory.setWord w.memory.words
    let w := { w with memory := { w.memory with words := words } }
    (w, .returned raw w.memory.sortedWords)

/-- Makes a system call. It sees user memory as it is now. -/
def trap (w : World) (m : Meanwhile) (caller : Pid) (r : Registers) : World × Result :=
  let memory := { w.memory with words := [] }
  let (trapEnd, w, _) :=
    m.surroundings.dispatch m.requests caller r memory (w, m.sleeps)
  w.conclude trapEnd

/-- Raises an exception. -/
def raise (w : World) (m : Meanwhile) (caller : Pid) : World × Result :=
  let (trapEnd, w, _) :=
    m.surroundings.raise m.requests caller ({} : Memory) (w, m.sleeps)
  w.conclude trapEnd

/-- Does what a step says. -/
def act (w : World) (meanwhile : Meanwhile) : Action → World × Result
  | .root name => w.operate meanwhile (.boot w.kernel name)
  | .exec caller name argc => w.operate meanwhile (.exec w.kernel caller name argc)
  | .join caller child => w.operate meanwhile (.join (.new caller child w.task))
  | .exit pid code => w.operate meanwhile (.terminate (.exit pid code))
  | .kill pid => w.operate meanwhile (.terminate (.kill pid))
  | .halt caller => w.operate meanwhile (.halt (.asked caller))
  | .exception caller => w.raise meanwhile caller
  | .syscall caller registers => w.trap meanwhile caller registers
  | .setString address value =>
    ({ w with memory := { w.memory with strings := (address, value) :: w.memory.strings } }, .done)
  | .setReadOnly on => ({ w with memory := { w.memory with readOnly := on } }, .done)
  | .setRefusing on => ({ w with refusing := on }, .done)
  | .lookup pid =>
    match w.kernel.table.lookup pid with
    | .ok snapshot => (w, .record snapshot)
    | .error e => (w, .refused e)
  | .info pid => (w, .info (w.kernel.table.info? pid))
  | .list => (w, .infos w.kernel.table.infos)
  | .allocate parent name =>
    let (outcome, table) := w.kernel.table.allocate parent name
    let w := { w with kernel := { w.kernel with table := table } }
    match outcome with
    | .ok pid => (w, .pid pid)
    | .refused e => (w, .refused e)
    | .faulted fault => (w, .crashed fault)
  | .config => (w, .config w.kernel.config w.kernel.table.capacity)

/-- Runs `f` under the task of a step, if it names one. -/
def withTask (task : Option UInt64) (f : World → World × Result) (w : World) : World × Result :=
  let (w', result) := f { w with task := (task.map TaskId.mk).getD w.task }
  ({ w' with task := w.task }, result)

/-- Runs `f` as a step of its own: its events are collected for its answer. -/
def answer (f : World → World × Result) (w : World) : World × Answer :=
  let (w', result) := f { w with events := [] }
  ({ w' with events := w.events }, ⟨result, w'.events.reverse, w'.view⟩)

/-- Runs `f` as a step inside another: its answer is an event. -/
def nested (f : World → World × Result) (w : World) : World :=
  let (w, a) := answer f w
  w.record (.step a.result a.events a.view)

/-- Runs `f` without a record of what happens. -/
def silently (f : World → World × Result) (w : World) : World × Result :=
  let (w', result) := f w
  ({ w' with events := w.events }, result)

/-- Runs `f` a number of times, and counts the failures. -/
def repeated (f : World → World × Result) : Nat → Nat → Option Result → World → World × Result
  | 0, failures, last, w => (w, .repeated failures last)
  | n + 1, failures, _, w =>
    let (w, result) := silently f w
    repeated f n (if result.isFailure then failures + 1 else failures) (some result) w

end World

mutual

/-- Runs a step. -/
def Step.run : Step → World → World × Result
  | .act task action load spawn sleeps =>
    let meanwhile : Meanwhile := ⟨Step.runAll load, Step.runAll spawn, Step.runEach sleeps⟩
    World.withTask task (fun w => w.act meanwhile action)
  | .again task n step => World.withTask task (World.repeated step.run n 0 none)

/-- Runs steps inside another step. -/
def Step.runAll : List Step → World → World
  | [], w => w
  | step :: rest, w => Step.runAll rest (World.nested step.run w)

/-- Runs steps inside each sleep of another step. -/
def Step.runEach : List (List Step) → List (World → World)
  | [] => []
  | steps :: rest => Step.runAll steps :: Step.runEach rest

end

/-- The answers to the steps of a scenario. -/
def run : List Step → World → List Answer
  | [], _ => []
  | step :: rest, w =>
    let (w, a) := World.answer step.run w
    a :: run rest w

end Lifecycle.Scenario
