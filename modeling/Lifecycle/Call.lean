import Lifecycle.Join
import Lifecycle.Launch
import Lifecycle.Termination

/-!
# Calls

A `Call` is an operation of the kernel under way: a launch, a join, a termination, or a request to
halt the machine, which only the root process may make. It runs by steps of the kernel
(`Call.step`), and now and then waits for the machine (`Call.request?`) until that answers.

* `Call.ended?`: how a call ended.
* `Call.stepsLeft`: a bound on the steps up to the end of a call or its next request. Each step
  lowers it (`Call.stepsLeft_step`), and it is zero only there (`Call.stepsLeft_eq_zero_iff`).
* `Call.settle`: those steps. The call then waits or has ended (`Call.stepsLeft_settle`).
-/

namespace Lifecycle

/-- A request to halt the machine. -/
inductive HaltRequest where
  | asked (caller : Pid)
  | finished (result : Except ProcessError Unit)
deriving Inhabited

namespace HaltRequest

/-- Grants the request of the root process and refuses any other. -/
def step : HaltRequest → List Effect × HaltRequest
  | asked caller =>
    if caller ≠ Pid.root then ([.note (.haltRefused caller)], finished (.error .permissionDenied))
    else ([.note .haltRequested, .halt], finished (.ok ()))
  | h => ([], h)

end HaltRequest

/-- An operation under way. -/
inductive Call where
  | launch (launch : Launch)
  | join (join : Join)
  | terminate (termination : Termination)
  | halt (request : HaltRequest)
deriving Inhabited

/-- What a call waits for. -/
inductive Request where
  /-- The loader builds the address space of an executable. -/
  | load (name : String)
  /-- The scheduler creates a task. -/
  | spawn (name : String) (context : UserContext)
  /-- The task of the call sleeps. -/
  | sleep
deriving DecidableEq, Inhabited

/-- How an operation ended. -/
inductive Ended where
  | launched (result : Except ProcessError Pid)
  | joined (child : Pid) (result : Except ProcessError ExitStatus)
  | terminated (status : ExitStatus) (result : Except ProcessError Unit)
  | halted (result : Except ProcessError Unit)
  /-- A check failed. -/
  | crashed (fault : Fault)
deriving Inhabited

namespace Call

/-- The launch of the root process. -/
def boot (k : Kernel) (name : String) : Call := launch (.boot k.config name)

/-- The launch of a child of `caller`. -/
def exec (k : Kernel) (caller : Pid) (name : String) (argc : Int32) : Call :=
  launch (.exec k.config caller name argc)

/-- What the call waits for, if it waits. -/
def request? : Call → Option Request
  | launch (.loading order _) => some (.load order.name)
  | launch (.spawning order pid image) => some (.spawn order.name (Launch.context order pid image))
  | join ⟨_, _, _, .sleeping⟩ => some .sleep
  | _ => none

/-- How the call ended, if it has. -/
def ended? : Call → Option Ended
  | launch (.finished result) => some (.launched result)
  | launch (.crashed fault) => some (.crashed fault)
  | join ⟨_, child, _, .finished result⟩ => some (.joined child result)
  | join ⟨_, _, _, .crashed fault⟩ => some (.crashed fault)
  | terminate ⟨_, status, .finished result⟩ => some (.terminated status result)
  | terminate ⟨_, _, .crashed fault⟩ => some (.crashed fault)
  | halt (.finished result) => some (.halted result)
  | _ => none

/-- The next step of the kernel. A call that waits or has ended stays as it is. -/
def step (k : Kernel) : Call → Kernel × List Effect × Call
  | launch l => let (k, effects, l) := l.step k; (k, effects, launch l)
  | join j => let (k, effects, j) := j.step k; (k, effects, join j)
  | terminate e => let (k, effects, e) := e.step k; (k, effects, terminate e)
  | halt h => let (effects, h) := h.step; (k, effects, halt h)

/-- The call goes on with the answer of the loader. -/
def loaded (answer : Except LoadError LoadedImage) : Call → List Effect × Call
  | launch l => let (effects, l) := l.loaded answer; (effects, launch l)
  | c => ([], c)

/-- The call goes on with the answer of the scheduler. -/
def spawned (answer : Except SpawnError Unit) : Call → List Effect × Call
  | launch l => let (effects, l) := l.spawned answer; (effects, launch l)
  | c => ([], c)

/-- The call ends because the machine failed a check instead of answering. -/
def aborted (fault : Fault) : Call → Call
  | launch l => launch (l.aborted fault)
  | c => c

/-- The sleep of the task of the call has ended. -/
def woken : Call → Call
  | join j => join j.woken
  | c => c

/-- Runs `n` steps of a call. -/
def steps (k : Kernel) (c : Call) : Nat → Kernel × List Effect × Call
  | 0 => (k, [], c)
  | n + 1 =>
    let (k, effects, c) := c.step k
    let (k, more, c) := c.steps k n
    (k, effects ++ more, c)

/-! ## Running up to a request -/

/-- A bound on the steps of a launch up to its end or its next request. -/
def launchSteps : Launch → Nat
  | .booting _ => 3
  | .reserving _ => 2
  | .storing .. => 1
  | .undoing .. => 3
  | .discarding .. => 2
  | .clearing _ => 1
  | _ => 0

/-- A bound on the steps of a join up to its end or its sleep. -/
def joinSteps : JoinStage → Nat
  | .checking => 2
  | .discarding .. => 1
  | _ => 0

/-- A bound on the steps of a termination up to its end. -/
def terminationSteps : TerminationStage → Nat
  | .departing => 4
  | .releasing _ => 3
  | .waking .. => 2
  | .closing _ => 1
  | _ => 0

/-- A bound on the steps of a call up to its end or its next request. -/
def stepsLeft : Call → Nat
  | launch l => launchSteps l
  | join j => joinSteps j.stage
  | terminate e => terminationSteps e.stage
  | halt (.asked _) => 1
  | halt (.finished _) => 0

/-- Runs a call until it waits or has ended. -/
def settle (k : Kernel) (c : Call) : Kernel × List Effect × Call := c.steps k c.stepsLeft

theorem launchSteps_abandon (order : Order) (cause : ProcessError) :
    launchSteps (Launch.abandon order cause) ≤ 1 := by
  unfold Launch.abandon; split <;> simp [launchSteps]

theorem launchSteps_step (k : Kernel) (l : Launch) :
    launchSteps (l.step k).2.2 ≤ launchSteps l - 1 := by
  cases l with
  | booting name => simp only [Launch.step]; split <;> simp [launchSteps]
  | reserving order =>
    simp only [Launch.step]
    split
    · simp [launchSteps]
    · exact launchSteps_abandon order _
    · simp [launchSteps]
  | storing order pid image => simp only [Launch.step]; split <;> simp [launchSteps]
  | undoing order pid cause => simp only [Launch.step]; split <;> simp [launchSteps]
  | discarding order r cause => exact launchSteps_abandon order cause
  | _ => simp [Launch.step, launchSteps]

theorem joinSteps_step (k : Kernel) (j : Join) :
    joinSteps (j.step k).2.2.stage ≤ joinSteps j.stage - 1 := by
  unfold Join.step
  split
  case h_1 h => rw [h]; split <;> simp [Join.goTo, joinSteps]
  case h_2 h => rw [h]; simp [Join.goTo, joinSteps]
  case h_3 => simp [joinSteps]

theorem terminationSteps_step (k : Kernel) (e : Termination) :
    terminationSteps (e.step k).2.2.stage ≤ terminationSteps e.stage - 1 := by
  unfold Termination.step
  split
  case h_1 h => rw [h]; split <;> simp [Termination.goTo, terminationSteps]
  case h_2 h => rw [h]; simp [Termination.goTo, terminationSteps]
  case h_3 h => rw [h]; simp [Termination.goTo, terminationSteps]
  case h_4 h => rw [h]; simp [Termination.goTo, terminationSteps]
  case h_5 => simp [terminationSteps]

/-- Each step lowers the bound. -/
theorem stepsLeft_step (k : Kernel) (c : Call) : (c.step k).2.2.stepsLeft ≤ c.stepsLeft - 1 := by
  cases c with
  | launch l => exact launchSteps_step k l
  | join j => exact joinSteps_step k j
  | terminate e => exact terminationSteps_step k e
  | halt h =>
    cases h with
    | asked caller => simp only [step, HaltRequest.step]; split <;> simp [stepsLeft]
    | finished result => simp [step, HaltRequest.step, stepsLeft]

theorem stepsLeft_steps (k : Kernel) (c : Call) (n : Nat) :
    (c.steps k n).2.2.stepsLeft ≤ c.stepsLeft - n := by
  induction n generalizing k c with
  | zero => exact Nat.le_refl _
  | succ n ih =>
    have h := ih (c.step k).1 (c.step k).2.2
    have h' := stepsLeft_step k c
    calc (c.steps k (n + 1)).2.2.stepsLeft
      _ ≤ (c.step k).2.2.stepsLeft - n := h
      _ ≤ c.stepsLeft - (n + 1) := by omega

/-- A settled call waits or has ended. -/
theorem stepsLeft_settle (k : Kernel) (c : Call) : (c.settle k).2.2.stepsLeft = 0 := by
  have h := stepsLeft_steps k c c.stepsLeft
  unfold settle
  omega

/-- The bound is zero exactly for a call that waits or has ended. -/
theorem stepsLeft_eq_zero_iff (c : Call) :
    c.stepsLeft = 0 ↔ c.request?.isSome ∨ c.ended?.isSome := by
  cases c with
  | launch l => cases l <;> simp [stepsLeft, launchSteps, request?, ended?]
  | join j => obtain ⟨_, _, _, s⟩ := j; cases s <;> simp [stepsLeft, joinSteps, request?, ended?]
  | terminate e =>
    obtain ⟨_, _, s⟩ := e; cases s <;> simp [stepsLeft, terminationSteps, request?, ended?]
  | halt h => cases h <;> simp [stepsLeft, request?, ended?]

end Call

end Lifecycle
