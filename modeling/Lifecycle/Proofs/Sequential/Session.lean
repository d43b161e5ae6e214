import Lifecycle.Surroundings
import Lifecycle.Proofs.Table.Departure
import Lifecycle.Proofs.Table.Undo

/-!
# Calls one after another

A `Session` is a kernel whose calls run one after another, each to its end (`Session.run`). The
loader and the scheduler answer as they like, and leave the kernel alone.

With no other operation in between, a call is one change of the table.

* `drive_ended`, `drive_loading`, `drive_spawning`: how a call goes on from its first request or
  its end.
* `Launches`: what a launch answers, and the kernel it leaves. `run_reserving` says that there is
  nothing else.
* `Session.serve`: carries out a `Command`, and `Session.boot`: launches the root process.
-/

namespace Lifecycle

namespace Surroundings

variable {W : Type} {s : Surroundings W} {w : W} {k : Kernel} {effects : List Effect} {c c' : Call}
  {order : Order} {pid : Pid} {image : LoadedImage}

theorem drive_ended (n : Nat) (h : c.settle (s.kernel w) = (k, effects, c'))
    (hc : c'.request? = none) :
    s.drive (n + 1) c w = (c'.ended?, s.applyAll (s.withKernel w k) effects) := by
  simp only [drive, settle, h, hc]

theorem drive_loading (n : Nat)
    (h : c.settle (s.kernel w) = (k, effects, .launch (.loading order pid))) :
    s.drive (n + 1) c w =
      let (answer, w) := s.load (s.applyAll (s.withKernel w k) effects) order.name
      let (effects, l) := (Launch.loading order pid).loaded answer
      s.drive n (.launch l) (s.applyAll w effects) := by
  simp only [drive, settle, h, Call.request?]
  rfl

theorem drive_spawning (n : Nat)
    (h : c.settle (s.kernel w) = (k, effects, .launch (.spawning order pid image))) :
    s.drive (n + 1) c w =
      let (answer, w) := s.spawn (s.applyAll (s.withKernel w k) effects) order.name
        (Launch.context order pid image)
      let (effects, l) := (Launch.spawning order pid image).spawned answer
      s.drive n (.launch l) (s.applyAll w effects) := by
  simp only [drive, settle, h, Call.request?]
  rfl

/-- Only the stages up to the first request matter. -/
theorem drive_congr {w' : W} (n : Nat) (h : c.settle (s.kernel w) = c'.settle (s.kernel w'))
    (hw : ∀ k, s.withKernel w k = s.withKernel w' k) :
    s.drive (n + 1) c w = s.drive (n + 1) c' w' := by
  simp only [drive, settle, h, hw]

/-- A join whose task is not woken. -/
theorem drive_sleeping {j : Join} {w' : W} (n : Nat)
    (h : c.settle (s.kernel w) = (k, effects, .join j)) (hj : j.stage = .sleeping)
    (hs : s.sleep (s.applyAll (s.withKernel w k) effects) = (false, w')) :
    s.drive (n + 1) c w = (none, w') := by
  obtain ⟨_, _, _, stage⟩ := j
  cases hj
  simp only [drive, settle, h, Call.request?, hs]

end Surroundings

/-- What the loader and the scheduler answer to a launch. -/
structure Answers where
  load : Except LoadError LoadedImage
  spawn : Except SpawnError Unit

/-- The answer that fails a launch, if there is one. -/
def Answers.failure? (a : Answers) : Option ProcessError :=
  match a.load with
  | .error e => some e.toProcessError
  | .ok _ =>
    match a.spawn with
    | .error e => some e.toProcessError
    | .ok () => none

/-- A kernel whose calls run one after another. -/
structure Session where
  kernel : Kernel
  /-- What the calls have done to the machine, in order. -/
  effects : List Effect

namespace Session

/-- The session before its first call. -/
def new (config : Config) (range : PidRange) : Session := ⟨.new config range, []⟩

/-- The surroundings of a call of `task` that is answered with `a`. Nobody wakes a sleeper. -/
def surroundings (task : TaskId) (a : Answers) : Surroundings Session where
  kernel w := w.kernel
  withKernel w k := { w with kernel := k }
  task _ := task
  apply w e := { w with effects := w.effects ++ [e] }
  load w _ := (a.load, w)
  spawn w _ _ := (a.spawn, w)
  sleep w := (false, w)

/-- Runs a call of `task` to its end. It makes at most two requests. -/
def run (task : TaskId) (a : Answers) (c : Call) (w : Session) : Option Ended × Session :=
  (surroundings task a).drive 3 c w

variable {w : Session} {task : TaskId} {a : Answers}

@[simp] theorem applyAll_surroundings (w : Session) (effects : List Effect) :
    (surroundings task a).applyAll w effects = { w with effects := w.effects ++ effects } := by
  induction effects generalizing w with
  | nil => simp [Surroundings.applyAll]
  | cons e es ih =>
    rw [Surroundings.applyAll, List.foldl_cons, ← Surroundings.applyAll, ih]
    simp [surroundings]

section drive

variable {k : Kernel} {effects : List Effect} {c c' : Call} {order : Order} {pid : Pid}
  {image : LoadedImage}

theorem drive_ended (n : Nat) (h : c.settle w.kernel = (k, effects, c')) (hc : c'.request? = none) :
    (surroundings task a).drive (n + 1) c w = (c'.ended?, ⟨k, w.effects ++ effects⟩) := by
  rw [Surroundings.drive_ended n h hc, applyAll_surroundings]
  rfl

theorem drive_loading (n : Nat)
    (h : c.settle w.kernel = (k, effects, .launch (.loading order pid))) :
    (surroundings task a).drive (n + 1) c w =
      (surroundings task a).drive n (.launch ((Launch.loading order pid).loaded a.load).2)
        ⟨k, w.effects ++ effects ++ ((Launch.loading order pid).loaded a.load).1⟩ := by
  rw [Surroundings.drive_loading n h]
  simp only [applyAll_surroundings]
  rfl

theorem drive_spawning (n : Nat)
    (h : c.settle w.kernel = (k, effects, .launch (.spawning order pid image))) :
    (surroundings task a).drive (n + 1) c w =
      (surroundings task a).drive n (.launch ((Launch.spawning order pid image).spawned a.spawn).2)
        ⟨k, w.effects ++ effects ++ ((Launch.spawning order pid image).spawned a.spawn).1⟩ := by
  rw [Surroundings.drive_spawning n h]
  simp only [applyAll_surroundings]
  rfl

end drive

/-! ## Launches -/

/-- The kernel after the launch of `order` was given up: another root process may be launched, if
it was to be one. -/
def abandoned (order : Order) (k : Kernel) : Kernel :=
  if order.parent.isNone then { k with booted := false } else k

@[simp] theorem table_abandoned (order : Order) (k : Kernel) :
    (abandoned order k).table = k.table := by
  unfold abandoned
  split <;> rfl

@[simp] theorem config_abandoned (order : Order) (k : Kernel) :
    (abandoned order k).config = k.config := by
  unfold abandoned
  split <;> rfl

/-- What the launch of `order` answers, and the kernel it leaves, if no other operation runs in
between. -/
inductive Launches (k : Kernel) (order : Order) (a : Answers) :
    Except ProcessError Pid → Kernel → Prop where
  | refused {e : ProcessError} :
      k.table.allocate order.parent order.name = (.refused e, k.table) →
      Launches k order a (.error e) (abandoned order k)
  | undone {pid : Pid} {pids : PidAllocator} {f : Record → Record} {e : ProcessError} :
      k.table.pids.alloc = some (pid, pids) →
      k.table.allocate order.parent order.name =
        (.ok pid, k.table.admitted pids (.new pid order.parent order.name)) →
      a.failure? = some e → Table.Inner f →
      Launches k order a (.error e) (abandoned order
        { k with table := k.table.undone pids (.new pid order.parent order.name) f })
  | created {pid : Pid} {pids : PidAllocator} {image : LoadedImage} :
      k.table.pids.alloc = some (pid, pids) →
      k.table.allocate order.parent order.name =
        (.ok pid, k.table.admitted pids (.new pid order.parent order.name)) →
      a.failure? = none →
      Launches k order a (.ok pid)
        { k with
          table := (k.table.admitted pids (.new pid order.parent order.name)).adjust pid
            fun r => { r with space := some image.space } }

section settle

variable {k : Kernel} {t : Table} {order : Order} {pid : Pid} {r : Record} {e : ProcessError}

theorem settle_refused (h : k.table.allocate order.parent order.name = (.refused e, k.table)) :
    (Call.launch (.reserving order)).settle k =
      (abandoned order k, [], .launch (.finished (.error e))) := by
  obtain ⟨parent, name, argc⟩ := order
  simp only [Call.settle, Call.stepsLeft, Call.launchSteps, Call.steps, Call.step, Launch.step, h]
  cases parent <;> rfl

theorem settle_reserved (h : k.table.allocate order.parent order.name = (.ok pid, t)) :
    (Call.launch (.reserving order)).settle k =
      ({ k with table := t }, [], .launch (.loading order pid)) := by
  simp only [Call.settle, Call.stepsLeft, Call.launchSteps, Call.steps, Call.step, Launch.step, h]
  rfl

theorem settle_storing (order : Order) (h : k.table.get? pid = some r) (image : LoadedImage) :
    (Call.launch (.storing order pid image)).settle k =
      ({ k with table := k.table.adjust pid fun r => { r with space := some image.space } },
        Effect.releaseOf r, .launch (.spawning order pid image)) := by
  simp only [Call.settle, Call.stepsLeft, Call.launchSteps, Call.steps, Call.step, Launch.step,
    Table.storeSpace, h, Option.map_some, List.append_nil]
  rfl

theorem settle_undoing (h : k.table.rollback pid = (.taken r, t)) (cause : ProcessError) :
    (Call.launch (.undoing order pid cause)).settle k =
      (abandoned order { k with table := t }, .note (.rolledBack r.pid) :: Effect.releaseOf r,
        .launch (.finished (.error cause))) := by
  obtain ⟨parent, name, argc⟩ := order
  simp only [Call.settle, Call.stepsLeft, Call.launchSteps, Call.steps, Call.step, Launch.step, h]
  cases parent <;> simp [Launch.abandon, abandoned]

end settle

theorem run_finished (result : Except ProcessError Pid) :
    w.run task a (.launch (.finished result)) =
      (some (.launched result), ⟨w.kernel, w.effects ++ []⟩) := drive_ended 2 rfl rfl

/-- A launch fails none of the kernel's checks. -/
theorem run_reserving (order : Order) (hs : w.kernel.table.Sound)
    (hroot : order.parent = none → ∀ pid pids, w.kernel.table.pids.alloc = some (pid, pids) →
      pid = Pid.root) :
    ∃ result, (w.run task a (.launch (.reserving order))).1 = some (.launched result) ∧
      Launches w.kernel order a result (w.run task a (.launch (.reserving order))).2.kernel := by
  rcases Table.allocate_eq hs.allotted order.parent order.name with
    ⟨e, he⟩ | ⟨pid, pids, ha, hp, hok⟩
  · rw [run, drive_ended 2 (settle_refused he) rfl]
    exact ⟨.error e, rfl, .refused he⟩
  have hload : w.run task a (.launch (.reserving order)) = _ :=
    drive_loading 2 (settle_reserved hok)
  rw [hload]
  cases hl : a.load with
  | error e =>
    have hf : a.failure? = some e.toProcessError := by rw [Answers.failure?, hl]
    have hu := Table.rollback_admitted order.name hs ha hp Table.inner_id rfl
    rw [Table.adjust_id] at hu
    refine ⟨.error e.toProcessError, ?_⟩
    rw [Launch.loaded, drive_ended 1 (settle_undoing (k := { w.kernel with table := _ }) hu _) rfl]
    exact ⟨rfl, .undone ha hok hf Table.inner_id⟩
  | ok image =>
    have hr := Table.get?_admitted_self order.name hs ha hp
    have hi := Table.inner_space (some image.space)
    have hst := settle_storing (k := { w.kernel with table := _ }) order hr image
    rw [Launch.loaded, drive_spawning 1 hst]
    cases hsp : a.spawn with
    | error e =>
      have hf : a.failure? = some e.toProcessError := by simp only [Answers.failure?, hl, hsp]
      have hu := Table.rollback_admitted order.name hs ha hp hi rfl
      refine ⟨.error e.toProcessError, ?_⟩
      rw [Launch.spawned,
        drive_ended 0 (settle_undoing (k := { w.kernel with table := _ }) hu _) rfl]
      exact ⟨rfl, .undone ha hok hf hi⟩
    | ok u =>
      have hf : a.failure? = none := by simp only [Answers.failure?, hl, hsp]
      have hn : ¬ (order.parent.isNone = true ∧ pid ≠ .root) := by
        simpa using fun hp => hroot hp pid pids ha
      simp only [Launch.spawned, if_neg hn]
      rw [drive_ended 0 rfl rfl]
      exact ⟨_, rfl, .created ha hok hf⟩

/-- The session after the right to create the root process was claimed. -/
def claimed (w : Session) : Session := { w with kernel := { w.kernel with booted := true } }

theorem settle_booting {k : Kernel} (name : String) (hb : k.booted = false) :
    (Call.launch (.booting name)).settle k =
      (Call.launch (.reserving ⟨none, name, 0⟩)).settle { k with booted := true } := by
  simp only [Call.settle, Call.stepsLeft, Call.launchSteps, Call.steps, Call.step, Launch.step, hb]
  rfl

theorem run_booting (name : String) (hb : w.kernel.booted = false) :
    w.run task a (.launch (.booting name)) =
      w.claimed.run task a (.launch (.reserving ⟨none, name, 0⟩)) :=
  Surroundings.drive_congr 2 (settle_booting name hb) fun _ => rfl

/-! ## Joins and terminations -/

section settle

variable {k : Kernel} {t : Table} {caller child pid : Pid} {status : ExitStatus}

theorem settle_notChild (h : k.table.checkJoin caller child task = (.notChild, t)) :
    (Call.join (.new caller child task)).settle k =
      ({ k with table := t }, [.note (.notChild child caller)],
        .join ⟨caller, child, task, .finished (.error .invalidJoin)⟩) := by
  simp only [Call.settle, Call.stepsLeft, Join.new, Call.joinSteps, Call.steps, Call.step,
    Join.step, h]
  rfl

theorem settle_busy (h : k.table.checkJoin caller child task = (.busy, t)) :
    (Call.join (.new caller child task)).settle k =
      ({ k with table := t }, [],
        .join ⟨caller, child, task, .finished (.error .invalidJoin)⟩) := by
  simp only [Call.settle, Call.stepsLeft, Join.new, Call.joinSteps, Call.steps, Call.step,
    Join.step, h]
  rfl

theorem settle_waiting (h : k.table.checkJoin caller child task = (.waiting, t)) :
    (Call.join (.new caller child task)).settle k =
      ({ k with table := t }, [.note (.waits caller task child)],
        .join ⟨caller, child, task, .sleeping⟩) := by
  simp only [Call.settle, Call.stepsLeft, Join.new, Call.joinSteps, Call.steps, Call.step,
    Join.step, h]
  rfl

theorem settle_collected {r : Option Record}
    (h : k.table.checkJoin caller child task = (.collected status r, t)) :
    (Call.join (.new caller child task)).settle k =
      ({ k with table := t },
        r.toList.flatMap Effect.releaseOf ++ [.note (.collected caller child status)],
        .join ⟨caller, child, task, .finished (.ok status)⟩) := by
  simp only [Call.settle, Call.stepsLeft, Join.new, Call.joinSteps, Call.steps, Call.step,
    Join.step, h, Join.goTo, List.nil_append, List.append_nil]

theorem settle_notRunning (h : k.table.depart pid status = (.notRunning, t)) :
    (Call.terminate ⟨pid, status, .departing⟩).settle k =
      ({ k with table := t }, [], .terminate ⟨pid, status, .finished (.error .notFound)⟩) := by
  simp only [Call.settle, Call.stepsLeft, Call.terminationSteps, Call.steps, Call.step,
    Termination.step, h]
  rfl

theorem settle_departed {d : Table.Departure} (h : k.table.depart pid status = (.departed d, t)) :
    (Call.terminate ⟨pid, status, .departing⟩).settle k =
      ({ k with table := t },
        Effect.releaseAll d.spaces ++ (d.waiter.toList.map Effect.wake ++
          .note (.exited pid status) :: Termination.idleEffects k.config d.idle),
        .terminate ⟨pid, status, .finished (.ok ())⟩) := by
  simp only [Call.settle, Call.stepsLeft, Call.terminationSteps, Call.steps, Call.step,
    Termination.step, h, Termination.goTo, List.nil_append, List.append_nil]

end settle

/-! ## Commands -/

/-- What a command asks for. -/
inductive Demand where
  | exec (caller : Pid) (name : String) (argc : Int32)
  | join (caller child : Pid)
  | exit (pid : Pid) (code : Int32)
  /-- The end of a process after an exception. -/
  | kill (pid : Pid)
deriving DecidableEq, Inhabited

/-- The process whose end is asked for, and the exit status it is to have. -/
def Demand.end? : Demand → Option (Pid × ExitStatus)
  | exit pid code => some (pid, .code code)
  | kill pid => some (pid, .abnormal)
  | _ => none

/-- A command to a session. -/
structure Command where
  demand : Demand
  /-- The task that gives it. -/
  task : TaskId
  /-- How the machine answers, if it is asked. -/
  answers : Answers

/-- The call of a command. -/
def Command.call (k : Kernel) (c : Command) : Call :=
  match c.demand with
  | .exec caller name argc => .exec k caller name argc
  | .join caller child => .join (.new caller child c.task)
  | .exit pid code => .terminate (.exit pid code)
  | .kill pid => .terminate (.kill pid)

/-- Carries out a command: how its call ended, and the session after it. -/
def serve (c : Command) (w : Session) : Option Ended × Session :=
  w.run c.task c.answers (c.call w.kernel)

/-- The launch of the root process, in a new session. -/
def boot (config : Config) (range : PidRange) (name : String) (task : TaskId) (a : Answers) :
    Option Ended × Session :=
  (new config range).run task a (.boot (.new config range) name)

end Session

end Lifecycle
