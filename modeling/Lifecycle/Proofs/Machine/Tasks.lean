import Lifecycle.Machine.Run
import Mathlib.Algebra.GroupWithZero.Nat
import Mathlib.Data.List.Nodup

/-!
# The tasks of a machine

A task is known by its serial number. What a task does, and for which process, is its post
(`Machine.post?`); the wakeups it was given are no part of that. A call of the kernel that is under
way belongs to an actor (`Machine.errand?`).

* `Machine.claims`: the places that were claimed for tasks still to be created.
* `Machine.turned`: the machine after a turn of the call of an actor.
-/

namespace Lifecycle

/-- The call that the host has under way. -/
def Host.errand? : Host → Option Errand
  | booting e => some e
  | _ => none

/-- The call that a task has under way. -/
def Activity.errand? : Activity → Option Errand
  | inKernel e => some e
  | _ => none

/-- The effect stops the machine. -/
def Effect.halts : Effect → Bool
  | halt => true
  | _ => false

/-- The pages that the effects give back. -/
def Effect.pagesReleased (effects : List Effect) : Nat :=
  (effects.map fun e => match e with | release space => space.pages | _ => 0).sum

namespace Machine

/-- The process of a task, and what the task does. -/
def post? (m : Machine) (serial : Nat) : Option (Pid × Activity) :=
  (m.task? serial).map fun t => (t.pid, t.activity)

/-- The call of the kernel that an actor has under way. -/
def errand? (m : Machine) : Actor → Option Errand
  | .host => m.host.errand?
  | .task serial => (m.post? serial).bind (·.2.errand?)

/-- The machine with the errand of an actor at another stage. -/
def withErrand (m : Machine) (e : Errand) : Actor → Machine
  | .host => { m with host := .booting e }
  | .task serial => m.proceed serial (.inKernel e)

/-- The machine after a program has written a line, or changed a semaphore. -/
def withOutput (m : Machine) (written : List String) (semaphores : List (String × Nat)) :
    Machine :=
  { m with written := written, semaphores := semaphores }

/-- The machine with the wakeup of a task given or used. -/
def withPermit (m : Machine) (serial : Nat) (permit : Bool) : Machine :=
  m.adjustTask serial fun t => { t with permit := permit }

/-- The machine with another state of the loader. -/
def withLoader (m : Machine) (loader : Loader) : Machine := { m with loader := loader }

/-- The machine with another count of live tasks. -/
def withLive (m : Machine) (live : Nat) : Machine := { m with live := live }

/-- The machine with a task number given out. -/
def numbered (m : Machine) : Machine := { m with nextTask := m.nextTask + 1 }

/-- The machine whose boot has ended. -/
def reported (m : Machine) (ended : Ended) : Machine := { m with host := .booted ended }

/-- The machine after a turn of the call of an actor, which leaves the kernel `k`. -/
def turned (m : Machine) (a : Actor) (k : Kernel) (effects : List Effect) (e : Errand) : Machine :=
  (({ m with kernel := k }).applyAll effects).withErrand e a

/-- The places that are claimed for tasks still to be created. -/
def claims (m : Machine) : Nat := m.actors.countP fun a => (m.errand? a).any (·.claimed)

variable {m : Machine} {t : Task} {serial s : Nat} {a b : Actor} {e : Errand} {act : Activity}
  {k : Kernel} {effects : List Effect}

/-! ## Single tasks -/

theorem task?_adjustTask {f : Task → Task} (hf : ∀ t, (f t).serial = t.serial) :
    (m.adjustTask serial f).task? s =
      if s = serial then (m.task? s).map f else m.task? s := by
  have hp : (fun t : Task => decide ((if t.serial = serial then f t else t).serial = s)) =
      fun t => decide (t.serial = s) := by
    funext t
    split
    · rw [hf]
    · rfl
  simp only [task?, adjustTask, List.find?_map, Function.comp_def, hp]
  cases h : m.tasks.find? (fun t => decide (t.serial = s)) with
  | none => simp
  | some t =>
    have ht : t.serial = s := by simpa using List.find?_some h
    by_cases hs : s = serial
    · simp [ht, hs]
    · simp [ht, hs]

theorem serial_of_task? (h : m.task? serial = some t) : t.serial = serial := by
  simpa using List.find?_some h

theorem post?_of_task? (h : m.task? serial = some t) :
    m.post? serial = some (t.pid, t.activity) := by
  simp [post?, h]

theorem post?_adjustTask {f : Task → Task} {g : Pid × Activity → Pid × Activity}
    (hf : ∀ t, (f t).serial = t.serial)
    (hg : ∀ t, ((f t).pid, (f t).activity) = g (t.pid, t.activity)) :
    (m.adjustTask serial f).post? s = if s = serial then (m.post? s).map g else m.post? s := by
  simp only [post?, task?_adjustTask hf]
  split
  · simp only [Option.map_map]
    exact Option.map_congr fun t _ => hg t
  · rfl

@[simp] theorem post?_proceed : (m.proceed serial act).post? s =
    if s = serial then (m.post? s).map fun p => (p.1, act) else m.post? s :=
  post?_adjustTask (fun _ => rfl) fun _ => rfl

@[simp] theorem post?_withPermit {permit : Bool} :
    (m.withPermit serial permit).post? = m.post? := by
  funext s
  have h : (m.withPermit serial permit).post? s =
      if s = serial then (m.post? s).map id else m.post? s :=
    post?_adjustTask (fun _ => rfl) fun _ => rfl
  simp [h]

@[simp] theorem actors_adjustTask {f : Task → Task} (hf : ∀ t, (f t).serial = t.serial) :
    (m.adjustTask serial f).actors = m.actors := by
  simp only [actors, adjustTask, List.map_map, List.cons.injEq, true_and]
  refine List.map_congr_left fun t _ => ?_
  show Actor.task (if t.serial = serial then f t else t).serial = _
  split
  · rw [hf]
  · rfl

@[simp] theorem length_adjustTask {f : Task → Task} :
    (m.adjustTask serial f).tasks.length = m.tasks.length := by
  simp [adjustTask]

theorem mem_actors : Actor.task serial ∈ m.actors ↔ (m.post? serial).isSome = true := by
  simp only [actors, List.mem_cons, reduceCtorEq, List.mem_map, Actor.task.injEq, false_or, post?,
    Option.isSome_map, task?, List.find?_isSome, decide_eq_true_eq]

/-! ## Effects -/

section applyAll

/-- What no effect changes stays through all of them. -/
theorem applyAll_same {α : Sort*} (f : Machine → α) (h : ∀ m e, f (apply m e) = f m) (m : Machine)
    (effects : List Effect) : f (m.applyAll effects) = f m := by
  induction effects generalizing m with
  | nil => rfl
  | cons e rest ih => exact (ih (m.apply e)).trans (h m e)

/-- What no wakeup changes no effect changes, but for the pages and the halt. -/
theorem apply_same {α : Sort*} (f : Machine → α) (hr : ∀ m l, f { m with loader := l } = f m)
    (hw : ∀ m s, f (permit m s) = f m) (hh : ∀ m b, f { m with halted := b } = f m) (m : Machine)
    (e : Effect) : f (m.apply e) = f m := by
  cases e with
  | note n => rfl
  | release space => exact hr _ _
  | wake task =>
    show f ((m.threads.lookup task).elim m m.permit) = _
    cases m.threads.lookup task with
    | none => rfl
    | some serial => exact hw _ _
  | halt => exact hh _ _

@[simp] theorem kernel_applyAll : (m.applyAll effects).kernel = m.kernel :=
  applyAll_same _ (apply_same _ (fun _ _ => rfl) (fun _ _ => rfl) fun _ _ => rfl) ..

@[simp] theorem host_applyAll : (m.applyAll effects).host = m.host :=
  applyAll_same _ (apply_same _ (fun _ _ => rfl) (fun _ _ => rfl) fun _ _ => rfl) ..

@[simp] theorem live_applyAll : (m.applyAll effects).live = m.live :=
  applyAll_same _ (apply_same _ (fun _ _ => rfl) (fun _ _ => rfl) fun _ _ => rfl) ..

@[simp] theorem maxTasks_applyAll : (m.applyAll effects).maxTasks = m.maxTasks :=
  applyAll_same _ (apply_same _ (fun _ _ => rfl) (fun _ _ => rfl) fun _ _ => rfl) ..

@[simp] theorem nextTask_applyAll : (m.applyAll effects).nextTask = m.nextTask :=
  applyAll_same _ (apply_same _ (fun _ _ => rfl) (fun _ _ => rfl) fun _ _ => rfl) ..

@[simp] theorem length_applyAll : (m.applyAll effects).tasks.length = m.tasks.length :=
  applyAll_same (·.tasks.length)
    (apply_same (·.tasks.length) (fun _ _ => rfl) (fun _ _ => length_adjustTask) fun _ _ => rfl) ..

@[simp] theorem actors_applyAll : (m.applyAll effects).actors = m.actors :=
  applyAll_same _
    (apply_same _ (fun _ _ => rfl) (fun _ _ => actors_adjustTask fun _ => rfl) fun _ _ => rfl) ..

@[simp] theorem post?_applyAll : (m.applyAll effects).post? = m.post? :=
  applyAll_same _
    (apply_same _ (fun _ _ => rfl) (fun _ _ => post?_withPermit) fun _ _ => rfl) ..

@[simp] theorem registry_applyAll : (m.applyAll effects).loader.registry = m.loader.registry := by
  refine applyAll_same (·.loader.registry) (fun m e => ?_) ..
  cases e with
  | wake task => simp only [apply]; cases m.threads.lookup task <;> rfl
  | _ => rfl

@[simp] theorem total_applyAll : (m.applyAll effects).loader.pool.total = m.loader.pool.total := by
  refine applyAll_same (·.loader.pool.total) (fun m e => ?_) ..
  cases e with
  | wake task => simp only [apply]; cases m.threads.lookup task <;> rfl
  | _ => rfl

theorem used_applyAll : (m.applyAll effects).loader.pool.used =
    m.loader.pool.used - Effect.pagesReleased effects := by
  induction effects generalizing m with
  | nil => rfl
  | cons e rest ih =>
    refine (ih (m := m.apply e)).trans ?_
    cases e with
    | note n => simp [apply, Effect.pagesReleased]
    | release space =>
      simp only [apply, Loader.drop, PagePool.release, Effect.pagesReleased, List.map_cons,
        List.sum_cons]
      omega
    | wake task =>
      simp only [apply, Effect.pagesReleased, List.map_cons, List.sum_cons, Nat.zero_add]
      cases m.threads.lookup task <;> rfl
    | halt => simp [apply, Effect.pagesReleased]

theorem halted_applyAll : (m.applyAll effects).halted = (m.halted || effects.any Effect.halts) := by
  induction effects generalizing m with
  | nil => simp [applyAll]
  | cons e rest ih =>
    refine (ih (m := m.apply e)).trans ?_
    cases e with
    | wake task =>
      simp only [apply, List.any_cons, Effect.halts, Bool.false_or]
      cases m.threads.lookup task <;> rfl
    | _ => simp [apply, Effect.halts]

end applyAll

/-! ## A turn of a call -/

section turned

@[simp] theorem kernel_withErrand : (m.withErrand e a).kernel = m.kernel := by cases a <;> rfl

@[simp] theorem loader_withErrand : (m.withErrand e a).loader = m.loader := by cases a <;> rfl

@[simp] theorem live_withErrand : (m.withErrand e a).live = m.live := by cases a <;> rfl

@[simp] theorem maxTasks_withErrand : (m.withErrand e a).maxTasks = m.maxTasks := by cases a <;> rfl

@[simp] theorem nextTask_withErrand : (m.withErrand e a).nextTask = m.nextTask := by cases a <;> rfl

@[simp] theorem halted_withErrand : (m.withErrand e a).halted = m.halted := by cases a <;> rfl

@[simp] theorem length_withErrand : (m.withErrand e a).tasks.length = m.tasks.length := by
  cases a
  · rfl
  · exact length_adjustTask

@[simp] theorem actors_withErrand : (m.withErrand e a).actors = m.actors := by
  cases a
  · rfl
  · exact actors_adjustTask fun _ => rfl

theorem post?_withErrand : (m.withErrand e a).post? s =
    if a = .task s then (m.post? s).map fun p => (p.1, .inKernel e) else m.post? s := by
  cases a with
  | host => rfl
  | task serial =>
    refine post?_proceed.trans ?_
    simp [eq_comm]

theorem errand?_withErrand (h : (m.errand? a).isSome = true) :
    (m.withErrand e a).errand? b = if b = a then some e else m.errand? b := by
  cases b with
  | host =>
    cases a with
    | host => rfl
    | task serial => rfl
  | task s =>
    simp only [errand?, post?_withErrand]
    by_cases hs : a = .task s
    · subst hs
      cases hp : m.post? s with
      | none => simp [errand?, hp] at h
      | some p => simp [Activity.errand?]
    · simp [hs, Ne.symm hs]

/-- Only the posts and the host tell which calls are under way. -/
theorem errand?_congr {m' : Machine} (hp : m'.post? = m.post?) (hh : m'.host = m.host) :
    m'.errand? = m.errand? := by
  funext a
  cases a with
  | host => simp [errand?, hh]
  | task serial => simp [errand?, hp]

/-- Only the calls under way tell which places are claimed. -/
theorem claims_congr {m' : Machine} (hact : m'.actors = m.actors) (h : m'.errand? = m.errand?) :
    m'.claims = m.claims := by
  rw [claims, claims, hact, h]

theorem errand?_proceed (h : (m.post? serial).isSome = true) :
    (m.proceed serial act).errand? b = if b = .task serial then act.errand? else m.errand? b := by
  cases b with
  | host => rfl
  | task s =>
    simp only [errand?, post?_proceed, Actor.task.injEq]
    by_cases hs : s = serial
    · subst hs
      cases hp : m.post? s with
      | none => simp [hp] at h
      | some p => simp
    · simp [hs]

theorem post?_turned : (m.turned a k effects e).post? s =
    if a = .task s then (m.post? s).map fun p => (p.1, .inKernel e) else m.post? s := by
  rw [turned, post?_withErrand, post?_applyAll]
  rfl

theorem errand?_turned (h : (m.errand? a).isSome = true) :
    (m.turned a k effects e).errand? b = if b = a then some e else m.errand? b := by
  have hsame : (({ m with kernel := k }).applyAll effects).errand? = m.errand? :=
    errand?_congr (by rw [post?_applyAll]; rfl) (by simp)
  rw [turned, errand?_withErrand (by rw [hsame]; exact h), hsame]

@[simp] theorem kernel_turned : (m.turned a k effects e).kernel = k := by simp [turned]

theorem host_turned : (m.turned (.task serial) k effects e).host = m.host :=
  host_applyAll

@[simp] theorem live_turned : (m.turned a k effects e).live = m.live := by simp [turned]

@[simp] theorem maxTasks_turned : (m.turned a k effects e).maxTasks = m.maxTasks := by simp [turned]

@[simp] theorem nextTask_turned : (m.turned a k effects e).nextTask = m.nextTask := by simp [turned]

@[simp] theorem registry_turned :
    (m.turned a k effects e).loader.registry = m.loader.registry := by simp [turned]

@[simp] theorem total_turned :
    (m.turned a k effects e).loader.pool.total = m.loader.pool.total := by simp [turned]

@[simp] theorem length_turned : (m.turned a k effects e).tasks.length = m.tasks.length := by
  simp [turned]

@[simp] theorem actors_turned : (m.turned a k effects e).actors = m.actors := by
  simp only [turned, actors_withErrand, actors_applyAll]
  rfl

theorem used_turned : (m.turned a k effects e).loader.pool.used =
    m.loader.pool.used - Effect.pagesReleased effects := by
  simp [turned, used_applyAll]

theorem halted_turned :
    (m.turned a k effects e).halted = (m.halted || effects.any Effect.halts) := by
  simp [turned, halted_applyAll]

end turned

section parts

variable {loader : Loader} {live : Nat} {permit : Bool}

@[simp] theorem actors_withPermit : (m.withPermit serial permit).actors = m.actors :=
  actors_adjustTask fun _ => rfl

@[simp] theorem length_withPermit : (m.withPermit serial permit).tasks.length = m.tasks.length :=
  length_adjustTask

@[simp] theorem errand?_withPermit : (m.withPermit serial permit).errand? = m.errand? :=
  errand?_congr post?_withPermit rfl

@[simp] theorem claims_withPermit : (m.withPermit serial permit).claims = m.claims :=
  claims_congr actors_withPermit errand?_withPermit

@[simp] theorem errand?_withOutput {written : List String} {semaphores : List (String × Nat)} :
    (m.withOutput written semaphores).errand? = m.errand? := errand?_congr rfl rfl

@[simp] theorem claims_withOutput {written : List String} {semaphores : List (String × Nat)} :
    (m.withOutput written semaphores).claims = m.claims :=
  claims_congr rfl errand?_withOutput

theorem errand?_reported {ended : Ended} :
    (m.reported ended).errand? b = if b = .host then none else m.errand? b := by
  cases b <;> rfl

@[simp] theorem errand?_withLoader : (m.withLoader loader).errand? = m.errand? :=
  errand?_congr rfl rfl

@[simp] theorem claims_withLoader : (m.withLoader loader).claims = m.claims :=
  claims_congr rfl errand?_withLoader

@[simp] theorem post?_withLive : (m.withLive live).post? = m.post? := rfl

@[simp] theorem errand?_withLive : (m.withLive live).errand? = m.errand? := errand?_congr rfl rfl

@[simp] theorem claims_withLive : (m.withLive live).claims = m.claims :=
  claims_congr rfl errand?_withLive

@[simp] theorem post?_numbered : m.numbered.post? = m.post? := rfl

@[simp] theorem errand?_numbered : m.numbered.errand? = m.errand? := errand?_congr rfl rfl

@[simp] theorem claims_numbered : m.numbered.claims = m.claims :=
  claims_congr rfl errand?_numbered

@[simp] theorem actors_numbered : m.numbered.actors = m.actors := rfl

end parts

/-! ## New tasks, and finished ones -/

theorem post?_enroll (h : m.post? t.serial = none) : (m.enroll t).post? s =
    if s = t.serial then some (t.pid, t.activity) else m.post? s := by
  simp only [post?, task?, enroll, List.find?_append, List.find?_singleton, decide_eq_true_eq,
    Option.map_eq_none_iff] at h ⊢
  by_cases hs : s = t.serial
  · subst hs
    simp [h]
  · simp [hs, Ne.symm hs]

theorem errand?_enroll (h : m.post? t.serial = none) (ht : t.activity.errand? = none) :
    (m.enroll t).errand? = m.errand? := by
  funext a
  cases a with
  | host => rfl
  | task s =>
    simp only [errand?, post?_enroll h]
    by_cases hs : s = t.serial
    · simp [hs, h, ht]
    · simp [hs]

@[simp] theorem actors_enroll : (m.enroll t).actors = m.actors ++ [.task t.serial] := by
  simp [actors, enroll]

@[simp] theorem length_enroll : (m.enroll t).tasks.length = m.tasks.length + 1 := by
  simp [enroll]

theorem post?_finish : (m.finish t).post? s = if s = t.serial then none else m.post? s := by
  by_cases hs : s = t.serial
  · simp [post?, task?, finish, List.find?_filter, hs]
  · have hp (u : Task) : (u.serial ≠ t.serial ∧ u.serial = s) ↔ u.serial = s :=
      ⟨And.right, fun hu => ⟨fun ht => hs (hu.symm.trans ht), hu⟩⟩
    simp [post?, task?, finish, List.find?_filter, hs, hp]

theorem errand?_finish (h : m.task? t.serial = some t) (ht : t.activity.errand? = none) :
    (m.finish t).errand? = m.errand? := by
  funext a
  cases a with
  | host => rfl
  | task s =>
    simp only [errand?, post?_finish]
    by_cases hs : s = t.serial
    · simp [hs, post?_of_task? h, ht]
    · simp [hs]

theorem actors_finish (hn : m.actors.Nodup) :
    (m.finish t).actors = m.actors.erase (.task t.serial) := by
  have hp (u : Task) : (Actor.task u.serial == .task t.serial) = decide (u.serial = t.serial) := by
    simp [beq_eq_decide]
  rw [hn.erase_eq_filter]
  simp [actors, finish, List.filter_map, Function.comp_def, bne, hp]

end Machine

end Lifecycle
