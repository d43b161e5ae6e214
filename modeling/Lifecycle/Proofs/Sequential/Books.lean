import Lifecycle.Proofs.Sequential.Refinement
import Lifecycle.Proofs.Table.Spaces
import Lifecycle.Proofs.Traffic.Turns

/-!
# A machine that keeps books

`Books` are a kernel whose calls run one after another, and an account of what they have done to
the machine: the pages the loader has built and that were not given back, the tasks that were
woken, and how often the machine was halted. A join that has to wait is left there: its task
sleeps, and goes on with the same call.

* `Books.invoke`, `Books.invokeAll`: one call of an entry point, and several.
* `Books.Reached`: the states they lead to.
* `Books.Standing`: the invariant. The pages are those that the records hold.
* `Books.Done`: what a call does. `Standing.done` says that there is nothing else, and
  `Reached.standing` that the invariant holds at all times.
-/

namespace Lifecycle

/-- The error a call has ended with, if it has. -/
def Ended.error? : Ended → Option ProcessError
  | launched (.error e) => some e
  | joined _ (.error e) => some e
  | terminated _ (.error e) => some e
  | halted (.error e) => some e
  | _ => none

/-- The pages of the address space that the loader builds. -/
def Answers.loadedPages (a : Answers) : Nat :=
  match a.load with
  | .ok image => image.space.pages
  | .error _ => 0

/-- A kernel, and the account of its calls (module doc). -/
structure Books where
  kernel : Kernel
  /-- The pages the loader has built and that were not given back. -/
  pages : Nat
  /-- The tasks that were woken, in order. -/
  woken : List TaskId
  /-- How often the machine was halted. -/
  halts : Nat

namespace Books

/-- The books before the first call. -/
def new (config : Config) (range : PidRange) : Books := ⟨.new config range, 0, [], 0⟩

/-- Enters an effect. -/
def apply (w : Books) : Effect → Books
  | .note _ => w
  | .release space => { w with pages := w.pages - space.pages }
  | .wake task => { w with woken := w.woken ++ [task] }
  | .halt => { w with halts := w.halts + 1 }

/-- The books with another table. -/
def withTable (w : Books) (t : Table) : Books := { w with kernel := { w.kernel with table := t } }

/-- The loader and the scheduler answer with `a`. Nobody wakes a sleeper. A call names its task
itself. -/
def surroundings (a : Answers) : Surroundings Books where
  kernel w := w.kernel
  withKernel w k := { w with kernel := k }
  task _ := default
  apply := apply
  load w _ := (a.load, { w with pages := w.pages + a.loadedPages })
  spawn w _ _ := (a.spawn, w)
  sleep w := (false, w)

/-- Runs a call until it has ended or sleeps. It makes at most two requests. -/
def run (a : Answers) (c : Call) (w : Books) : Option Ended × Books :=
  (surroundings a).drive 3 c w

section invoke

variable {μ : Type} [UserMemory μ]

/-- One call of an entry point: how it ended, if it has, and the books after it. -/
def invoke (a : Answers) (i : Invocation μ) (w : Books) : Option Ended × Books :=
  let (effects, entry) := i.entry w.kernel
  match entry with
  | .answered _ => (none, (surroundings a).applyAll w effects)
  | .started c => run a c ((surroundings a).applyAll w effects)

/-- Calls of entry points, one after another: how each of them ended, and the books after the last
one. -/
def invokeAll (a : Answers) : List (Invocation μ) → Books → List (Option Ended) × Books
  | [], w => ([], w)
  | i :: rest, w =>
    let (ended?, w) := w.invoke a i
    let (more, w) := invokeAll a rest w
    (ended? :: more, w)

/-- The states that calls of the entry points lead to. -/
inductive Reached (μ : Type) [UserMemory μ] (config : Config) (range : PidRange) : Books → Prop
    where
  | start : Reached μ config range (new config range)
  | invoke {w : Books} (i : Invocation μ) (a : Answers) : Reached μ config range w →
      Reached μ config range (w.invoke a i).2

theorem Reached.invokeAll {config : Config} {range : PidRange} {w : Books}
    (h : Reached μ config range w) (a : Answers) (calls : List (Invocation μ)) :
    Reached μ config range (w.invokeAll a calls).2 := by
  induction calls generalizing w with
  | nil => exact h
  | cons i rest ih => exact ih (.invoke i a h)

end invoke

variable {config : Config} {range : PidRange} {w : Books} {a : Answers} {k : Kernel}

/-! ## Effects -/

theorem applyAll_append (w : Books) (effects more : List Effect) :
    (surroundings a).applyAll w (effects ++ more) =
      (surroundings a).applyAll ((surroundings a).applyAll w effects) more :=
  List.foldl_append

theorem applyAll_entry {μ : Type} [UserMemory μ] (i : Invocation μ) (k : Kernel) (w : Books) :
    (surroundings a).applyAll w (i.entry k).1 = w := by
  cases i with
  | trap caller task registers memory =>
    simp only [Invocation.entry, Kernel.enter]
    split <;> rfl
  | _ => rfl

theorem applyAll_releaseOf (w : Books) (r : Record) :
    (surroundings a).applyAll w (Effect.releaseOf r) =
      { w with pages := w.pages - r.residentPages } := by
  unfold Effect.releaseOf Effect.releaseAll Record.residentPages
  cases r.space <;> rfl

theorem applyAll_wakes (w : Books) (waiter : Option TaskId) :
    (surroundings a).applyAll w (waiter.toList.map Effect.wake) =
      { w with woken := w.woken ++ waiter.toList } := by
  cases waiter with
  | none => simp [Surroundings.applyAll]
  | some task => rfl

theorem applyAll_closing (w : Books) (n : Notice) (p : Prop) [Decidable p] :
    (surroundings a).applyAll w (.note n :: Termination.idleEffects config p) =
      if p ∧ config.haltWhenIdle then { w with halts := w.halts + 1 } else w := by
  unfold Termination.idleEffects
  by_cases hp : p <;> cases config.haltWhenIdle <;> simp [hp] <;> rfl

/-! ## Launches -/

open Session (abandoned)

/-- What the launch of `order` does once it may reserve a record. -/
inductive Launches (w : Books) (order : Order) : Option Ended × Books → Prop where
  | refused {e : ProcessError} : Launches w order
      (some (.launched (.error e)), { w with kernel := abandoned order w.kernel })
  | undone {pid : Pid} {pids : PidAllocator} {f : Record → Record} {e : ProcessError} :
      w.kernel.table.pids.alloc = some (pid, pids) →
      (∀ p, order.parent = some p →
        ∃ r, w.kernel.table.get? p = some r ∧ r.state = .running) → Table.Inner f →
      Launches w order (some (.launched (.error e)),
        { w with
          kernel := abandoned order
            { w.kernel with
              table := w.kernel.table.undone pids (.new pid order.parent order.name) f } })
  | created {pid : Pid} {pids : PidAllocator} {image : LoadedImage} :
      w.kernel.table.pids.alloc = some (pid, pids) →
      (∀ p, order.parent = some p →
        ∃ r, w.kernel.table.get? p = some r ∧ r.state = .running) →
      Launches w order (some (.launched (.ok pid)),
        { w with
          kernel :=
            { w.kernel with
              table := (w.kernel.table.admitted pids (.new pid order.parent order.name)).adjust
                pid fun r => { r with space := some image.space } }
          pages := w.pages + image.space.pages })

section drive

variable {c : Call} {order : Order} {pid : Pid} {image : LoadedImage}

theorem drive_loading (n : Nat) (h : c.settle w.kernel = (k, [], .launch (.loading order pid))) :
    (surroundings a).drive (n + 1) c w =
      (surroundings a).drive n (.launch ((Launch.loading order pid).loaded a.load).2)
        { w with kernel := k, pages := w.pages + a.loadedPages } := by
  rw [Surroundings.drive_loading n h]
  cases hl : a.load <;> simp only [surroundings, hl] <;> rfl

theorem drive_spawning (n : Nat)
    (h : c.settle w.kernel = (k, [], .launch (.spawning order pid image))) :
    (surroundings a).drive (n + 1) c w =
      (surroundings a).drive n (.launch ((Launch.spawning order pid image).spawned a.spawn).2)
        { w with kernel := k } := by
  rw [Surroundings.drive_spawning n h]
  cases hs : a.spawn <;> simp only [surroundings, hs] <;> rfl

theorem drive_undoing {t : Table} {r : Record} (n : Nat) (cause : ProcessError)
    (h : w.kernel.table.rollback pid = (.taken r, t)) :
    (surroundings a).drive (n + 1) (.launch (.undoing order pid cause)) w =
      (some (.launched (.error cause)),
        { w with
          kernel := abandoned order { w.kernel with table := t }
          pages := w.pages - r.residentPages }) := by
  rw [Surroundings.drive_ended (s := surroundings a) n (Session.settle_undoing h cause) rfl]
  exact congrArg _ (applyAll_releaseOf ..)

end drive

/-- The pages of an image that was loaded for nothing are given back. -/
theorem run_reserving (order : Order) (hs : w.kernel.table.Sound)
    (hroot : order.parent = none → ∀ pid pids, w.kernel.table.pids.alloc = some (pid, pids) →
      pid = Pid.root) :
    Launches w order (w.run a (.launch (.reserving order))) := by
  rcases Table.allocate_eq hs.allotted order.parent order.name with
    ⟨e, he⟩ | ⟨pid, pids, ha, hp, hok⟩
  · rw [run, Surroundings.drive_ended 2 (Session.settle_refused he) rfl]
    exact .refused
  rw [run, drive_loading 2 (Session.settle_reserved hok)]
  cases hl : a.load with
  | error e =>
    have hu := Table.rollback_admitted order.name hs ha hp Table.inner_id rfl
    rw [Table.adjust_id] at hu
    rw [Launch.loaded, drive_undoing 1 e.toProcessError hu, Answers.loadedPages, hl]
    exact .undone ha hp Table.inner_id
  | ok image =>
    have hr := Table.get?_admitted_self order.name hs ha hp
    have hi := Table.inner_space (some image.space)
    have hst := Session.settle_storing (k := { w.kernel with table := _ }) order hr image
    rw [Launch.loaded, drive_spawning 1 hst, Answers.loadedPages, hl]
    cases hsp : a.spawn with
    | error e =>
      have hu := Table.rollback_admitted order.name hs ha hp hi rfl
      rw [Launch.spawned, drive_undoing 0 e.toProcessError hu]
      simp only [Record.residentPages, Option.map_some, Option.getD_some, Nat.add_sub_cancel]
      exact .undone ha hp hi
    | ok u =>
      have hn : ¬ (order.parent.isNone = true ∧ pid ≠ .root) := by
        simpa using fun hp => hroot hp pid pids ha
      simp only [Launch.spawned, if_neg hn]
      rw [Surroundings.drive_ended 0 rfl rfl]
      exact .created ha hp

/-! ## Calls -/

/-- The books after the end of a process that had the record `r`, which left the table `t`. -/
def departed (w : Books) (r : Record) (t : Table) : Books where
  kernel := { w.kernel with table := t }
  pages := w.pages - r.residentPages
  woken := w.woken ++ r.waiter.toList
  halts := if t.running = 0 ∧ w.kernel.config.haltWhenIdle then w.halts + 1 else w.halts

/-- What a call does, from its start until it has ended or sleeps. -/
inductive Done (w : Books) : Option Ended × Books → Prop where
  | failed {ended : Ended} {e : ProcessError} : ended.error? = some e → Done w (some ended, w)
  | undone {pid : Pid} {pids : PidAllocator} {parent : Option Pid} {name : String}
      {f : Record → Record} {e : ProcessError} :
      w.kernel.table.pids.alloc = some (pid, pids) →
      (∀ p, parent = some p → ∃ r, w.kernel.table.get? p = some r ∧ r.state = .running) →
      Table.Inner f →
      Done w (some (.launched (.error e)),
        w.withTable (w.kernel.table.undone pids (.new pid parent name) f))
  | created {pid : Pid} {pids : PidAllocator} {parent : Option Pid} {name : String}
      {image : LoadedImage} :
      w.kernel.table.pids.alloc = some (pid, pids) →
      (∀ p, parent = some p → ∃ r, w.kernel.table.get? p = some r ∧ r.state = .running) →
      Done w (some (.launched (.ok pid)),
        { w with
          kernel :=
            { w.kernel with
              table := (w.kernel.table.admitted pids (.new pid parent name)).adjust
                pid fun r => { r with space := some image.space }
              booted := parent.isNone || w.kernel.booted }
          pages := w.pages + image.space.pages })
  | collected {child : Pid} {r : Record} {status : ExitStatus} :
      w.kernel.table.get? child = some r → r.state = .exited status →
      Done w (some (.joined child (.ok status)),
        { w with
          kernel := { w.kernel with table := w.kernel.table.removed child r }
          pages := w.pages - r.residentPages })
  | blocked {child : Pid} {r : Record} {task : TaskId} :
      w.kernel.table.get? child = some r → r.state = .running →
      Done w (none,
        w.withTable (w.kernel.table.adjust child fun r => { r with waiter := some task }))
  | departed {pid : Pid} {status : ExitStatus} {r : Record} {t : Table} :
      Table.Departs w.kernel.table pid status r t →
      Done w (some (.terminated status (.ok ())), w.departed r t)
  | halted : Done w (some (.halted (.ok ())), { w with halts := w.halts + 1 })

/-- The invariant of the books (module doc). -/
structure Standing (config : Config) (range : PidRange) (w : Books) : Prop where
  ready : Session.Ready config range w.kernel
  vacant : w.kernel.booted = false → w.kernel.table.Vacant
  balanced : w.pages = w.kernel.table.heldPages

section calls

variable {pid caller child : Pid} {status : ExitStatus} {r : Record} {name : String}
  {task : TaskId} {e : ProcessError} {c : Call}

theorem run_ended {effects : List Effect} {c' : Call} (h : c.settle w.kernel = (k, effects, c'))
    (hc : c'.request? = none) :
    w.run a c = (c'.ended?, (surroundings a).applyAll { w with kernel := k } effects) :=
  Surroundings.drive_ended (s := surroundings a) 2 h hc

theorem run_finished : w.run a (.launch (.finished (.error e))) =
    (some (.launched (.error e)), w) :=
  Surroundings.drive_ended (s := surroundings a) 2 rfl rfl

theorem run_booting_refused (name : String) (hb : w.kernel.booted = true) : ∃ e,
    w.run a (.launch (.booting name)) = (some (.launched (.error e)), w) := by
  have hs : (Call.launch (.booting name)).settle w.kernel =
      (w.kernel, [], .launch (.finished (.error (.invalidArgument "root process already exists"))))
      := by
    simp only [Call.settle, Call.stepsLeft, Call.launchSteps, Call.steps, Call.step, Launch.step,
      hb]
    rfl
  exact ⟨_, Surroundings.drive_ended (s := surroundings a) 2 hs rfl⟩

theorem run_booting (hb : w.kernel.booted = false) :
    w.run a (.launch (.booting name)) =
      run a (.launch (.reserving ⟨none, name, 0⟩))
        { w with kernel := { w.kernel with booted := true } } :=
  Surroundings.drive_congr 2 (Session.settle_booting name hb) fun _ => rfl

/-- Until the root process exists nothing can be launched but it. -/
theorem Standing.done_boot (h : w.Standing config range) :
    Done w (w.run a (.launch (.booting name))) := by
  cases hb : w.kernel.booted with
  | true =>
    obtain ⟨e, he⟩ := run_booting_refused (a := a) name hb
    rw [he]
    exact .failed rfl
  | false =>
    have hv := h.vacant hb
    have hroot : ∀ pid pids, w.kernel.table.pids.alloc = some (pid, pids) → pid = Pid.root := by
      intro pid pids ha
      rcases PidAllocator.alloc_eq_some ha with ⟨-, rfl, -⟩ | ⟨-, rest, hr, -⟩
      · rw [hv.next]
        rfl
      · rw [hv.recycled] at hr
        cases hr
    rw [run_booting hb]
    have hl := run_reserving (a := a) (w := { w with kernel := { w.kernel with booted := true } })
      ⟨none, name, 0⟩ h.ready.sound fun _ => hroot
    -- A launch that fails takes back the claim on the root process.
    have hk (t : Table) :
        abandoned ⟨none, name, 0⟩ { w.kernel with table := t, booted := true } =
          { w.kernel with table := t } := by
      exact (if_pos rfl).trans (hb ▸ rfl)
    generalize run a (.launch (.reserving ⟨none, name, 0⟩)) _ = out at hl
    cases hl with
    | refused =>
      rw [hk w.kernel.table]
      exact .failed rfl
    | undone ha hp hf =>
      rw [hk]
      exact .undone ha hp hf
    | created ha hp => exact .created ha hp

theorem Standing.done_exec {argc : UInt32} (h : w.Standing config range) :
    Done w (w.run a (.launch (.reserving ⟨some caller, name, argc⟩))) := by
  have hl := run_reserving (a := a) ⟨some caller, name, argc⟩ h.ready.sound fun hp => nomatch hp
  generalize run a _ w = out at hl
  cases hl with
  | refused => exact .failed rfl
  | undone ha hp hf => exact .undone ha hp hf
  | created ha hp => exact .created ha hp

theorem Standing.done_join (h : w.Standing config range) :
    Done w (w.run a (.join (.new caller child task))) := by
  have hl := Table.checkJoin_look h.ready.sound caller child task
  cases hj : w.kernel.table.checkJoin caller child task with
  | mk check t =>
    rw [hj] at hl
    cases hl with
    | notChild =>
      rw [run_ended (Session.settle_notChild hj) rfl]
      exact .failed rfl
    | @collected r status hr hp hex =>
      rw [run_ended (Session.settle_collected hj) rfl, Option.toList_some, List.flatMap_singleton,
        applyAll_append, applyAll_releaseOf]
      exact .collected hr hex
    | busy =>
      rw [run_ended (Session.settle_busy hj) rfl]
      exact .failed rfl
    | waiting hr hp hrun =>
      have hs : w.run a (.join (.new caller child task)) = (none,
          w.withTable (w.kernel.table.adjust child fun r => { r with waiter := some task })) :=
        Surroundings.drive_sleeping 2 (Session.settle_waiting hj) rfl rfl
      rw [hs]
      exact .blocked hr hrun

theorem Standing.run_terminate (h : w.Standing config range) (status : ExitStatus)
    (hr : w.kernel.table.running? pid = some r) : ∃ t,
    Table.Departs w.kernel.table pid status r t ∧
      w.run a (.terminate ⟨pid, status, .departing⟩) =
        (some (.terminated status (.ok ())), w.departed r t) := by
  obtain ⟨t, hd, ht⟩ := Table.depart_eq status h.ready.sound hr
  refine ⟨t, ht, (run_ended (Session.settle_departed hd) rfl).trans ?_⟩
  rw [applyAll_append, applyAll_append, ← Effect.releaseOf, applyAll_releaseOf, applyAll_wakes,
    applyAll_closing]
  by_cases hi : t.running = 0 ∧ w.kernel.config.haltWhenIdle = true <;> simp only [departed, hi]
    <;> rfl

theorem Standing.done_terminate (h : w.Standing config range) :
    Done w (w.run a (.terminate ⟨pid, status, .departing⟩)) := by
  cases hr : w.kernel.table.running? pid with
  | none =>
    have hd : w.kernel.table.depart pid status = (.notRunning, w.kernel.table) := by
      simp only [Table.depart, hr]
    rw [run_ended (Session.settle_notRunning hd) rfl]
    exact .failed rfl
  | some r =>
    obtain ⟨t, ht, hrun⟩ := h.run_terminate (a := a) status hr
    rw [hrun]
    exact .departed ht

theorem done_halt : Done w (w.run a (.halt (.asked caller))) := by
  by_cases hc : caller = Pid.root
  · subst hc
    exact .halted
  · have hs : (Call.halt (.asked caller)).settle w.kernel = (w.kernel,
        [.note (.haltRefused caller)], .halt (.finished (.error .permissionDenied))) := by
      simp only [Call.settle, Call.stepsLeft, Call.steps, Call.step, HaltRequest.step,
        if_pos (Ne.intro hc)]
      rfl
    rw [run_ended hs rfl]
    exact .failed rfl

/-- A call fails none of the kernel's checks, and does one of these things. -/
theorem Standing.done (h : w.Standing config range) (hc : Traffic.Started c) :
    Done w (w.run a c) := by
  cases hc with
  | unfit =>
    rw [run_finished]
    exact .failed rfl
  | boot => exact h.done_boot
  | exec => exact h.done_exec
  | join => exact h.done_join
  | terminate => exact h.done_terminate
  | halt => exact done_halt

end calls

/-! ## The invariant -/

section standing

variable {out : Option Ended × Books} {t : Table} {pid : Pid} {r : Record}

/-- Another table, in which there is a record. -/
theorem Standing.withTable (h : w.Standing config range) (hs : t.Sound)
    (hb : w.kernel.table.SameBounds t) (hr : (w.kernel.table.get? pid).isSome = true)
    {w' : Books} (hk : w'.kernel = { w.kernel with table := t }) (hp : w'.pages = t.heldPages) :
    w'.Standing config range where
  ready := hk ▸ h.ready.withTable hs hb.capacity hb.range
  vacant hv := by
    rw [hk] at hv
    rw [(h.vacant hv).get?] at hr
    cases hr
  balanced := by rw [hk]; exact hp

theorem Done.standing (hd : Done w out) (h : w.Standing config range) :
    out.2.Standing config range := by
  have hs := h.ready.sound
  cases hd with
  | failed => exact h
  | @undone pid pids parent name f e ha hp hf =>
    have hn := hs.allotted.alloc ha
    have hne := hs.allotted.parent_ne ha hp
    refine ⟨h.ready.withTable (hs.undone name ha hp hf) Table.capacity_undone
      (Table.range_undone.trans (PidAllocator.range_alloc ha)), fun hb => ?_, ?_⟩
    · -- The allocator of a vacant table counts, so it takes its number back.
      have hv := h.vacant hb
      have hc : w.kernel.table.pids.Counting := by
        rw [PidAllocator.Counting, hv.next]
        exact UInt32.zero_le
      show Table.Vacant (w.kernel.table.undone pids (.new pid parent name) f)
      rw [Table.undone_of_counting hs hn hne hf rfl hc ha]
      exact hv
    · refine h.balanced.trans (Table.heldPages_congr (Table.spaces_congr fun k => ?_)).symm
      exact congrArg (Option.bind · _) (Table.get?_undone hs hn hne hf k)
  | @created pid pids parent name image ha hp =>
    have hn := hs.allotted.alloc ha
    have hne := hs.allotted.parent_ne ha hp
    have hadm : (w.kernel.table.admitted pids (.new pid parent name)).spaces =
      w.kernel.table.spaces := Table.spaces_admitted hn hne rfl
    refine ⟨⟨Table.Sound.adjust_admitted name hs ha hp (Table.inner_space _), h.ready.config_eq,
      Table.capacity_admitted.trans h.ready.capacity_eq, ?_⟩, fun hb => ?_, ?_⟩
    · exact ((congrArg _ Table.pids_admitted).trans (PidAllocator.range_alloc ha)).trans
        h.ready.range_eq
    · -- A parent is registered, and without one the process is the root process.
      cases parent with
      | none => cases hb
      | some p =>
        obtain ⟨q, hq, -⟩ := hp p rfl
        rw [(h.vacant hb).get?] at hq
        cases hq
    · have hi := (Table.spaces_stored image.space
        (Table.get?_admitted_self name hs ha hp)).trans (congrArg (·.insert pid image.space) hadm)
      rw [Table.heldPages_insert hi (by rw [Table.get?_spaces, hn]; rfl), h.balanced]
  | @collected child r status hr hex =>
    have he : r.isExited = true := by rw [Record.isExited, hex]; rfl
    refine h.withTable (hs.collected hr he) (Table.sameBounds_removed _ child r)
      (by rw [hr]; rfl) rfl ?_
    have := Table.heldPages_erase (Table.spaces_withdraw w.kernel.table child r) hr
    show w.pages - _ = (w.kernel.table.withdraw child r).heldPages
    rw [h.balanced]
    omega
  | blocked hr hrun =>
    refine h.withTable (hs.adjust (Table.inner_waiter _) hr hrun) (Table.sameBounds_adjust ..)
      (by rw [hr]; rfl) rfl ?_
    exact h.balanced.trans (Table.heldPages_congr (Table.spaces_awaited _)).symm
  | departed ht =>
    refine h.withTable (ht.sound hs) ht.bounds (by rw [ht.was]; rfl) rfl ?_
    have := Table.heldPages_erase (ht.spaces hs.forest) ht.was
    show w.pages - _ = _
    rw [h.balanced]
    omega
  | halted => exact ⟨h.ready, h.vacant, h.balanced⟩

theorem standing_new (config : Config) (range : PidRange) :
    (new config range).Standing config range where
  ready := ⟨Table.sound_new _ _, rfl, rfl, rfl⟩
  vacant _ := ⟨fun _ => rfl, rfl, rfl⟩
  balanced := rfl

variable {μ : Type} [UserMemory μ]

/-- A system call that is answered at once leaves the books as they are. Any other call of an entry
point starts a call of the kernel. -/
theorem invoke_cases (w : Books) (a : Answers) (i : Invocation μ) :
    w.invoke a i = (none, w) ∨ ∃ c, Traffic.Started c ∧ w.invoke a i = w.run a c := by
  unfold invoke
  have ha := applyAll_entry (a := a) i w.kernel w
  have hs : ∀ c, (i.entry w.kernel).2.call? = some c → Traffic.Started c := fun _ =>
    Traffic.started_entry
  cases he : i.entry w.kernel with
  | mk effects entry =>
    rw [he] at ha hs
    simp only [ha]
    cases entry with
    | answered => exact .inl rfl
    | started c => exact .inr ⟨c, hs c rfl, rfl⟩

theorem Standing.invoke (h : w.Standing config range) (i : Invocation μ) :
    (w.invoke a i).2.Standing config range := by
  rcases invoke_cases w a i with hw | ⟨c, hc, hw⟩
  · rw [hw]
    exact h
  · rw [hw]
    exact (h.done hc).standing h

theorem Reached.standing (h : Reached μ config range w) : w.Standing config range := by
  induction h with
  | start => exact standing_new _ _
  | invoke i a _ ih => exact ih.invoke i

end standing

end Books

end Lifecycle
