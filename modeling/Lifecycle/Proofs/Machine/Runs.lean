import Lifecycle.Proofs.Machine.Idling
import Lifecycle.Proofs.Machine.Roster

/-!
# Runs of a machine

`Run` are all runs of a machine: its moves in any order, and boots by its host. In each of them a
task ends its process once before it is finished, the count of live tasks is right, and when no task
is live any more nothing is left (`Run.tidy`). The programs may do what they like; the pages of
their images have to fit in the registers (`Registry.Fits`).

* `Standing`, `Run.standing`: what holds in all runs.
* `Run.fair`: the fair schedule is one of the runs.
* `boot_isClean`: the report of a boot that has succeeded, when every task is finished.
-/

namespace Lifecycle

/-- The boot of the root process has succeeded. -/
def Host.succeeded : Host → Bool
  | booted (.launched (.ok _)) => true
  | _ => false

theorem Host.succeeded_iff {host : Host} :
    host.succeeded = true ↔ ∃ pid, host = .booted (.launched (.ok pid)) := by
  constructor
  · intro h
    unfold succeeded at h
    split at h
    · exact ⟨_, rfl⟩
    · cases h
  · rintro ⟨pid, rfl⟩
    rfl

namespace Machine

/-- The move gives a place back: a task is finished, or there is no thread for a new one. -/
def Step.frees (s : Step) : Bool :=
  match s.move with
  | .starve _ => true
  | _ => s.after.tasks.length < s.before.tasks.length

/-- All runs of a machine, with the log of their moves, newest first. The host boots no program
whose name has a zero byte, since no thread can have that name. -/
inductive Run (config : Config) (registry : Registry) (pages maxTasks : Nat) :
    List Step → Machine → Prop where
  | new : Run config registry pages maxTasks [] (.new config registry pages maxTasks)
  | boot {steps : List Step} {m : Machine} {name : String} :
      Run config registry pages maxTasks steps m → m.host.errand? = none → registry.Nameable name →
      Run config registry pages maxTasks steps (m.startBoot name)
  | move {steps : List Step} {m m' : Machine} {move : Move} :
      Run config registry pages maxTasks steps m → m.next move = some m' →
      Run config registry pages maxTasks (⟨m, move, m'⟩ :: steps) m'

variable {config : Config} {registry : Registry} {pages maxTasks : Nat} {steps : List Step}
  {m m' : Machine} {x : Traffic} {ix : Actor → Nat} {name : String} {move : Move}

/-! ## The start of a run -/

theorem pagesHeld_new : (Traffic.new config .standard).pagesHeld = 0 := rfl

theorem mirror_new :
    Mirror (.new config .standard) (fun _ => 0) (.new config registry pages maxTasks) where
  kernel := rfl
  under a c hc := by cases a <;> cases hc
  unended _ _ hi := nomatch hi
  apart a _ ha := by cases a <;> cases ha

theorem staffed_new :
    Staffed (.new config .standard) (.new config registry pages maxTasks) where
  serves a c hc := by cases a <;> cases hc
  manned _ _ := fun ⟨_, hl, _⟩ => nomatch hl
  distinct _ _ _ := fun ⟨_, hl, _⟩ => nomatch hl
  kept _ := fun ⟨_, hr, _⟩ => nomatch hr

theorem tracked_new : Tracked config registry pages (.new config .standard) (fun _ => 0)
    (.new config registry pages maxTasks) where
  reachable := .start
  mirror := mirror_new
  staffed := staffed_new
  placed := placed_new ..
  proper _ _ _ h := nomatch h
  registry := rfl
  total := rfl
  room := Nat.zero_le _
  used := pagesHeld_new.symm

theorem steady_startBoot (hidle : m.host.errand? = none)
    (hname : m.loader.registry.Nameable name) : Steady m .host (m.startBoot name) := by
  have hstart := Traffic.started_boot m.kernel name
  refine .of_host _ ?_ fun ⟨pid, hl⟩ => ?_
  · rw [hidle]
    have hentry : (Invocation.boot name : Invocation Bytes).entry m.kernel =
        ([], .started (.boot m.kernel name)) := rfl
    exact .starts hentry (Call.serves_boot hname)
  · have hcall := Option.some.inj (hl.resolve_left nofun)
    rw [show Call.boot m.kernel name = _ from hcall] at hstart
    cases hstart

theorem Tracked.startBoot (h : Tracked config registry pages x ix m)
    (hidle : m.host.errand? = none) (hname : registry.Nameable name) :
    ∃ x' ix', Tracked config registry pages x' ix' (m.startBoot name) ∧
      Followed x ix m .host x' (m.startBoot name) :=
  h.steady (steady_startBoot hidle (h.registry ▸ hname)) (h.placed.startBoot hidle) h.proper

/-! ## Every state of a run -/

/-- What holds in all runs. -/
structure Standing (config : Config) (registry : Registry) (pages maxTasks : Nat) (x : Traffic)
    (ix : Actor → Nat) (steps : List Step) (m : Machine) : Prop where
  tracked : Tracked config registry pages x ix m
  founded : (m.Launched ∨ ∃ s ∈ steps, s.after.host.succeeded = true) → Founded x m
  roster : Roster steps m
  limit : m.maxTasks = maxTasks
  frees : ∀ s ∈ steps, s.frees = true → s.after.live + 1 = s.before.live

theorem standing_new : Standing config registry pages maxTasks (.new config .standard) (fun _ => 0)
    [] (.new config registry pages maxTasks) where
  tracked := tracked_new
  founded := by
    rintro (⟨pid, hhost | hcall⟩ | ⟨s, hs, -⟩)
    · cases hhost
    · cases hcall
    · cases hs
  roster := ⟨fun _ _ hc => (nomatch hc), fun _ hs => (nomatch hs), fun _ hs => (nomatch hs)⟩
  limit := rfl
  frees _ hs := nomatch hs

theorem Standing.startBoot (h : Standing config registry pages maxTasks x ix steps m)
    (hidle : m.host.errand? = none) (hname : registry.Nameable name) :
    ∃ x' ix', Standing config registry pages maxTasks x' ix' steps (m.startBoot name) := by
  obtain ⟨x', ix', htracked, hfollowed⟩ := h.tracked.startBoot hidle hname
  refine ⟨x', ix', htracked, fun hl => ?_, ⟨h.roster.posted, h.roster.known, h.roster.early⟩,
    h.limit, h.frees⟩
  have hst := steady_startBoot hidle (h.tracked.registry ▸ hname)
  exact hfollowed.founded h.tracked.staffed (h.founded (hl.imp_left hst.launched))

theorem Standing.moved (h : Standing config registry pages maxTasks x ix steps m)
    (hf : registry.Fits pages) (hm : m.next move = some m') :
    ∃ x' ix', Standing config registry pages maxTasks x' ix' (⟨m, move, m'⟩ :: steps) m' := by
  have hmoved := (h.tracked.sane hf).moved hm
  obtain ⟨x', ix', htracked, hfollowed⟩ := h.tracked.moved hf hmoved
  have hs := h.tracked.staffed
  refine ⟨x', ix', htracked, fun hl => ?_,
    h.roster.moved hfollowed hs htracked.staffed h.tracked.placed hmoved htracked.placed
      hmoved.nextTask_le, hmoved.maxTasks.trans h.limit, fun s hmem hfrees => ?_⟩
  · -- A boot that has just succeeded, unless one has before the move.
    have hcases : m'.Launched ∨ ∃ s ∈ steps, s.after.host.succeeded = true := by
      rcases hl with hl | ⟨s, hmem, hboots⟩
      · exact .inl hl
      · rcases List.mem_cons.1 hmem with rfl | hmem
        · exact .inl ((Host.succeeded_iff.1 hboots).imp fun _ => .inl)
        · exact .inr ⟨s, hmem, hboots⟩
    rcases hcases with hl | hlog
    · rcases hfollowed.founds hs hl with hold | hnew
      · exact hfollowed.founded hs (h.founded (.inl hold))
      · exact hnew
    · exact hfollowed.founded hs (h.founded (.inr hlog))
  · rcases List.mem_cons.1 hmem with rfl | hmem
    · cases move with
      | starve a => exact h.tracked.placed.live_of_starve hm
      | _ => exact h.tracked.placed.live_of_length hmoved (of_decide_eq_true hfrees)
    · exact h.frees s hmem hfrees

theorem Run.standing (hf : registry.Fits pages) (h : Run config registry pages maxTasks steps m) :
    ∃ x ix, Standing config registry pages maxTasks x ix steps m := by
  induction h with
  | new => exact ⟨_, _, standing_new⟩
  | boot _ hidle hname ih =>
    obtain ⟨x, ix, h⟩ := ih
    exact h.startBoot hidle hname
  | move _ hm ih =>
    obtain ⟨x, ix, h⟩ := ih
    exact h.moved hf hm

/-! ## Schedules -/

/-- The machine after a schedule. A move that is impossible is left out. -/
def after (m : Machine) : List Move → Machine
  | [] => m
  | move :: rest =>
    match m.next move with
    | some m' => after m' rest
    | none => after m rest

/-- The log of `Machine.after`. -/
def log (m : Machine) : List Move → List Step
  | [] => []
  | move :: rest =>
    match m.next move with
    | some m' => log m' rest ++ [⟨m, move, m'⟩]
    | none => log m rest

section run

variable (h : Run config registry pages maxTasks steps m)
include h

theorem Run.after (moves : List Move) :
    Run config registry pages maxTasks (m.log moves ++ steps) (m.after moves) := by
  induction moves generalizing m steps with
  | nil => exact h
  | cons move rest ih =>
    unfold Machine.after Machine.log
    cases hm : m.next move with
    | none => exact ih h
    | some m' =>
      rw [List.append_assoc]
      exact ih (.move h hm)

theorem Run.round (actors : List Actor) :
    ∃ steps', Run config registry pages maxTasks steps' (Machine.round actors m).1 := by
  induction actors generalizing m steps with
  | nil => exact ⟨steps, h⟩
  | cons a rest ih =>
    unfold Machine.round
    cases hm : m.advance a with
    | none => exact ih h
    | some m' =>
      have hnext : m.next (.advance a) = some m' := hm
      exact ih (.move h hnext)

/-- The fair schedule is one of the runs. -/
theorem Run.fair (n : Nat) : ∃ steps', Run config registry pages maxTasks steps' (m.run n) := by
  induction n generalizing m steps with
  | zero => exact ⟨steps, h⟩
  | succ n ih =>
    obtain ⟨steps', h'⟩ := h.round m.actors
    unfold Machine.run
    split
    · next hround =>
      rw [hround] at h'
      exact ih h'
    · next hround =>
      rw [hround] at h'
      exact ⟨steps', h'⟩

end run

/-! ## The result -/

/-- What is left of the tasks, the places and the processes of a run. -/
structure Tidy (config : Config) (maxTasks : Nat) (steps : List Step) (m : Machine) : Prop where
  /-- A task ends its process once at most. -/
  once : ∀ s ∈ steps, ∀ t ∈ s.after.tasks, steps.countP (Step.ends t.serial t.pid) ≤ 1
  /-- Until it does the process runs. -/
  running : ∀ t ∈ m.tasks, steps.countP (Step.ends t.serial t.pid) = 0 → m.runs t.pid = true
  /-- It has done so when it is about to be finished. -/
  retiring : ∀ t ∈ m.tasks, t.activity = .retiring → steps.countP (Step.ends t.serial t.pid) = 1
  /-- So has every task that is finished. -/
  finished : ∀ s ∈ steps, ∀ t ∈ s.after.tasks, m.task? t.serial = none →
    steps.countP (Step.ends t.serial t.pid) = 1
  /-- The live tasks are those that are not finished, and those that are being created. -/
  live : m.live = m.tasks.length + m.claims
  limit : m.live ≤ maxTasks
  /-- A place that is given back was taken. -/
  frees : ∀ s ∈ steps, s.frees = true → s.after.live + 1 = s.before.live
  /-- After a boot that has succeeded nothing is left when no task is live. -/
  clean : (∃ s ∈ steps, s.after.host.succeeded = true) → m.live = 0 →
    (∀ pid, m.kernel.table.get? pid = none) ∧ m.residentPages = 0 ∧
      (config.haltWhenIdle = true → m.halted = true ∧ m.report.isClean = true)

theorem Roster.count_le (h : Roster steps m) {s : Step} {t : Task} (hs : s ∈ steps)
    (ht : t ∈ s.after.tasks) : steps.countP (Step.ends t.serial t.pid) ≤ 1 := by
  rcases (h.known s hs t ht).2 with hc | ⟨-, hcount⟩
  · rcases h.posted _ _ hc with ⟨-, hcount⟩ | ⟨-, hcount⟩ <;> omega
  · omega

theorem report_isClean (hempty : ∀ pid, m.kernel.table.get? pid = none)
    (hpages : m.residentPages = 0) (hlive : m.live = 0) (hhalted : m.halted = true) :
    m.report.isClean = true := by
  have hinfos : m.kernel.table.infos = [] := by
    rw [Table.infos, Table.snapshots, PidMap.values, PidMap.entries_eq_nil hempty]
    rfl
  simp [report, RunReport.isClean, isIdle, hinfos, hpages, hlive, hhalted]

/-- A machine whose tasks have all finished has left nothing behind, and each task ends its process
once before it is finished, whatever the programs do, and in whatever order the tasks move. -/
theorem Run.tidy (hf : registry.Fits pages) (h : Run config registry pages maxTasks steps m) :
    Tidy config maxTasks steps m := by
  obtain ⟨x, ix, hst⟩ := h.standing hf
  have hplaced := hst.tracked.placed
  have hroster := hst.roster
  have hcount {t : Task} (ht : t ∈ m.tasks) := hroster.posted _ _ (client?_of_mem hplaced.nodup ht)
  refine ⟨fun s hs t ht => hroster.count_le hs ht, fun t ht hzero => ?_, fun t ht hact => ?_,
    fun s hs t ht hgone => ?_, hplaced.live, hst.limit ▸ hplaced.room, hst.frees,
    fun hboots hlive => ?_⟩
  · rcases hcount ht with ⟨hl, -⟩ | ⟨-, hone⟩
    · exact runs_iff.2 (hst.tracked.staffed.manned _ _ hl).1
    · omega
  · rcases hcount ht with ⟨hl, -⟩ | ⟨-, hone⟩
    · rw [lives_of_post? (post?_of_mem hplaced.nodup ht), hact] at hl
      cases hl.2
    · exact hone
  · rcases (hroster.known s hs t ht).2 with hc | ⟨-, hone⟩
    · simp [Machine.client?, post?, hgone] at hc
    · exact hone
  · obtain ⟨hempty, hpages, hhalted⟩ :=
      hst.tracked.nothing_left (hst.founded (.inr hboots)) hlive
    exact ⟨hempty, hpages, fun hh =>
      ⟨hhalted hh, report_isClean hempty hpages hlive (hhalted hh)⟩⟩

/-! ## An orphan outlives its parent -/

/-- A program that starts two children and waits for none, and one that raises an exception. -/
def orphanage : Registry :=
  ⟨[("init", .program 2 fun _ => .exec "child" 0 fun _ => .exec "child" 0 fun _ => .done 0),
    ("child", .program 1 fun _ => .raise)]⟩

theorem orphanage_fits : orphanage.Fits 100 := by
  intro name n body h
  have hmem := Registry.mem_of_get? h
  simp only [orphanage, List.mem_cons, List.not_mem_nil, or_false] at hmem
  rcases hmem with h | h <;> (cases h; decide)

/-- There is no thread for the first child, and the second one ends after its parent. -/
def orphanMoves : List Move :=
  List.replicate 12 (Move.advance .host) ++ List.replicate 5 (Move.advance (.task 0)) ++
    Move.starve (.task 0) :: List.replicate 40 (Move.advance (.task 0)) ++
    List.replicate 20 (Move.advance (.task 2))

theorem orphan_tidy :
    let start := (new { suffix := none } orphanage 100 4).startBoot "init"
    let m := start.after orphanMoves
    let steps := start.log orphanMoves ++ []
    Tidy { suffix := none } 4 steps m ∧ (∃ s ∈ steps, s.after.host.succeeded = true) ∧
      m.live = 0 ∧ m.nextTask = 3 ∧ m.report.isClean = true ∧
      steps.countP (Step.ends 0 .root) = 1 ∧ steps.countP (Step.ends 2 ⟨1⟩) = 1 ∧
      steps.countP Step.frees = 3 := by
  intro start m steps
  have h : Run { suffix := none } orphanage 100 4 steps m :=
    Run.after (.boot .new rfl fun _ => by decide +kernel) orphanMoves
  have ht := h.tidy orphanage_fits
  have hboots : ∃ s ∈ steps, s.after.host.succeeded = true := by
    rw [← List.any_eq_true]
    decide +kernel
  have hlive : m.live = 0 := by decide +kernel
  exact ⟨ht, hboots, hlive, by decide +kernel, ((ht.clean hboots hlive).2.2 rfl).2,
    by decide +kernel, by decide +kernel, by decide +kernel⟩

/-! ## Boots -/

/-- If the boot of a machine that halts when it is idle has succeeded, and every task is finished,
the report of the run is clean. -/
theorem boot_isClean {pid : Pid} (hf : registry.Fits pages) (hname : registry.Nameable name)
    (hh : config.haltWhenIdle = true)
    (hm : (new config registry pages maxTasks).boot name = m)
    (hboot : m.bootResult? = some (.launched (.ok pid))) (hidle : m.isIdle = true) :
    m.report.isClean = true := by
  have hstart : Run config registry pages maxTasks []
      ((new config registry pages maxTasks).startBoot name) := .boot .new rfl hname
  obtain ⟨steps, h⟩ := hstart.fair patience
  obtain ⟨x, ix, hst⟩ := h.standing hf
  have hrun : run patience ((new config registry pages maxTasks).startBoot name) = m := hm
  rw [hrun] at hst
  have hhost : m.host = .booted (.launched (.ok pid)) := by
    unfold bootResult? at hboot
    split at hboot
    · next hhost =>
      cases hboot
      exact hhost
    · cases hboot
  have hlive : m.live = 0 := by simpa [isIdle] using hidle
  obtain ⟨hempty, hpages, hhalted⟩ :=
    hst.tracked.nothing_left (hst.founded (.inl ⟨pid, .inl hhost⟩)) hlive
  exact report_isClean hempty hpages hlive (hhalted hh)

end Machine

end Lifecycle
