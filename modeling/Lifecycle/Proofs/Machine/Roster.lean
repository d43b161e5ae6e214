import Lifecycle.Proofs.Machine.Tracking

/-!
# Each task ends its process

A task that is there has not ended its process, which runs, or it has ended it in one of its moves
(`Roster`). The number of a task is given out once, so the moves of a task that is gone stay those
of that task.

* `Step.ends`: the move in which a task ends its process.
* `Followed.cases`: what a move does to a task that is there.
* `Roster.moved`: a move keeps the roster.
-/

namespace Lifecycle

namespace Machine

/-- The process `pid` runs. -/
def runs (m : Machine) (pid : Pid) : Bool := (m.kernel.table.running? pid).isSome

/-- A move of a run. -/
structure Step where
  before : Machine
  move : Move
  after : Machine

/-- The task `serial` ends the process `pid` in the move, by the critical section of a
termination. -/
def Step.ends (serial : Nat) (pid : Pid) (s : Step) : Bool :=
  s.move.actor = .task serial && s.before.target? (.task serial) = some pid &&
    s.before.runs pid && !s.after.runs pid

variable {m m' n : Machine} {a : Actor} {e : Errand} {c' : Call} {s : Nat} {pid : Pid}
  {stimulus : Stimulus} {x x' : Traffic} {ix : Actor → Nat} {k' : Kernel} {effects : List Effect}
  {permits : TaskId → Bool} {ev : Option Event} {origin : Origin} {move : Move}
  {steps : List Step}

theorem runs_iff : m.runs pid = true ↔ m.kernel.table.Runs pid := Table.runs_iff

theorem Step.ends_iff {st : Step} : st.ends s pid = true ↔ st.move.actor = .task s ∧
    st.before.target? (.task s) = some pid ∧ st.before.kernel.table.Runs pid ∧
      ¬ st.after.kernel.table.Runs pid := by
  simp [ends, ← runs_iff, and_assoc]

/-- Only a task that is there moves. -/
theorem Moved.client? (hm : Moved m (.task s) m') : (m.client? (.task s)).isSome = true := by
  have herrand {e : Errand} (he : m.errand? (.task s) = some e) :
      (m.client? (.task s)).isSome = true := by
    obtain ⟨pid, hp⟩ := post?_of_errand? he
    simp [Machine.client?, hp]
  cases hm with
  | thinks hp | enters hp | leaves hp => simp [Machine.client?, hp]
  | claims he | turns he => exact herrand he
  | finishes ht => simp [Machine.client?, post?_of_task? ht]

theorem post?_of_mem {t : Task} (hn : m.actors.Nodup) (ht : t ∈ m.tasks) :
    m.post? t.serial = some (t.pid, t.activity) := by
  have hmap : (m.tasks.map fun t => Actor.task t.serial).Nodup := (List.nodup_cons.1 hn).2
  obtain ⟨u, hu⟩ : ∃ u, m.task? t.serial = some u :=
    Option.isSome_iff_exists.1 (List.find?_isSome.2 ⟨t, ht, by simp⟩)
  have heq : u = t := List.inj_on_of_nodup_map hmap (List.mem_of_find?_eq_some hu) ht
    (by rw [serial_of_task? hu])
  rw [post?_of_task? hu, heq]

theorem client?_of_mem {t : Task} (hn : m.actors.Nodup) (ht : t ∈ m.tasks) :
    m.client? (.task t.serial) = some t.pid := by
  simp [Machine.client?, post?_of_mem hn ht]

/-! ## The tasks after a move -/

namespace Turning

variable (t : Turning x ix m a e stimulus n k' effects c' permits ev)
include t

/-- A task whose process has been ended ends no other process of that PID. -/
theorem runs_past (ha : a = .task s) (hc : m.client? a = some pid) (hl : ¬ m.Lives s pid)
    (hr : m.kernel.table.Runs pid) : k'.table.Runs pid := by
  have hspares : e.call.spares = false := by
    refine Bool.eq_false_iff.2 fun hsp => hl ?_
    obtain ⟨s', hs', hlive⟩ := lives_of_client? t.call hc hsp
    rw [ha] at hs'
    cases hs'
    exact hlive
  obtain ⟨r, hr, hrun⟩ := hr
  rcases t.turn.running_kept t.consistent (t.mirror.kernel ▸ hr) hrun with
    hk | ⟨status, b, ho⟩ | ⟨order, cause, b, ho⟩
  · exact hk
  · rw [show e.call = _ from congrArg Operation.call ho] at hspares
    cases hspares
  · rw [show e.call = _ from congrArg Operation.call ho] at hspares
    cases hspares

theorem client?_before
    (hc : (n.turned a k' effects ⟨c', origin, false⟩).client? (.task s) = some pid) :
    m.client? (.task s) = some pid ∨
      s = m.nextTask ∧ (n.turned a k' effects ⟨c', origin, false⟩).Lives s pid := by
  by_cases hs : s = m.nextTask
  · subst hs
    have ha : a ≠ .task m.nextTask := t.ne_fresh (by rw [t.call]; rfl)
    have hpost : (n.turned a k' effects ⟨c', origin, false⟩).post? m.nextTask =
        n.post? m.nextTask := by rw [post?_turned, if_neg ha]
    rcases t.prepares.post? t.fresh with ⟨hn, -⟩ | ⟨q, p, hcreates, hn⟩
    · simp [Machine.client?, hpost, hn, t.fresh] at hc
    · have hq : q = pid := by simpa [Machine.client?, hpost, hn] using hc
      exact .inr ⟨rfl, t.lives_turned.2 (.inr ⟨rfl, hq ▸ hcreates⟩)⟩
  · refine .inl ((t.client?_turned fun h => hs ?_).symm.trans hc)
    cases h
    rfl

end Turning

section followed

variable (h : Followed x ix m a x' m') (hs : Staffed x m)
include h hs

theorem Followed.lives_on (hl : m.Lives s pid) :
    m'.Lives s pid ∨ a = .task s ∧ m.target? a = some pid ∧ ¬ m'.kernel.table.Runs pid := by
  cases h with
  | steady hst => exact .inl ((hst.lives s pid).2 hl)
  | turned t _ _ hm' =>
    subst hm'
    rw [kernel_turned]
    exact t.lives_on hs hl

omit hs in
theorem Followed.lives_before (hl : m'.Lives s pid) : m.Lives s pid ∨ s = m.nextTask := by
  cases h with
  | steady hst => exact .inl ((hst.lives s pid).1 hl)
  | turned t _ _ hm' =>
    subst hm'
    exact (t.lives_before hl).imp And.left And.left

omit hs in
/-- A task ends no other process than its own. -/
theorem Followed.runs_past (ha : a = .task s) (hc : m.client? a = some pid)
    (hl : ¬ m.Lives s pid) (hr : m.kernel.table.Runs pid) : m'.kernel.table.Runs pid := by
  cases h with
  | steady hst =>
    rw [hst.kernel]
    exact hr
  | turned t _ _ hm' =>
    subst hm'
    rw [kernel_turned]
    exact t.runs_past ha hc hl hr

omit hs in
theorem Followed.client?_before (hc : m'.client? (.task s) = some pid) :
    m.client? (.task s) = some pid ∨ s = m.nextTask ∧ m'.Lives s pid := by
  cases h with
  | steady hst =>
    rcases hst.tasks s with hsame | ⟨hnone, -⟩
    · exact .inl (hsame ▸ hc)
    · rw [hnone] at hc
      cases hc
  | turned t _ _ hm' =>
    subst hm'
    exact t.client?_before hc

omit hs in
theorem Followed.client?_after (hc : m.client? (.task s) = some pid) :
    m'.client? (.task s) = some pid ∨ m'.client? (.task s) = none ∧ ¬ m.Lives s pid := by
  cases h with
  | steady hst =>
    exact (hst.tasks s).imp (·.trans hc) fun ⟨hnone, hdead⟩ => ⟨hnone, hdead pid⟩
  | turned t _ _ hm' =>
    subst hm'
    refine .inl ((t.client?_turned fun hs => ?_).trans hc)
    cases hs
    simp [Machine.client?, t.fresh] at hc

end followed

/-- A task that is not there ends no process. -/
theorem Moved.ends_eq_false (hm : Moved m move.actor m') (hc : m.client? (.task s) = none) :
    (⟨m, move, m'⟩ : Step).ends s pid = false := by
  refine Bool.eq_false_iff.2 fun hends => ?_
  have hm : Moved m (.task s) m' := (Step.ends_iff.1 hends).1 ▸ hm
  have hthere := hm.client?
  rw [hc] at hthere
  cases hthere

theorem Placed.lt_nextTask (h : m.Placed) (hc : (m.client? (.task s)).isSome = true) :
    s < m.nextTask :=
  h.fresh s (by simpa [Machine.client?] using hc)

/-- The tasks that are there, and those that were (module doc). -/
structure Roster (steps : List Step) (m : Machine) : Prop where
  /-- A task that is there lives, or has ended its process. -/
  posted : ∀ s pid, m.client? (.task s) = some pid →
    m.Lives s pid ∧ steps.countP (Step.ends s pid) = 0 ∨
      ¬ m.Lives s pid ∧ steps.countP (Step.ends s pid) = 1
  /-- A task that was there still is, or it has ended its process. -/
  known : ∀ st ∈ steps, ∀ t ∈ st.after.tasks, t.serial < m.nextTask ∧
    (m.client? (.task t.serial) = some t.pid ∨
      m.client? (.task t.serial) = none ∧ steps.countP (Step.ends t.serial t.pid) = 1)
  /-- The next task has not moved. -/
  early : ∀ st ∈ steps, ∀ s, st.move.actor = .task s → s < m.nextTask

section moved

variable (h : Followed x ix m move.actor x' m') (hs : Staffed x m) (hs' : Staffed x' m')
  (hp : m.Placed)
include h hs hs' hp

/-- What a move does to a task that is there. -/
theorem Followed.cases (hc : m.client? (.task s) = some pid) :
    m.Lives s pid ∧ m'.Lives s pid ∧ (⟨m, move, m'⟩ : Step).ends s pid = false ∨
    m.Lives s pid ∧ ¬ m'.Lives s pid ∧ (⟨m, move, m'⟩ : Step).ends s pid = true ∨
    ¬ m.Lives s pid ∧ ¬ m'.Lives s pid ∧ (⟨m, move, m'⟩ : Step).ends s pid = false := by
  by_cases hl : m.Lives s pid
  · rcases h.lives_on hs hl with hl' | ⟨ha, htarget, hended⟩
    · refine .inl ⟨hl, hl', Bool.eq_false_iff.2 fun hends => ?_⟩
      exact (Step.ends_iff.1 hends).2.2.2 (hs'.manned s pid hl').1
    · exact .inr (.inl ⟨hl, fun hl' => hended (hs'.manned s pid hl').1,
        Step.ends_iff.2 ⟨ha, ha ▸ htarget, (hs.manned s pid hl).1, hended⟩⟩)
  · refine .inr (.inr ⟨hl, fun hl' => ?_, Bool.eq_false_iff.2 fun hends => ?_⟩)
    · rcases h.lives_before hl' with hold | rfl
      · exact hl hold
      · simp [Machine.client?, hp.unposted] at hc
    · obtain ⟨ha, -, hr, hended⟩ := Step.ends_iff.1 hends
      exact hended (h.runs_past ha (ha ▸ hc) hl hr)

variable (hr : Roster steps m) (hm : Moved m move.actor m')
include hr hm

/-- A task that is there after a move was there before it, or is new. -/
theorem Roster.posted_moved (hc : m'.client? (.task s) = some pid) :
    m'.Lives s pid ∧ (⟨m, move, m'⟩ :: steps).countP (Step.ends s pid) = 0 ∨
      ¬ m'.Lives s pid ∧ (⟨m, move, m'⟩ :: steps).countP (Step.ends s pid) = 1 := by
  rw [List.countP_cons]
  rcases h.client?_before hc with hold | ⟨rfl, hl'⟩
  · have hcount := hr.posted s pid hold
    rcases h.cases hs hs' hp hold with ⟨hl, hl', hends⟩ | ⟨hl, hl', hends⟩ | ⟨hl, hl', hends⟩ <;>
      simp [hl, hl', hends] at hcount ⊢ <;> exact hcount
  · -- Nobody had the number of the new task before.
    have hnone : m.client? (.task m.nextTask) = none := by simp [Machine.client?, hp.unposted]
    have hzero : steps.countP (Step.ends m.nextTask pid) = 0 :=
      List.countP_eq_zero.2 fun st hst hends =>
        Nat.lt_irrefl _ (hr.early st hst _ (Step.ends_iff.1 hends).1)
    exact .inl ⟨hl', by rw [hzero, hm.ends_eq_false hnone]; rfl⟩

/-- A task that was there before a move is there after it, or has ended its process. -/
theorem Roster.known_moved {t : Task} (hlt : t.serial < m.nextTask)
    (hknown : m.client? (.task t.serial) = some t.pid ∨
      m.client? (.task t.serial) = none ∧ steps.countP (Step.ends t.serial t.pid) = 1) :
    m'.client? (.task t.serial) = some t.pid ∨ m'.client? (.task t.serial) = none ∧
      (⟨m, move, m'⟩ :: steps).countP (Step.ends t.serial t.pid) = 1 := by
  rw [List.countP_cons]
  rcases hknown with hc | ⟨hnone, hcount⟩
  · rcases h.client?_after hc with hc' | ⟨hnone', hdead⟩
    · exact .inl hc'
    · have hcount := hr.posted _ _ hc
      refine .inr ⟨hnone', ?_⟩
      rcases h.cases hs hs' hp hc with ⟨hl, -⟩ | ⟨hl, -⟩ | ⟨-, -, hends⟩
      · exact absurd hl hdead
      · exact absurd hl hdead
      · simpa [hdead, hends] using hcount
  · refine .inr ⟨Option.eq_none_iff_forall_ne_some.2 fun q hq => ?_, ?_⟩
    · rcases h.client?_before hq with hold | ⟨heq, -⟩
      · rw [hnone] at hold
        cases hold
      · omega
    · rw [hm.ends_eq_false hnone]
      exact hcount

/-- The roster after a move. -/
theorem Roster.moved (hp' : m'.Placed) (hnext : m.nextTask ≤ m'.nextTask) :
    Roster (⟨m, move, m'⟩ :: steps) m' where
  posted s pid hc := hr.posted_moved h hs hs' hp hm hc
  known st hst t ht := by
    rcases List.mem_cons.1 hst with rfl | hst
    · have hc := client?_of_mem hp'.nodup ht
      exact ⟨hp'.lt_nextTask (by rw [hc]; rfl), .inl hc⟩
    · obtain ⟨hlt, hknown⟩ := hr.known st hst t ht
      exact ⟨Nat.lt_of_lt_of_le hlt hnext, hr.known_moved h hs hs' hp hm hlt hknown⟩
  early st hst s ha := by
    rcases List.mem_cons.1 hst with rfl | hst
    · have hm : Moved m (.task s) m' := ha ▸ hm
      exact Nat.lt_of_lt_of_le (hp.lt_nextTask hm.client?) hnext
    · exact Nat.lt_of_lt_of_le (hr.early st hst s ha) hnext

end moved

end Machine

end Lifecycle
