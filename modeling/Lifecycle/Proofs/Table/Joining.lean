import Lifecycle.Proofs.Table.Removal

/-!
# Changes of single records, and the look of a join

A running record may get an address space or a waiter at any time: the links and the counts stay
as they are (`Sound.adjust`).

`Look t caller child task` is what the critical section of a join finds, and the table it leaves.
`checkJoin_look` says that it fails none of its checks.
-/

namespace Lifecycle

namespace Table

variable {t t' : Table} {k p pid caller child : Pid} {r : Record} {task : TaskId}
  {f : Record → Record}

/-- A change of a record that the links and the counts do not see. -/
structure Inner (f : Record → Record) : Prop where
  pid : ∀ r, (f r).pid = r.pid
  parent : ∀ r, (f r).parent = r.parent
  state : ∀ r, (f r).state = r.state
  children : ∀ r, (f r).children = r.children

/-- `r` with the address space `space`. -/
theorem inner_space (space : Option AddressSpace) : Inner fun r => { r with space := space } :=
  ⟨fun _ => rfl, fun _ => rfl, fun _ => rfl, fun _ => rfl⟩

/-- `r` with the waiter `waiter`. -/
theorem inner_waiter (waiter : Option TaskId) : Inner fun r => { r with waiter := waiter } :=
  ⟨fun _ => rfl, fun _ => rfl, fun _ => rfl, fun _ => rfl⟩

theorem hasParent_adjust (hf : Inner f) :
    (t.adjust pid f).HasParent k p ↔ t.HasParent k p := by
  unfold HasParent
  rw [get?_adjust]
  split
  · cases t.get? k <;> simp [hf.parent]
  · rfl

theorem hasChild_adjust (hf : Inner f) : (t.adjust pid f).HasChild p k ↔ t.HasChild p k := by
  unfold HasChild
  rw [get?_adjust]
  split
  · cases t.get? p <;> simp [hf.children]
  · rfl

theorem Forest.adjust (h : t.Forest) (hf : Inner f) (hr : t.get? pid = some r)
    (hs : r.state = .running) : (t.adjust pid f).Forest where
  pid_eq hk := by
    rw [get?_adjust] at hk
    split at hk
    · obtain ⟨q, hq, rfl⟩ := Option.map_eq_some_iff.1 hk
      exact (hf.pid q).trans (h.pid_eq hq)
    · exact h.pid_eq hk
  child_iff p k := by rw [hasChild_adjust hf, hasParent_adjust hf, h.child_iff]
  parent_running {k p} hk := by
    obtain ⟨q, hq, hrun⟩ := h.parent_running ((hasParent_adjust hf).1 hk)
    rw [get?_adjust]
    split
    · exact ⟨f q, by rw [hq]; rfl, (hf.state q).trans hrun⟩
    · exact ⟨q, hq, hrun⟩
  exited hk he := by
    rw [get?_adjust] at hk
    split at hk
    · next e =>
      subst e
      obtain ⟨q, hq, rfl⟩ := Option.map_eq_some_iff.1 hk
      rw [hr] at hq; cases hq
      simp [Record.isExited, hf.state, hs] at he
    · exact h.exited hk he
  acyclic k hk := h.acyclic k (.mono (fun _ _ => (hasParent_adjust hf).1) hk)

/-- A running record may change where the links and the counts do not see it. -/
theorem Sound.adjust (h : t.Sound) (hf : Inner f) (hr : t.get? pid = some r)
    (hs : r.state = .running) : (t.adjust pid f).Sound where
  forest := h.forest.adjust hf hr hs
  counted := h.counted.trans (tally_adjust_of_state t.records pid f hf.state).symm
  allotted := h.allotted.congr rfl fun k => by
    rw [get?_adjust]
    split
    · simp
    · rfl

/-- Why a join is refused: the target is no child of the caller, or another task waits on it. -/
def Unjoinable (t : Table) (caller child : Pid) (task : TaskId) : Prop :=
  ¬ t.HasParent child caller ∨ ∃ r other, t.get? child = some r ∧ r.parent = some caller ∧
    r.waiter = some other ∧ other ≠ task

/-- What the critical section of a join finds, and the table it leaves. -/
inductive Look (t : Table) (caller child : Pid) (task : TaskId) : JoinCheck × Table → Prop where
  | notChild : ¬ t.HasParent child caller → Look t caller child task (.notChild, t)
  | collected {r : Record} {status : ExitStatus} : t.get? child = some r →
      r.parent = some caller → r.state = .exited status →
      Look t caller child task (.collected status (some r), t.removed child r)
  | busy {r : Record} {other : TaskId} : t.get? child = some r → r.parent = some caller →
      r.state = .running → r.waiter = some other → other ≠ task →
      Look t caller child task (.busy, t)
  | waiting {r : Record} : t.get? child = some r → r.parent = some caller → r.state = .running →
      (∀ other, r.waiter = some other → other = task) →
      Look t caller child task
        (.waiting, t.adjust child fun r => { r with waiter := some task })

theorem checkJoin_look (h : t.Sound) (caller child : Pid) (task : TaskId) :
    Look t caller child task (t.checkJoin caller child task) := by
  unfold checkJoin
  split
  case isTrue hn =>
    refine .notChild fun hp => ?_
    obtain ⟨r, hr, hk⟩ := (h.forest.child_iff caller child).2 hp
    simp [hr, hk] at hn
  case isFalse hn =>
    obtain ⟨r, hr, hp⟩ : t.HasParent child caller := by
      refine (h.forest.child_iff caller child).1 ?_
      cases hq : t.get? caller with
      | none => simp [hq] at hn
      | some q => exact ⟨q, hq, by simpa [hq] using hn⟩
    simp only [hr]
    cases hs : r.state with
    | exited status =>
      have hex : r.isExited = true := by simp [Record.isExited, hs]
      simp only [remove_eq h.counted hr (h.forest.exited hr hex).2.2.1]
      exact .collected hr hp hs
    | running =>
      cases hw : r.waiter with
      | none => exact .waiting hr hp hs fun other e => by rw [hw] at e; cases e
      | some other =>
        by_cases e : other = task
        · subst e
          simp only [Option.any_some, ne_eq, decide_not, decide_true, Bool.not_true,
            Bool.false_eq_true, ↓reduceIte]
          exact .waiting hr hp hs fun other' e => by rw [hw] at e; exact (Option.some.inj e).symm
        · simp only [Option.any_some, ne_eq, e, not_false_eq_true, decide_true, ↓reduceIte]
          exact .busy hr hp hs hw e

/-- An ended child is nobody's parent: its record may be taken out. -/
theorem Sound.collected (h : t.Sound) (hr : t.get? k = some r) (he : r.isExited = true) :
    (t.removed k r).Sound :=
  h.removed hr (h.forest.no_child hr (h.forest.exited hr he).2.1)

end Table

end Lifecycle
