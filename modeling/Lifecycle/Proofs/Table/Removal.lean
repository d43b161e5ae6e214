import Lifecycle.Proofs.Table.Invariants

/-!
# Taking records out of the table

A removal and the roll-back of a launch take one record out. `Table.withdraw` is the table without
it, and with the allocator as it was: `remove_eq` and `rollback_eq` say that the two operations
fail none of their checks and what they leave.

The record may have no children left: then the forest stays one (`Forest.withdraw`), and the
table stays sound (`Sound.removed`, `Sound.rolledBack`).
-/

namespace Lifecycle

namespace PidAllocator

variable {a : PidAllocator} {pid : Pid}

theorem range_unreserve (a : PidAllocator) (pid : Pid) : (a.unreserve pid).range = a.range := by
  unfold unreserve
  split <;> rfl

/-- The counter goes back to the number that is given back. -/
theorem toNat_rewound (last : pid.number + 1 = a.next) :
    (a.next - 1).toNat = pid.number.toNat := by
  rw [← last, UInt32.add_sub_cancel]

end PidAllocator

namespace Table

variable {t t' : Table} {k p pid : Pid} {r : Record}

theorem tally_forgetChild (t : Table) (parent : Option Pid) (child : Pid) :
    (t.forgetChild parent child).records.tally (fun r => !r.isExited) =
      t.records.tally (fun r => !r.isExited) := by
  cases parent with
  | none => rfl
  | some p =>
    refine tally_adjust_of_state t.records p _ ?_
    exact fun _ => rfl

/-! ## The table without a record -/

/-- The table without the record `r` of `pid`, with the allocator as it was. -/
def withdraw (t : Table) (pid : Pid) (r : Record) : Table :=
  ({ t with
      records := t.records.erase pid
      running := t.running - if r.isExited then 0 else 1 }).forgetChild r.parent pid

/-- The table after a removal. -/
def removed (t : Table) (pid : Pid) (r : Record) : Table :=
  { t.withdraw pid r with pids := t.pids.dealloc pid }

/-- The table after the roll-back of a launch. -/
def rolledBack (t : Table) (pid : Pid) (r : Record) : Table :=
  { t.withdraw pid r with pids := t.pids.unreserve pid }

theorem get?_withdraw (t : Table) (pid k : Pid) (r : Record) : (t.withdraw pid r).get? k =
    if pid = k then none else (t.get? k).map (relink r.parent (·.remove pid) k) := by
  rw [withdraw, get?_forgetChild]
  show Option.map _ ((t.records.erase pid).get? k) = _
  rw [PidMap.get?_erase]
  split
  · rfl
  · rfl

@[simp] theorem get?_removed (t : Table) (pid k : Pid) (r : Record) :
    (t.removed pid r).get? k = (t.withdraw pid r).get? k := rfl

@[simp] theorem get?_rolledBack (t : Table) (pid k : Pid) (r : Record) :
    (t.rolledBack pid r).get? k = (t.withdraw pid r).get? k := rfl

theorem sameBounds_withdraw (t : Table) (pid : Pid) (r : Record) :
    t.SameBounds (t.withdraw pid r) := by
  unfold withdraw
  cases r.parent <;> exact ⟨rfl, rfl, rfl⟩

theorem sameBounds_removed (t : Table) (pid : Pid) (r : Record) :
    t.SameBounds (t.removed pid r) :=
  ⟨(t.sameBounds_withdraw pid r).capacity, rfl, rfl⟩

@[simp] theorem pids_withdraw (t : Table) (pid : Pid) (r : Record) :
    (t.withdraw pid r).pids = t.pids := pids_forgetChild _ _ _

/-- A running record is counted. -/
theorem Counted.running_pos (hc : t.Counted) (hr : t.get? pid = some r)
    (he : r.isExited = false) : 0 < t.running := by
  rw [hc]
  exact PidMap.tally_pos _ hr (by simp [he])

theorem lowerRunning_eq (h : 0 < t.running) :
    t.lowerRunning = some { t with running := t.running - 1 } := by
  rw [lowerRunning, if_neg (Nat.ne_of_gt h)]

theorem unlink_eq (hc : t.Counted) (hr : t.get? pid = some r) (hw : r.waiter = none) :
    t.unlink pid = (.taken r, t.withdraw pid r) := by
  simp only [unlink, hr, hw, Option.isSome_none, Bool.false_eq_true, ↓reduceIte, withdraw]
  by_cases he : r.isExited = true
  · simp [he]
  · have hpos := hc.running_pos hr (Bool.eq_false_iff.2 he)
    rw [lowerRunning_eq (t := { t with records := t.records.erase pid }) hpos]
    simp [he]

theorem remove_eq (hc : t.Counted) (hr : t.get? pid = some r) (hw : r.waiter = none) :
    t.remove pid = (.taken r, t.removed pid r) := by
  simp only [remove, unlink_eq hc hr hw, removed, pids_withdraw]

theorem rollback_eq (hc : t.Counted) (hr : t.get? pid = some r) (hw : r.waiter = none) :
    t.rollback pid = (.taken r, t.rolledBack pid r) := by
  simp only [rollback, unlink_eq hc hr hw, rolledBack, pids_withdraw]

/-! ## Invariants -/

theorem Counted.withdraw (h : t.Counted) (hr : t.get? pid = some r) :
    (t.withdraw pid r).Counted := by
  unfold Counted Table.withdraw
  rw [running_forgetChild, tally_forgetChild]
  have := PidMap.tally_erase (fun r => !r.isExited) hr
  show t.running - _ = (t.records.erase pid).tally _
  rw [h, this]
  cases r.isExited <;> simp

theorem isSome_get?_withdraw (t : Table) (pid k : Pid) (r : Record) :
    ((t.withdraw pid r).get? k).isSome = true ↔ pid ≠ k ∧ (t.get? k).isSome = true := by
  rw [get?_withdraw]
  split
  · next e => simp [e]
  · next ne => simp [ne]

theorem Allotted.removed (h : t.Allotted) (hr : t.get? pid = some r) :
    (t.removed pid r).Allotted := by
  have hfree : pid ∉ t.pids.recycled := by
    intro hm
    rw [h.apart pid hm] at hr
    cases hr
  have hsome : (t.get? pid).isSome = true := by rw [hr]; rfl
  refine ⟨h.next_le, ?_, fun k hk => ?_, fun k => ?_⟩
  · refine List.nodup_append.2 ⟨h.nodup, by simp, fun a ha b hb => ?_⟩
    rw [List.mem_singleton.1 hb]
    exact fun e => hfree (e ▸ ha)
  · rw [get?_removed, get?_withdraw]
    split
    · rfl
    · next ne =>
      rcases List.mem_append.1 hk with hk | hk
      · rw [h.apart k hk]; rfl
      · exact absurd (List.mem_singleton.1 hk).symm ne
  · rw [get?_removed, isSome_get?_withdraw]
    show k.number.toNat < t.pids.next.toNat ↔ _ ∨ k ∈ t.pids.recycled ++ [pid]
    rw [h.below k, List.mem_append, List.mem_singleton]
    by_cases e : k = pid
    · subst e; simp [hsome]
    · simp [e, Ne.symm e]

theorem Allotted.rolledBack (h : t.Allotted) (hr : t.get? pid = some r) :
    (t.rolledBack pid r).Allotted := by
  unfold Table.rolledBack PidAllocator.unreserve
  split
  case isFalse => exact h.removed hr
  case isTrue last =>
    -- `pid` is the largest number below the counter, and no recycled one.
    have hlt := h.lt_next hr
    have hle := h.next_le
    have hroom := t.pids.range.room
    have hnext := PidAllocator.toNat_rewound last
    have hlast : t.pids.next.toNat = pid.number.toNat + 1 := by
      rw [← last, UInt32.toNat_add]
      exact Nat.mod_eq_of_lt (show pid.number.toNat + 1 < UInt32.size by omega)
    have hfree : pid ∉ t.pids.recycled := by
      intro hm
      rw [h.apart pid hm] at hr
      cases hr
    refine ⟨?_, h.nodup, fun k hk => ?_, fun k => ?_⟩
    · show (t.pids.next - 1).toNat ≤ t.pids.range.largest.toNat + 1
      omega
    · show (t.withdraw pid r).get? k = none
      rw [get?_withdraw, h.apart k hk]
      split <;> rfl
    · show k.number.toNat < (t.pids.next - 1).toNat ↔
        ((t.withdraw pid r).get? k).isSome = true ∨ k ∈ t.pids.recycled
      rw [hnext, isSome_get?_withdraw]
      have hk := h.below k
      by_cases e : pid = k
      · subst e
        simp [hfree]
      · have : k.number.toNat ≠ pid.number.toNat := fun e' => e (Pid.toNat_inj.1 e').symm
        have hlt : k.number.toNat < pid.number.toNat ↔ k.number.toNat < t.pids.next.toNat := by
          omega
        rw [hlt, hk]
        simp [e]

theorem hasParent_withdraw : (t.withdraw pid r).HasParent k p ↔ pid ≠ k ∧ t.HasParent k p := by
  unfold HasParent
  rw [get?_withdraw]
  split
  · next e => simp [e]
  · next ne => cases t.get? k <;> simp [ne]

theorem hasChild_withdraw : (t.withdraw pid r).HasChild p k ↔
    pid ≠ p ∧ t.HasChild p k ∧ ¬ (r.parent = some p ∧ k = pid) := by
  unfold HasChild
  rw [get?_withdraw]
  split
  · next e => simp [e]
  · next ne =>
    cases h : t.get? p with
    | none => simp
    | some q => simp [ne, has_relink_remove]

/-- Fewer parent links have fewer ancestors. -/
theorem Ancestor.mono (h : ∀ k p, t'.HasParent k p → t.HasParent k p) {a : Pid}
    (ha : t'.Ancestor a k) : t.Ancestor a k := by
  induction ha with
  | single hk => exact .single (h _ _ hk)
  | tail _ hk ih => exact .tail ih (h _ _ hk)

/-- Only the records matter. -/
theorem Forest.congr (h : t.Forest) (hg : ∀ k, t'.get? k = t.get? k) : t'.Forest := by
  have hp : ∀ k p, t'.HasParent k p ↔ t.HasParent k p := by
    intro k p
    unfold HasParent; rw [hg]
  refine ⟨fun hr => h.pid_eq (hg _ ▸ hr), fun p k => ?_, fun hk => ?_,
    fun hr => h.exited (hg _ ▸ hr), fun k hk => h.acyclic k (.mono (fun a b => (hp a b).1) hk)⟩
  · rw [hp, ← h.child_iff]
    unfold HasChild; rw [hg]
  · rw [hg]
    exact h.parent_running ((hp _ _).1 hk)

theorem Forest.withdraw (h : t.Forest) (hr : t.get? pid = some r) (hc : ∀ c, ¬ t.HasParent c pid) :
    (t.withdraw pid r).Forest where
  pid_eq hk := by
    rw [get?_withdraw] at hk
    split at hk
    · cases hk
    · obtain ⟨q, hq, rfl⟩ := Option.map_eq_some_iff.1 hk
      rw [relink_pid]
      exact h.pid_eq hq
  child_iff p k := by
    rw [hasChild_withdraw, hasParent_withdraw, h.child_iff]
    constructor
    · rintro ⟨-, hp, hn⟩
      refine ⟨fun e => hn ?_, hp⟩
      subst e
      obtain ⟨q, hq, hpar⟩ := hp
      rw [hr] at hq; cases hq
      exact ⟨hpar, rfl⟩
    · rintro ⟨ne, hp⟩
      exact ⟨fun e => hc k (e ▸ hp), hp, fun hn => ne hn.2.symm⟩
  parent_running {k p} hk := by
    have hp := (hasParent_withdraw.1 hk).2
    obtain ⟨q, hq, hs⟩ := h.parent_running hp
    have ne : pid ≠ p := fun e => hc k (e ▸ hp)
    exact ⟨relink r.parent (·.remove pid) p q, by rw [get?_withdraw, if_neg ne, hq]; rfl,
      relink_state.trans hs⟩
  exited hk he := by
    rw [get?_withdraw] at hk
    split at hk
    · cases hk
    · obtain ⟨q, hq, rfl⟩ := Option.map_eq_some_iff.1 hk
      obtain ⟨hp, hch, hw, hs⟩ := h.exited hq (by simpa using he)
      exact ⟨by simpa using hp, relink_remove_empty hch, by simpa using hw, by simpa using hs⟩
  acyclic k hk := h.acyclic k (.mono (fun _ _ hp => (hasParent_withdraw.1 hp).2) hk)

theorem Sound.removed (h : t.Sound) (hr : t.get? pid = some r) (hc : ∀ c, ¬ t.HasParent c pid) :
    (t.removed pid r).Sound :=
  ⟨(h.forest.withdraw hr hc).congr fun _ => rfl, h.counted.withdraw hr, h.allotted.removed hr⟩

theorem Sound.rolledBack (h : t.Sound) (hr : t.get? pid = some r) (hc : ∀ c, ¬ t.HasParent c pid) :
    (t.rolledBack pid r).Sound :=
  ⟨(h.forest.withdraw hr hc).congr fun _ => rfl, h.counted.withdraw hr, h.allotted.rolledBack hr⟩

end Table

end Lifecycle
