import Lifecycle.Table
import Lifecycle.Proofs.PidMapLemmas

/-!
# Invariants of the process table

The facts that every critical section of the kernel keeps.

* `Table.Forest`: the parent links and the child sets are two sides of the same links, which form
  a forest; only running processes have children, and an exited record has given everything back.
* `Table.Counted`: the count of running records is right.
* `Table.Allotted`: the numbers below the counter of the allocator are the PIDs of the records and
  the recycled ones, each of them once.
* `Table.Sound`: all three.
-/

namespace Lifecycle

namespace Table

/-- `k` is registered with the parent `p`. -/
def HasParent (t : Table) (k p : Pid) : Prop := ∃ r, t.get? k = some r ∧ r.parent = some p

/-- `k` is in the child set of the registered process `p`. -/
def HasChild (t : Table) (p k : Pid) : Prop := ∃ r, t.get? p = some r ∧ r.children.has k = true

instance (t : Table) (k p : Pid) : Decidable (t.HasParent k p) :=
  decidable_of_iff ((t.get? k).any (fun r => r.parent = some p) = true) (by
    simp [HasParent, Option.any_eq_true])

instance (t : Table) (p k : Pid) : Decidable (t.HasChild p k) :=
  decidable_of_iff ((t.get? p).any (fun r => r.children.has k) = true) (by
    simp [HasChild, Option.any_eq_true])

/-- `a` is the parent of `k`, or the parent of an ancestor of `k`. -/
def Ancestor (t : Table) : Pid → Pid → Prop := Relation.TransGen fun p k => t.HasParent k p

/-- The parent links form a forest (module doc). -/
structure Forest (t : Table) : Prop where
  pid_eq : ∀ {k r}, t.get? k = some r → r.pid = k
  child_iff : ∀ p k, t.HasChild p k ↔ t.HasParent k p
  parent_running : ∀ {k p}, t.HasParent k p → ∃ r, t.get? p = some r ∧ r.state = .running
  exited : ∀ {k r}, t.get? k = some r → r.isExited = true →
    r.parent.isSome = true ∧ r.children = .empty ∧ r.waiter = none ∧ r.space = none
  acyclic : ∀ k, ¬ t.Ancestor k k

/-- The count of running records is right. -/
def Counted (t : Table) : Prop := t.running = t.records.tally (fun r => !r.isExited)

/-- The numbers below the counter are the registered and the recycled ones (module doc). -/
structure Allotted (t : Table) : Prop where
  next_le : t.pids.next.toNat ≤ t.pids.range.largest.toNat + 1
  nodup : t.pids.recycled.Nodup
  apart : ∀ k ∈ t.pids.recycled, t.get? k = none
  below : ∀ k : Pid, k.number.toNat < t.pids.next.toNat ↔
    (t.get? k).isSome = true ∨ k ∈ t.pids.recycled

/-- `t'` has the limits of `t`, and its allocator goes on from the same number. -/
structure SameBounds (t t' : Table) : Prop where
  capacity : t'.capacity = t.capacity
  range : t'.pids.range = t.pids.range
  next : t'.pids.next = t.pids.next

/-- The invariants of the table. -/
structure Sound (t : Table) : Prop where
  forest : t.Forest
  counted : t.Counted
  allotted : t.Allotted

variable {t t' : Table} {k p pid : Pid} {r : Record}

/-! ## Look-ups -/

@[simp] theorem get?_adjust (t : Table) (pid k : Pid) (f : Record → Record) :
    (t.adjust pid f).get? k = if pid = k then (t.get? k).map f else t.get? k :=
  PidMap.get?_adjust _ _ _ _

@[simp] theorem pids_adjust (t : Table) (pid : Pid) (f : Record → Record) :
    (t.adjust pid f).pids = t.pids := rfl

@[simp] theorem running_adjust (t : Table) (pid : Pid) (f : Record → Record) :
    (t.adjust pid f).running = t.running := rfl

/-- The record `r` of `k` with `f` applied to its child set, if `k` is the parent `parent`. -/
def relink (parent : Option Pid) (f : PidSet → PidSet) (k : Pid) (r : Record) : Record :=
  if parent = some k then { r with children := f r.children } else r

theorem get?_adjust_children (t : Table) (p k : Pid) (f : PidSet → PidSet) :
    (t.adjust p fun r => { r with children := f r.children }).get? k =
      (t.get? k).map (relink (some p) f k) := by
  by_cases h : p = k
  · rw [get?_adjust, if_pos h]
    exact Option.map_congr fun r _ => (if_pos (congrArg some h)).symm
  · rw [get?_adjust, if_neg h]
    exact (Option.map_id_apply ..).symm.trans
      (Option.map_congr fun r _ => (if_neg (fun e => h (Option.some.inj e))).symm)

/-- Only the states are counted. -/
theorem tally_adjust_of_state (m : PidMap Record) (p : Pid) (f : Record → Record)
    (hf : ∀ r, (f r).state = r.state) :
    (m.adjust p f).tally (fun r => !r.isExited) = m.tally (fun r => !r.isExited) :=
  PidMap.tally_adjust_of_eq _ f fun r => by rw [Record.isExited, Record.isExited, hf]

theorem get?_forgetChild (t : Table) (parent : Option Pid) (child k : Pid) :
    (t.forgetChild parent child).get? k = (t.get? k).map (relink parent (·.remove child) k) := by
  cases parent with
  | none => cases h : t.get? k <;> simp [forgetChild, h, relink]
  | some p => exact get?_adjust_children t p k (·.remove child)

section relink

variable {parent : Option Pid} {f : PidSet → PidSet}

@[simp] theorem relink_none : relink none f k r = r := if_neg (fun h => nomatch h)

theorem relink_of_ne (f : PidSet → PidSet) (h : p ≠ k) : relink (some p) f k r = r :=
  if_neg fun e => h (Option.some.inj e)

@[simp] theorem relink_pid : (relink parent f k r).pid = r.pid := by unfold relink; split <;> rfl

@[simp] theorem relink_parent : (relink parent f k r).parent = r.parent := by
  unfold relink; split <;> rfl

@[simp] theorem relink_state : (relink parent f k r).state = r.state := by
  unfold relink; split <;> rfl

@[simp] theorem relink_isExited : (relink parent f k r).isExited = r.isExited := by
  simp [Record.isExited]

@[simp] theorem relink_waiter : (relink parent f k r).waiter = r.waiter := by
  unfold relink; split <;> rfl

@[simp] theorem relink_space : (relink parent f k r).space = r.space := by
  unfold relink; split <;> rfl

theorem has_relink_remove {child c : Pid} :
    (relink parent (·.remove child) k r).children.has c = true ↔
      r.children.has c = true ∧ ¬ (parent = some k ∧ c = child) := by
  unfold relink
  split
  · next h =>
    simp only [PidSet.has_remove, Bool.and_eq_true, decide_eq_true_eq, h, true_and]
    exact ⟨fun ⟨ne, hc⟩ => ⟨hc, Ne.symm ne⟩, fun ⟨hc, ne⟩ => ⟨Ne.symm ne, hc⟩⟩
  · next h => simp [h]

theorem has_relink_add {child c : Pid} :
    (relink parent (·.add child) k r).children.has c = true ↔
      r.children.has c = true ∨ (parent = some k ∧ c = child) := by
  unfold relink
  split
  · next h =>
    simp only [PidSet.has_add, Bool.or_eq_true, decide_eq_true_eq, h, true_and]
    exact ⟨fun hc => hc.symm.imp_right Eq.symm, fun hc => hc.symm.imp_left Eq.symm⟩
  · next h => simp [h]

theorem relink_remove_empty {child : Pid} (h : r.children = .empty) :
    (relink parent (·.remove child) k r).children = .empty := PidSet.eq_empty fun c =>
  Bool.eq_false_iff.2 fun hc => by
    have := (has_relink_remove.1 hc).1
    rw [h] at this
    cases this

end relink

@[simp] theorem pids_forgetChild (t : Table) (parent : Option Pid) (child : Pid) :
    (t.forgetChild parent child).pids = t.pids := by
  cases parent <;> rfl

theorem sameBounds_adjust (t : Table) (pid : Pid) (f : Record → Record) :
    t.SameBounds (t.adjust pid f) := ⟨rfl, rfl, rfl⟩

theorem sameBounds_forgetChild (t : Table) (parent : Option Pid) (child : Pid) :
    t.SameBounds (t.forgetChild parent child) := by
  cases parent <;> exact ⟨rfl, rfl, rfl⟩

theorem SameBounds.trans {t'' : Table} (h : t.SameBounds t') (h' : t'.SameBounds t'') :
    t.SameBounds t'' :=
  ⟨h'.capacity.trans h.capacity, h'.range.trans h.range, h'.next.trans h.next⟩

@[simp] theorem running_forgetChild (t : Table) (parent : Option Pid) (child : Pid) :
    (t.forgetChild parent child).running = t.running := by
  cases parent <;> rfl

theorem running?_eq_some_iff :
    t.running? pid = some r ↔ t.get? pid = some r ∧ r.state = .running := by
  simp only [running?, Option.filter_eq_some_iff, Record.isExited, Bool.not_eq_true',
    ProcessState.isExited_eq_false_iff]

/-! ## The initial table -/

theorem sound_new (capacity : Nat) (range : PidRange) : (new capacity range).Sound where
  forest := {
    pid_eq := fun h => nomatch h
    child_iff := fun p k => ⟨fun ⟨_, h, _⟩ => (nomatch h), fun ⟨_, h, _⟩ => (nomatch h)⟩
    parent_running := fun ⟨_, h, _⟩ => nomatch h
    exited := fun h => nomatch h
    acyclic := fun k h => by
      cases h with
      | single h => obtain ⟨_, h, _⟩ := h; exact nomatch h
      | tail _ h => obtain ⟨_, h, _⟩ := h; exact nomatch h }
  counted := rfl
  allotted := {
    next_le := Nat.zero_le _
    nodup := List.nodup_nil
    apart := fun _ h => nomatch h
    below := fun k => by
      refine ⟨fun h => absurd h (Nat.not_lt_zero _), fun h => ?_⟩
      rcases h with h | h
      · exact nomatch h
      · exact nomatch h }

/-! ## Facts of sound tables -/

/-- An ancestor is somebody's parent. -/
theorem Ancestor.hasParent {a : Pid} (h : t.Ancestor a k) : ∃ c, t.HasParent c a := by
  induction h with
  | single hk => exact ⟨_, hk⟩
  | tail _ _ ih => exact ih

namespace Forest

theorem parent_ne (h : t.Forest) (hp : t.HasParent k p) : p ≠ k := fun e =>
  h.acyclic k (.single (e ▸ hp))

/-- A record without children is nobody's parent. -/
theorem no_child (h : t.Forest) (hr : t.get? k = some r) (hc : r.children = .empty) (c : Pid) :
    ¬ t.HasParent c k := by
  intro hp
  obtain ⟨r', hr', hh⟩ := (h.child_iff k c).2 hp
  rw [hr] at hr'; cases hr'
  rw [hc] at hh
  cases hh

/-- What the parent's child set tells of a child. -/
theorem child_of_has (h : t.Forest) (hr : t.get? p = some r) (hk : r.children.has k = true) :
    ∃ c, t.get? k = some c ∧ c.parent = some p :=
  (h.child_iff p k).1 ⟨r, hr, hk⟩

end Forest

theorem Allotted.lt_next (h : t.Allotted) (hr : t.get? k = some r) :
    k.number.toNat < t.pids.next.toNat := (h.below k).2 (.inl (by rw [hr]; rfl))

/-- The PID of a record is a number of the range. -/
theorem Allotted.contains_of_get? (h : t.Allotted) (hr : t.get? k = some r) :
    t.pids.range.Contains k := by
  have hlt := h.lt_next hr
  have hle := h.next_le
  exact UInt32.le_iff_toNat_le.2 (by omega)

/-- Only the PIDs in use and the allocator matter. -/
theorem Allotted.congr (h : t.Allotted) (hp : t'.pids = t.pids)
    (hg : ∀ k, (t'.get? k).isSome = (t.get? k).isSome) : t'.Allotted where
  next_le := hp ▸ h.next_le
  nodup := hp ▸ h.nodup
  apart k hk := by
    have := h.apart k (hp ▸ hk)
    have hs := hg k
    rw [this] at hs
    simpa using hs
  below k := by rw [hp, hg]; exact h.below k

end Table

end Lifecycle
