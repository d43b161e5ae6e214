import Lifecycle.Proofs.Table.Invariants

/-!
# Registering a process

`Table.admitted` is the table with a new record. `allocate_eq` says that an allocation that is not
refused leaves it: the PID that the allocator hands out is the PID of no record
(`Allotted.alloc`). A new record is a leaf of the forest, so the forest stays one
(`Forest.admitted`), and the table stays sound (`Sound.admitted`).
-/

namespace Lifecycle

namespace PidAllocator

/-- Counting on from a number of the range is no overflow. -/
theorem toNat_next {a : PidAllocator} (h : a.next ≤ a.range.largest) :
    (a.next + 1).toNat = a.next.toNat + 1 := by
  have hroom := a.range.room
  have hle : a.next.toNat ≤ a.range.largest.toNat := UInt32.le_iff_toNat_le.1 h
  rw [UInt32.toNat_add]
  exact Nat.mod_eq_of_lt (show a.next.toNat + 1 < UInt32.size by omega)

theorem alloc_eq_some {a a' : PidAllocator} {pid : Pid} (h : a.alloc = some (pid, a')) :
    (a.next ≤ a.range.largest ∧ pid = ⟨a.next⟩ ∧ a' = { a with next := a.next + 1 }) ∨
    (¬ a.next ≤ a.range.largest ∧ ∃ rest, a.recycled = pid :: rest ∧
      a' = { a with recycled := rest }) := by
  unfold alloc at h
  split at h
  case isTrue hle => cases h; exact .inl ⟨hle, rfl, rfl⟩
  case isFalse hle =>
    split at h
    · cases h
    · next hr => cases h; exact .inr ⟨hle, _, hr, rfl⟩

/-- The first number is that of the root process. -/
theorem alloc_new {range : PidRange} {pid : Pid} {pids : PidAllocator}
    (ha : (new range).alloc = some (pid, pids)) : pid = .root := by
  rcases alloc_eq_some ha with ⟨-, rfl, -⟩ | ⟨-, rest, hr, -⟩
  · rfl
  · cases hr

theorem range_alloc {a a' : PidAllocator} {pid : Pid} (h : a.alloc = some (pid, a')) :
    a'.range = a.range := by
  rcases alloc_eq_some h with ⟨-, -, rfl⟩ | ⟨-, _, -, rfl⟩ <;> rfl

theorem alloc_eq_none_iff {a : PidAllocator} :
    a.alloc = none ↔ a.range.largest < a.next ∧ a.recycled = [] := by
  unfold alloc
  split
  case isTrue hle => simp [UInt32.not_lt.2 hle]
  case isFalse hle =>
    split
    · next hr => simpa [hr] using hle
    · next hr => simp [hr]

end PidAllocator

namespace Table

variable {t : Table} {k p pid : Pid} {r : Record} {pids : PidAllocator}

/-- The table with the new record `r`, and with the allocator that handed out its PID. -/
def admitted (t : Table) (pids : PidAllocator) (r : Record) : Table :=
  ({ t with pids := pids }).register r

theorem get?_admitted (t : Table) (pids : PidAllocator) (k : Pid) (hr : r.parent ≠ some r.pid) :
    (t.admitted pids r).get? k =
      if r.pid = k then some r else (t.get? k).map (relink r.parent (·.add r.pid) k) := by
  have hi : (t.records.insert r.pid r).get? k = if r.pid = k then some r else t.get? k :=
    PidMap.get?_insert _ _ _ _
  unfold admitted register
  cases hp : r.parent with
  | none =>
    show (t.records.insert r.pid r).get? k = _
    rw [hi]
    split
    · rfl
    · cases t.get? k <;> simp [relink]
  | some p =>
    refine (get?_adjust_children _ p k (·.add r.pid)).trans ?_
    show ((t.records.insert r.pid r).get? k).map _ = _
    rw [hi]
    split
    · next e =>
      have : (some p : Option Pid) ≠ some k := fun h => hr (by rw [hp, h, e])
      simp [relink, this]
    · rfl

@[simp] theorem pids_admitted : (t.admitted pids r).pids = pids := by
  unfold admitted register
  cases r.parent <;> rfl

@[simp] theorem running_admitted : (t.admitted pids r).running = t.running + 1 := by
  unfold admitted register
  cases r.parent <;> rfl

@[simp] theorem capacity_admitted : (t.admitted pids r).capacity = t.capacity := by
  unfold admitted register
  cases r.parent <;> rfl

/-- The PID that the allocator hands out is the PID of no record. -/
theorem Allotted.alloc (h : t.Allotted) (ha : t.pids.alloc = some (pid, pids)) :
    t.get? pid = none := by
  rcases PidAllocator.alloc_eq_some ha with ⟨-, rfl, -⟩ | ⟨-, rest, hr, -⟩
  · cases hg : t.get? ⟨t.pids.next⟩ with
    | none => rfl
    | some r => exact absurd (h.lt_next hg) (Nat.lt_irrefl _)
  · exact h.apart pid (by rw [hr]; exact List.mem_cons_self)

/-- Every number below the counter is the PID of a record or a recycled one. -/
theorem Allotted.count_add (h : t.Allotted) :
    t.count + t.pids.recycled.length = t.pids.next.toNat := by
  have hks : (t.records.keys ++ t.pids.recycled).Nodup := by
    refine List.nodup_append.2 ⟨PidMap.keys_nodup _, h.nodup, fun k hk k' hk' e => ?_⟩
    have hk := PidMap.mem_keys_iff.1 hk
    rw [show t.records.get? k = none from h.apart k (e ▸ hk')] at hk
    cases hk
  have hnd : ((t.records.keys ++ t.pids.recycled).map (·.number.toNat)).Nodup :=
    List.pairwise_map.2 (hks.imp fun ne e => ne (Pid.toNat_inj.1 e))
  have hp := (List.perm_ext_iff_of_nodup hnd (List.nodup_range (n := t.pids.next.toNat))).2
    fun n => by
      rw [List.mem_range, List.mem_map]
      constructor
      · rintro ⟨k, hk, rfl⟩
        refine (h.below k).2 ((List.mem_append.1 hk).imp_left PidMap.mem_keys_iff.1)
      · intro hn
        have hlt : n < UInt32.size := Nat.lt_trans hn t.pids.next.toNat_lt
        have he : (UInt32.ofNatLT n hlt).toNat = n := UInt32.toNat_ofNatLT
        refine ⟨⟨UInt32.ofNatLT n hlt⟩, List.mem_append.2 ?_, he⟩
        exact ((h.below ⟨UInt32.ofNatLT n hlt⟩).1 (by rw [he]; exact hn)).imp_left
          PidMap.mem_keys_iff.2
  have := hp.length_eq
  rw [List.length_map, List.length_append, List.length_range] at this
  simpa [count, PidMap.size, PidMap.keys] using this

/-- The allocator is at its end exactly when every number of the range is the PID of a record. -/
theorem Allotted.alloc_eq_none_iff (h : t.Allotted) :
    t.pids.alloc = none ↔ t.pids.range.largest.toNat < t.count := by
  have hc := h.count_add
  have hle := h.next_le
  rw [PidAllocator.alloc_eq_none_iff, UInt32.lt_iff_toNat_lt, ← List.length_eq_zero_iff]
  omega

theorem Allotted.contains (h : t.Allotted) (ha : t.pids.alloc = some (pid, pids)) :
    t.pids.range.Contains pid := by
  rcases PidAllocator.alloc_eq_some ha with ⟨hle, rfl, -⟩ | ⟨-, rest, hr, -⟩
  · exact hle
  · have hlt := (h.below pid).2 (.inr (by rw [hr]; exact List.mem_cons_self))
    have hle := h.next_le
    exact UInt32.le_iff_toNat_le.2 (by omega)

/-- A registered parent is not the new process. -/
theorem Allotted.parent_ne (h : t.Allotted) (ha : t.pids.alloc = some (pid, pids))
    {parent : Option Pid}
    (hp : ∀ p, parent = some p → ∃ r, t.get? p = some r ∧ r.state = .running) :
    parent ≠ some pid := by
  intro e
  obtain ⟨r, hr, -⟩ := hp pid e
  rw [h.alloc ha] at hr
  cases hr

/-- An allocation is refused and changes nothing, or it admits a new record. -/
theorem allocate_eq (h : t.Allotted) (parent : Option Pid) (name : String) :
    (∃ e, t.allocate parent name = (.refused e, t)) ∨
    ∃ pid pids, t.pids.alloc = some (pid, pids) ∧
      (∀ p, parent = some p → ∃ r, t.get? p = some r ∧ r.state = .running) ∧
      t.allocate parent name = (.ok pid, t.admitted pids (.new pid parent name)) := by
  unfold allocate
  split
  case isTrue => exact .inl ⟨_, rfl⟩
  case isFalse hp =>
    split
    · exact .inl ⟨_, rfl⟩
    · cases ha : t.pids.alloc with
      | none => exact .inl ⟨_, rfl⟩
      | some a =>
        obtain ⟨pid, pids⟩ := a
        refine .inr ⟨pid, pids, rfl, fun p e => ?_, ?_⟩
        · subst e
          cases hq : t.running? p with
          | none => simp [hq] at hp
          | some r => exact ⟨r, running?_eq_some_iff.1 hq⟩
        · have hf : t.records.contains pid = false := by
            rw [PidMap.contains, show t.records.get? pid = none from h.alloc ha]
            rfl
          simp only [hf, Bool.false_eq_true, ↓reduceIte, admitted]

/-- An allocation that is not refused has a running parent and finds room. -/
theorem allocate_ok {t' : Table} {parent : Option Pid} {name : String}
    (h : t.allocate parent name = (.ok pid, t')) :
    (∀ p, parent = some p → ∃ r, t.get? p = some r ∧ r.state = .running) ∧
      t.count < t.capacity := by
  unfold allocate at h
  split at h
  · cases h
  · next hp =>
    split at h
    · cases h
    · next hc =>
      refine ⟨fun p e => ?_, Nat.lt_of_not_le hc⟩
      subst e
      cases hq : t.running? p with
      | none => simp [hq] at hp
      | some r => exact ⟨r, running?_eq_some_iff.1 hq⟩

/-- Why an allocation is refused. -/
theorem allocate_refused {t' : Table} {parent : Option Pid} {name : String} {e : ProcessError}
    (h : t.Allotted) (he : t.allocate parent name = (.refused e, t')) :
    if parent.any (fun p => (t.running? p).isNone) then e = .notFound
    else e = .resourceExhausted ∧
      (t.capacity ≤ t.count ∨ t.pids.range.largest.toNat < t.count) := by
  unfold allocate at he
  split at he
  case isTrue hp => cases he; rw [if_pos hp]
  case isFalse hp =>
    rw [if_neg hp]
    split at he
    · next hc => cases he; exact ⟨rfl, .inl hc⟩
    · split at he
      · next ha => cases he; exact ⟨rfl, .inr (h.alloc_eq_none_iff.1 ha)⟩
      · dsimp only at he
        split at he <;> cases he

/-! ## Invariants -/

theorem Counted.admitted (h : t.Counted) (hf : t.get? r.pid = none) (hr : r.isExited = false) :
    (t.admitted pids r).Counted := by
  have hi := PidMap.tally_insert (fun r : Record => !r.isExited) hf r
  have hn : (t.records.insert r.pid r).tally (fun r => !r.isExited) = t.running + 1 := by
    rw [hi, h]
    simp [hr]
  unfold Counted
  rw [running_admitted]
  unfold Table.admitted register
  cases r.parent with
  | none => exact hn.symm
  | some p =>
    refine hn.symm.trans (tally_adjust_of_state (t.records.insert r.pid r) p _ ?_).symm
    exact fun _ => rfl

theorem isSome_get?_admitted (hr : r.parent ≠ some r.pid) :
    ((t.admitted pids r).get? k).isSome = true ↔ r.pid = k ∨ (t.get? k).isSome = true := by
  rw [get?_admitted t pids k hr]
  split
  · next e => simp [e]
  · next ne => simp [ne]

theorem Allotted.admitted (h : t.Allotted) (ha : t.pids.alloc = some (r.pid, pids))
    (hr : r.parent ≠ some r.pid) : (t.admitted pids r).Allotted := by
  have hle := h.next_le
  rcases PidAllocator.alloc_eq_some ha with ⟨hin, hp, rfl⟩ | ⟨-, rest, hrec, rfl⟩
  · have hn := PidAllocator.toNat_next hin
    have hin : t.pids.next.toNat ≤ t.pids.range.largest.toNat := UInt32.le_iff_toNat_le.1 hin
    have hnum : r.pid.number.toNat = t.pids.next.toNat := by rw [hp]
    refine ⟨?_, by simpa using h.nodup, fun k hk => ?_, fun k => ?_⟩
    · simp only [pids_admitted, hn]
      omega
    · rw [pids_admitted] at hk
      have hlt := (h.below k).2 (.inr hk)
      rw [get?_admitted t _ k hr, if_neg, h.apart k hk]
      · rfl
      · rintro rfl
        omega
    · rw [isSome_get?_admitted hr, pids_admitted]
      show k.number.toNat < (t.pids.next + 1).toNat ↔ _ ∨ k ∈ t.pids.recycled
      have hb := h.below k
      by_cases e : r.pid = k
      · subst e
        simp [hn, hnum]
      · have : k.number.toNat ≠ r.pid.number.toNat := fun e' => e (Pid.toNat_inj.1 e').symm
        rw [show k.number.toNat < (t.pids.next + 1).toNat ↔ k.number.toNat < t.pids.next.toNat by
          omega, hb]
        simp [e]
  · have hnd := h.nodup
    rw [hrec, List.nodup_cons] at hnd
    refine ⟨by simpa using hle, by simpa using hnd.2, fun k hk => ?_, fun k => ?_⟩
    · rw [pids_admitted] at hk
      rw [get?_admitted t _ k hr, if_neg, h.apart k (by rw [hrec]; exact List.mem_cons_of_mem _ hk)]
      · rfl
      · rintro rfl
        exact hnd.1 hk
    · rw [isSome_get?_admitted hr, pids_admitted]
      have hb := h.below k
      rw [hrec, List.mem_cons] at hb
      show k.number.toNat < t.pids.next.toNat ↔ _ ∨ k ∈ rest
      rw [hb, eq_comm (a := k)]
      grind

section links

variable (hf : t.get? r.pid = none) (hr : r.parent ≠ some r.pid)
include hf hr

theorem hasParent_admitted : (t.admitted pids r).HasParent k p ↔
    (k = r.pid ∧ r.parent = some p) ∨ t.HasParent k p := by
  unfold HasParent
  rw [get?_admitted t pids k hr]
  split
  · next e => subst e; simp [hf]
  · next ne => cases t.get? k <;> simp [Ne.symm ne]

theorem hasChild_admitted (hc : r.children = .empty) : (t.admitted pids r).HasChild p k ↔
    (t.HasChild p k ∨ (r.parent = some p ∧ k = r.pid ∧ (t.get? p).isSome = true)) := by
  unfold HasChild
  rw [get?_admitted t pids p hr]
  split
  · next e => subst e; simp [hf, hc]
  · next ne =>
    cases h : t.get? p with
    | none => simp
    | some q => simp [has_relink_add]

/-- A new leaf closes no cycle of parent links: no link leads on from it. -/
theorem Ancestor.of_admitted (hl : ∀ c, ¬ (t.admitted pids r).HasParent c r.pid) {a : Pid}
    (ha : (t.admitted pids r).Ancestor a k) : t.Ancestor a k ∨ k = r.pid := by
  induction ha with
  | single hk =>
    rcases (hasParent_admitted hf hr).1 hk with ⟨e, -⟩ | hk
    · exact .inr e
    · exact .inl (.single hk)
  | tail _ hk ih =>
    rcases (hasParent_admitted hf hr).1 hk with ⟨e, -⟩ | hk'
    · exact .inr e
    · rcases ih with ih | rfl
      · exact .inl (.tail ih hk')
      · exact absurd hk (hl _)

theorem Forest.admitted (h : t.Forest) (hc : r.children = .empty) (hs : r.isExited = false)
    (hp : ∀ p, r.parent = some p → ∃ q, t.get? p = some q ∧ q.state = .running) :
    (t.admitted pids r).Forest := by
  have leaf : ∀ c, ¬ (t.admitted pids r).HasParent c r.pid := by
    intro c hcp
    rcases (hasParent_admitted hf hr).1 hcp with ⟨-, e⟩ | hcp
    · exact hr e
    · obtain ⟨q, hq, -⟩ := h.parent_running hcp
      rw [hf] at hq
      cases hq
  refine ⟨fun hk => ?_, fun p k => ?_, fun hk => ?_, fun hk he => ?_, fun k hk => ?_⟩
  · rw [get?_admitted t pids _ hr] at hk
    split at hk
    · next e => cases hk; exact e
    · obtain ⟨q, hq, rfl⟩ := Option.map_eq_some_iff.1 hk
      exact relink_pid.trans (h.pid_eq hq)
  · rw [hasChild_admitted hf hr hc, hasParent_admitted hf hr, h.child_iff]
    constructor
    · rintro (hk | ⟨hpar, e, -⟩)
      · exact .inr hk
      · exact .inl ⟨e, hpar⟩
    · rintro (⟨e, hpar⟩ | hk)
      · obtain ⟨q, hq, -⟩ := hp _ hpar
        exact .inr ⟨hpar, e, by rw [hq]; rfl⟩
      · exact .inl hk
  · next k p =>
    obtain ⟨q, hq, hrun⟩ : ∃ q, t.get? p = some q ∧ q.state = .running := by
      rcases (hasParent_admitted hf hr).1 hk with ⟨-, hpar⟩ | hk
      · exact hp _ hpar
      · exact h.parent_running hk
    have ne : r.pid ≠ p := fun e => by rw [e, hq] at hf; cases hf
    exact ⟨relink r.parent (·.add r.pid) p q, by rw [get?_admitted t pids p hr, if_neg ne, hq]; rfl,
      relink_state.trans hrun⟩
  · rw [get?_admitted t pids _ hr] at hk
    split at hk
    · cases hk; rw [hs] at he; cases he
    · next k' rk _ =>
      obtain ⟨q, hq, rfl⟩ := Option.map_eq_some_iff.1 hk
      have he : q.isExited = true := by simpa using he
      obtain ⟨h1, h2, h3, h4⟩ := h.exited hq he
      -- An ended process is not the parent of the new one.
      have ne : r.parent ≠ some k' := by
        intro e
        obtain ⟨q', hq', hrun⟩ := hp _ e
        rw [hq] at hq'; cases hq'
        simp [Record.isExited, hrun] at he
      simp only [relink, if_neg ne]
      exact ⟨h1, h2, h3, h4⟩
  · rcases Ancestor.of_admitted hf hr leaf hk with hk | e
    · exact h.acyclic k hk
    · obtain ⟨c, hc⟩ := hk.hasParent
      exact leaf c (e ▸ hc)

end links

theorem Sound.admitted (h : t.Sound) {parent : Option Pid} {name : String}
    (ha : t.pids.alloc = some (pid, pids))
    (hp : ∀ p, parent = some p → ∃ q, t.get? p = some q ∧ q.state = .running) :
    (t.admitted pids (.new pid parent name)).Sound := by
  have hf := h.allotted.alloc ha
  have hr : (Record.new pid parent name).parent ≠ some pid := h.allotted.parent_ne ha hp
  exact ⟨h.forest.admitted hf hr rfl rfl hp, h.counted.admitted hf rfl, h.allotted.admitted ha hr⟩

end Table

end Lifecycle
