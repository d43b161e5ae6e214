import Lifecycle.PidMap

/-!
# Counting in finite maps over process identifiers

`PidMap.tally p m` is the number of entries of `m` whose value satisfies `p`. The three operations
change it by the entry they add, take out or change: `tally_insert`, `tally_erase`,
`tally_adjust`. The size of a map goes the same way. `PidMap.map` changes the values alone, and
`PidMap.filterMap` also leaves entries out.

A set of PIDs is known by `PidSet.has`.
-/

namespace Lifecycle

namespace PidMap

variable {α : Type} {m : PidMap α} {k : Pid} {v : α}

/-- The map with `f` applied to every value. -/
def map {β : Type} (f : α → β) (m : PidMap α) : PidMap β where
  entries := m.entries.map fun e => (e.1, f e.2)
  sorted := List.pairwise_map.2 m.sorted

@[simp] theorem get?_map {β : Type} (f : α → β) (m : PidMap α) (k : Pid) :
    (m.map f).get? k = (m.get? k).map f := by
  simp only [get?, map]
  induction m.entries with
  | nil => rfl
  | cons e es ih =>
    simp only [List.map_cons, lookup, ih]
    split <;> rfl

@[simp] theorem size_map {β : Type} (f : α → β) (m : PidMap α) : (m.map f).size = m.size :=
  List.length_map _

/-- The map of what `f` gives, without the entries for which it gives nothing. -/
def filterMap {β : Type} (f : α → Option β) (m : PidMap α) : PidMap β where
  entries := m.entries.filterMap fun e => (f e.2).map (e.1, ·)
  sorted := by
    refine List.pairwise_filterMap.2 (m.sorted.imp fun {a b} h c hc d hd => ?_)
    obtain ⟨_, -, rfl⟩ := Option.map_eq_some_iff.1 hc
    obtain ⟨_, -, rfl⟩ := Option.map_eq_some_iff.1 hd
    exact h

@[simp] theorem get?_filterMap {β : Type} (f : α → Option β) (m : PidMap α) (k : Pid) :
    (m.filterMap f).get? k = (m.get? k).bind f := by
  ext b
  rw [get?_eq_some_iff, Option.bind_eq_some_iff]
  simp only [filterMap, List.mem_filterMap, Option.map_eq_some_iff, get?_eq_some_iff]
  constructor
  · rintro ⟨e, he, b', hb, heq⟩
    cases heq
    exact ⟨e.2, he, hb⟩
  · rintro ⟨v, hv, hb⟩
    exact ⟨(k, v), hv, b, hb, rfl⟩

/-- The number of entries whose value satisfies `p`. -/
def tally (p : α → Bool) (m : PidMap α) : Nat := m.values.countP p

theorem perm_cons_filter {es : List (Pid × α)} (hs : es.Pairwise (fun a b => a.1 < b.1))
    (h : (k, v) ∈ es) : es.Perm ((k, v) :: es.filter (fun e => e.1 ≠ k)) := by
  induction es with
  | nil => cases h
  | cons a es ih =>
    rw [List.pairwise_cons] at hs
    rcases List.mem_cons.1 h with rfl | h
    · have hk : es.filter (fun e => e.1 ≠ k) = es :=
        List.filter_eq_self.2 fun e he => decide_eq_true (Pid.ne_of_lt (hs.1 e he)).symm
      rw [List.filter_cons_of_neg (by simp), hk]
    · have ha : a.1 ≠ k := Pid.ne_of_lt (hs.1 _ h)
      rw [List.filter_cons_of_pos (by simpa using ha)]
      exact ((ih hs.2 h).cons a).trans (.swap _ _ _)

/-- The entries of a map are one of them and those of the map without its key. -/
theorem entries_perm (h : m.get? k = some v) : m.entries.Perm ((k, v) :: (m.erase k).entries) :=
  perm_cons_filter m.sorted (get?_eq_some_iff.1 h)

theorem values_perm (h : m.get? k = some v) : m.values.Perm (v :: (m.erase k).values) :=
  (entries_perm h).map Prod.snd

theorem erase_insert (h : m.get? k = none) (v : α) : (m.insert k v).erase k = m :=
  ext fun k' => by
    rw [get?_erase]
    split
    · next e => rw [← e, h]
    · next ne => rw [get?_insert_of_ne _ _ ne]

theorem erase_adjust (m : PidMap α) (k : Pid) (f : α → α) : (m.adjust k f).erase k = m.erase k :=
  ext fun k' => by
    rw [get?_erase, get?_erase, get?_adjust]
    split
    · rfl
    · rfl

@[simp] theorem adjust_id (m : PidMap α) (k : Pid) : m.adjust k id = m :=
  ext fun k' => by
    rw [get?_adjust]
    split
    · exact Option.map_id_apply ..
    · rfl

theorem adjust_adjust (m : PidMap α) (k : Pid) (f g : α → α) :
    (m.adjust k f).adjust k g = m.adjust k fun v => g (f v) :=
  ext fun k' => by
    simp only [get?_adjust]
    split
    · rw [Option.map_map]; rfl
    · rfl

@[simp] theorem size_adjust (m : PidMap α) (k : Pid) (f : α → α) : (m.adjust k f).size = m.size :=
  List.length_map _

theorem entries_eq_nil (h : ∀ k, m.get? k = none) : m.entries = [] := by
  refine List.eq_nil_iff_forall_not_mem.2 fun (k, v) hmem => ?_
  have hget : m.get? k = some v := get?_eq_some_iff.2 hmem
  rw [h] at hget
  cases hget

theorem size_insert (h : m.get? k = none) (v : α) : (m.insert k v).size = m.size + 1 := by
  have hp := (values_perm (get?_insert_self m k v)).length_eq
  rw [erase_insert h] at hp
  simpa [size, values] using hp

theorem size_erase_le (m : PidMap α) (k : Pid) : (m.erase k).size ≤ m.size :=
  List.length_filter_le _ _

theorem tally_erase (p : α → Bool) (h : m.get? k = some v) :
    m.tally p = (m.erase k).tally p + if p v then 1 else 0 := by
  rw [tally, (values_perm h).countP_eq, List.countP_cons]
  rfl

theorem tally_insert (p : α → Bool) (h : m.get? k = none) (v : α) :
    (m.insert k v).tally p = m.tally p + if p v then 1 else 0 := by
  rw [tally_erase p (get?_insert_self m k v), erase_insert h]

theorem tally_adjust (p : α → Bool) (f : α → α) (h : m.get? k = some v) :
    (m.adjust k f).tally p + (if p v then 1 else 0) = m.tally p + if p (f v) then 1 else 0 := by
  have hf : (m.adjust k f).get? k = some (f v) := by simp [get?_adjust, h]
  rw [tally_erase p hf, tally_erase p h, erase_adjust]
  omega

/-- A change that `p` does not see. -/
theorem tally_adjust_of_eq (p : α → Bool) (f : α → α) (hf : ∀ v, p (f v) = p v) :
    (m.adjust k f).tally p = m.tally p := by
  cases h : m.get? k with
  | some v =>
    have := tally_adjust p f h
    rw [hf] at this
    omega
  | none =>
    have : m.adjust k f = m := ext fun k' => by
      rw [get?_adjust]
      split
      · next e => rw [← e, h]; rfl
      · rfl
    rw [this]

theorem tally_map {β : Type} (p : β → Bool) (f : α → β) (m : PidMap α) :
    (m.map f).tally p = m.tally (p ∘ f) := by
  simp only [tally, values, map, List.countP_map]
  rfl

theorem tally_le_size (p : α → Bool) (m : PidMap α) : m.tally p ≤ m.size := by
  have := List.countP_le_length (p := p) (l := m.values)
  simpa [tally, size, values] using this

theorem tally_pos (p : α → Bool) (h : m.get? k = some v) (hp : p v = true) : 0 < m.tally p := by
  rw [tally_erase p h, if_pos hp]
  omega

theorem length_le_of_bounds {es : List (Pid × α)} {low high : Nat}
    (hs : es.Pairwise (fun a b => a.1 < b.1))
    (hb : ∀ e ∈ es, low ≤ e.1.number.toNat ∧ e.1.number.toNat < high) :
    es.length ≤ high - low := by
  induction es generalizing low with
  | nil => exact Nat.zero_le _
  | cons a es ih =>
    rw [List.pairwise_cons] at hs
    have ha := hb a List.mem_cons_self
    have hes : ∀ e ∈ es, low + 1 ≤ e.1.number.toNat ∧ e.1.number.toNat < high := by
      intro e he
      have := Pid.lt_iff.1 (hs.1 e he)
      have := hb e (List.mem_cons_of_mem _ he)
      omega
    have := ih hs.2 hes
    rw [List.length_cons]
    omega

/-- There are at most as many entries as numbers to name them. -/
theorem size_le {n : Nat} (h : ∀ k v, m.get? k = some v → k.number.toNat < n) : m.size ≤ n :=
  length_le_of_bounds m.sorted fun e he =>
    ⟨Nat.zero_le _, h e.1 e.2 (get?_eq_some_iff.2 he)⟩

end PidMap

namespace PidSet

variable {s : PidSet} {k k' : Pid}

@[simp] theorem has_empty (k : Pid) : has .empty k = false := rfl

@[grind =] theorem has_add : (s.add k).has k' = (decide (k = k') || s.has k') := by
  simp only [has, add, PidMap.contains, PidMap.get?_insert]
  by_cases h : k = k' <;> simp [h]

@[grind =] theorem has_remove : (s.remove k).has k' = (decide (k ≠ k') && s.has k') := by
  simp only [has, remove, PidMap.contains, PidMap.get?_erase]
  by_cases h : k = k' <;> simp [h]

theorem mem_keys_iff_has : k ∈ s.keys ↔ s.has k = true := PidMap.mem_keys_iff

theorem eq_empty (h : ∀ k, s.has k = false) : s = .empty :=
  PidMap.ext fun k => by
    have := h k
    simpa [has, PidMap.contains] using this

end PidSet

end Lifecycle
