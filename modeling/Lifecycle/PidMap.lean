import Lifecycle.Pid

/-!
# Finite maps over process identifiers

`PidMap α` holds its entries in increasing order of their PIDs, so a map is determined by its
look-ups (`PidMap.ext`) and listing it needs no sorting. `PidSet` is the map to `Unit`.

Each operation has one lemma that says what a look-up finds after it: `get?_insert`,
`get?_erase`, `get?_adjust`.
-/

namespace Lifecycle

/-- A finite map from PIDs, listed in increasing order. -/
structure PidMap (α : Type) where
  entries : List (Pid × α)
  sorted : entries.Pairwise (fun a b => a.1 < b.1)

namespace PidMap

variable {α : Type}

instance [DecidableEq α] : DecidableEq (PidMap α) := fun a b =>
  decidable_of_iff (a.entries = b.entries) (by cases a; cases b; simp)

instance : Inhabited (PidMap α) := ⟨⟨[], .nil⟩⟩

/-- The map without entries. -/
def empty : PidMap α := ⟨[], .nil⟩

/-- The number of entries. -/
def size (m : PidMap α) : Nat := m.entries.length

/-- The PIDs with an entry, in increasing order. -/
def keys (m : PidMap α) : List Pid := m.entries.map (·.1)

/-- The values, in the order of their PIDs. -/
def values (m : PidMap α) : List α := m.entries.map (·.2)

/-- The value stored under a PID. -/
def lookup (k : Pid) : List (Pid × α) → Option α
  | [] => none
  | (k', v) :: es => if k' = k then some v else lookup k es

/-- The value stored under `k`. -/
def get? (m : PidMap α) (k : Pid) : Option α := lookup k m.entries

/-- `k` has an entry. -/
def contains (m : PidMap α) (k : Pid) : Bool := (m.get? k).isSome

/-- Places the entry `(k, v)` by the order of the PIDs, over an earlier value of `k`. -/
def place (k : Pid) (v : α) : List (Pid × α) → List (Pid × α)
  | [] => [(k, v)]
  | (k', v') :: es =>
    if k < k' then (k, v) :: (k', v') :: es
    else if k' = k then (k, v) :: es
    else (k', v') :: place k v es

theorem mem_place {k : Pid} {v : α} {e : Pid × α} {es : List (Pid × α)} (h : e ∈ place k v es) :
    e = (k, v) ∨ e ∈ es := by
  induction es with
  | nil => simpa [place] using h
  | cons a es ih =>
    simp only [place] at h
    split at h
    · simpa using h
    · split at h
      · rcases List.mem_cons.1 h with h | h
        · exact .inl h
        · exact .inr (List.mem_cons_of_mem _ h)
      · rcases List.mem_cons.1 h with h | h
        · exact .inr (h ▸ List.mem_cons_self)
        · exact (ih h).imp_right (List.mem_cons_of_mem _)

theorem place_sorted (k : Pid) (v : α) {es : List (Pid × α)}
    (h : es.Pairwise (fun a b => a.1 < b.1)) : (place k v es).Pairwise (fun a b => a.1 < b.1) := by
  induction es with
  | nil => simp [place]
  | cons a es ih =>
    rw [List.pairwise_cons] at h
    simp only [place]
    split
    case isTrue hlt =>
      refine List.pairwise_cons.2 ⟨fun b hb => ?_, List.pairwise_cons.2 h⟩
      rcases List.mem_cons.1 hb with rfl | hb
      · exact hlt
      · exact Pid.lt_trans hlt (h.1 b hb)
    case isFalse hlt =>
      split
      case isTrue e => exact List.pairwise_cons.2 ⟨fun b hb => e ▸ h.1 b hb, h.2⟩
      case isFalse ne =>
        refine List.pairwise_cons.2 ⟨fun b hb => ?_, ih h.2⟩
        rcases mem_place hb with rfl | hb
        · exact (Pid.lt_or_lt_of_ne ne).resolve_right hlt
        · exact h.1 b hb

/-- The map with `v` under `k`. -/
def insert (m : PidMap α) (k : Pid) (v : α) : PidMap α :=
  ⟨place k v m.entries, place_sorted k v m.sorted⟩

/-- The map without an entry for `k`. -/
def erase (m : PidMap α) (k : Pid) : PidMap α :=
  ⟨m.entries.filter (fun e => e.1 ≠ k), m.sorted.filter _⟩

/-- The map with `f` applied to the value under `k`, if there is one. -/
def adjust (m : PidMap α) (k : Pid) (f : α → α) : PidMap α where
  entries := m.entries.map (fun e => if e.1 = k then (e.1, f e.2) else e)
  sorted := by
    refine List.pairwise_map.2 (m.sorted.imp fun {a b} h => ?_)
    split <;> split <;> exact h

/-! ## Look-ups -/

theorem lookup_eq_some_iff {k : Pid} {v : α} {es : List (Pid × α)}
    (h : es.Pairwise (fun a b => a.1 < b.1)) : lookup k es = some v ↔ (k, v) ∈ es := by
  induction es with
  | nil => simp [lookup]
  | cons a es ih =>
    obtain ⟨k', v'⟩ := a
    rw [List.pairwise_cons] at h
    simp only [lookup, List.mem_cons]
    split
    case isTrue e =>
      subst e
      constructor
      · intro h'; cases h'; exact .inl rfl
      · rintro (h' | h')
        · cases h'; rfl
        · exact absurd (h.1 _ h') (Pid.lt_irrefl _)
    case isFalse ne =>
      rw [ih h.2]
      constructor
      · exact .inr
      · rintro (h' | h')
        · cases h'; exact absurd rfl ne
        · exact h'

theorem get?_eq_some_iff {m : PidMap α} {k : Pid} {v : α} :
    m.get? k = some v ↔ (k, v) ∈ m.entries := lookup_eq_some_iff m.sorted

theorem mem_keys_iff {m : PidMap α} {k : Pid} : k ∈ m.keys ↔ (m.get? k).isSome := by
  simp only [keys, List.mem_map, Option.isSome_iff_exists, get?_eq_some_iff]
  constructor
  · rintro ⟨e, he, rfl⟩; exact ⟨e.2, he⟩
  · rintro ⟨v, hv⟩; exact ⟨_, hv, rfl⟩

theorem keys_nodup (m : PidMap α) : m.keys.Nodup :=
  List.pairwise_map.2 (m.sorted.imp Pid.ne_of_lt)

@[simp] theorem get?_empty (k : Pid) : (empty : PidMap α).get? k = none := rfl

@[simp] theorem size_empty : (empty : PidMap α).size = 0 := rfl

theorem lookup_place (k k' : Pid) (v : α) {es : List (Pid × α)} :
    lookup k' (place k v es) = if k = k' then some v else lookup k' es := by
  induction es with
  | nil => simp [place, lookup]
  | cons a es ih =>
    simp only [place]
    split
    · simp only [lookup]
    · split
      case isTrue e =>
        simp only [lookup]
        split
        · rfl
        · rw [if_neg (e ▸ ‹¬ k = k'›)]
      case isFalse ne =>
        simp only [lookup, ih]
        split
        · rename_i e
          rw [if_neg (fun h => ne (e.trans h.symm))]
        · rfl

@[grind =] theorem get?_insert (m : PidMap α) (k k' : Pid) (v : α) :
    (m.insert k v).get? k' = if k = k' then some v else m.get? k' := lookup_place k k' v

@[simp] theorem get?_insert_self (m : PidMap α) (k : Pid) (v : α) :
    (m.insert k v).get? k = some v := by simp [get?_insert]

theorem get?_insert_of_ne (m : PidMap α) {k k' : Pid} (v : α) (h : k ≠ k') :
    (m.insert k v).get? k' = m.get? k' := by simp [get?_insert, h]

@[grind =] theorem get?_erase (m : PidMap α) (k k' : Pid) :
    (m.erase k).get? k' = if k = k' then none else m.get? k' := by
  simp only [get?, erase]
  induction m.entries with
  | nil => simp [lookup]
  | cons a es ih =>
    by_cases h : a.1 = k
    · simp only [h, ne_eq, not_true_eq_false, decide_false, Bool.false_eq_true,
        not_false_eq_true, List.filter_cons_of_neg, lookup]
      rw [ih]
      split
      · rfl
      · rfl
    · simp only [ne_eq, h, not_false_eq_true, decide_true, List.filter_cons_of_pos, lookup, ih]
      split
      · rename_i e
        rw [if_neg (fun e' => h (e.trans e'.symm))]
      · rfl

@[simp] theorem get?_erase_self (m : PidMap α) (k : Pid) : (m.erase k).get? k = none := by
  simp [get?_erase]

theorem get?_erase_of_ne (m : PidMap α) {k k' : Pid} (h : k ≠ k') :
    (m.erase k).get? k' = m.get? k' := by simp [get?_erase, h]

@[grind =] theorem get?_adjust (m : PidMap α) (k k' : Pid) (f : α → α) :
    (m.adjust k f).get? k' = if k = k' then (m.get? k').map f else m.get? k' := by
  simp only [get?, adjust]
  induction m.entries with
  | nil => simp [lookup]
  | cons a es ih =>
    by_cases h : a.1 = k
    · simp only [List.map_cons, h, if_true, lookup, ih]
      split <;> simp_all
    · simp only [List.map_cons, h, if_false, lookup, ih]
      split
      · rename_i e
        rw [if_neg (fun e' => h (e.trans e'.symm))]
      · rfl

/-- A map is determined by its look-ups. -/
theorem ext {a b : PidMap α} (h : ∀ k, a.get? k = b.get? k) : a = b := by
  obtain ⟨es, hes⟩ := a
  obtain ⟨fs, hfs⟩ := b
  have key : ∀ e, e ∈ es ↔ e ∈ fs := fun e => by
    have := h e.1
    simp only [get?] at this
    rw [← lookup_eq_some_iff (v := e.2) hes, this, lookup_eq_some_iff (v := e.2) hfs]
  have : es = fs := by
    clear h
    induction es generalizing fs with
    | nil =>
      cases fs with
      | nil => rfl
      | cons b fs => exact absurd ((key b).2 List.mem_cons_self) List.not_mem_nil
    | cons a es ih =>
      cases fs with
      | nil => exact absurd ((key a).1 List.mem_cons_self) List.not_mem_nil
      | cons b fs =>
        rw [List.pairwise_cons] at hes hfs
        have hab : a = b := by
          rcases List.mem_cons.1 ((key a).1 List.mem_cons_self) with h | h
          · exact h
          · rcases List.mem_cons.1 ((key b).2 List.mem_cons_self) with h' | h'
            · exact h'.symm
            · exact absurd (hes.1 _ h') (Pid.lt_asymm (hfs.1 _ h))
        subst hab
        rw [ih hes.2 fs hfs.2 (fun e => ?_)]
        have he := key e
        simp only [List.mem_cons] at he
        constructor
        · intro h
          rcases he.1 (.inr h) with rfl | h'
          · exact absurd (hes.1 _ h) (Pid.lt_irrefl _)
          · exact h'
        · intro h
          rcases he.2 (.inr h) with rfl | h'
          · exact absurd (hfs.1 _ h) (Pid.lt_irrefl _)
          · exact h'
  subst this
  rfl

end PidMap

/-- A finite set of PIDs, listed in increasing order. -/
abbrev PidSet := PidMap Unit

namespace PidSet

/-- `k` is in the set. -/
def has (s : PidSet) (k : Pid) : Bool := s.contains k

/-- The set with `k`. -/
def add (s : PidSet) (k : Pid) : PidSet := s.insert k ()

/-- The set without `k`. -/
def remove (s : PidSet) (k : Pid) : PidSet := s.erase k

/-- How a set is written inside a larger value. -/
def describe (s : PidSet) : String :=
  "\x7b" ++ ", ".intercalate (s.keys.map Pid.describe) ++ "\x7d"

end PidSet

end Lifecycle
