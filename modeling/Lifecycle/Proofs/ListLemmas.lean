/-!
# Places and keys in lists

A sequence of commands and the log of a run are lists, and a place in one is a split
`before ++ a :: behind` (`split_cases`). In a list of keys and values without a key twice the order
does not matter (`lookup_perm`). A count changes with the one member that changes (`countP_update`).
`gather f l` is what the members of `l` hold together,
where `f` says what each of them holds: a change of one member changes it there alone
(`gather_set_perm`).
-/

namespace Lifecycle

/-- Of two places in a list one is behind the other. -/
theorem split_cases {α : Type} {a b l l' : List α} {x y : α} (h : a ++ x :: l = b ++ y :: l')
    (hne : l ≠ l') :
    (∃ mid, b = a ++ x :: mid ∧ l = mid ++ y :: l') ∨
      ∃ mid, a = b ++ y :: mid ∧ l' = mid ++ x :: l := by
  rcases List.append_eq_append_iff.1 h with ⟨mid, hb, hm⟩ | ⟨mid, ha, hm⟩
  · cases mid with
    | nil => exact absurd (List.cons.inj hm).2 hne
    | cons z mid =>
      obtain ⟨rfl, hl⟩ := List.cons.inj hm
      exact .inl ⟨mid, hb, hl⟩
  · cases mid with
    | nil => exact absurd (List.cons.inj hm).2.symm hne
    | cons z mid =>
      obtain ⟨rfl, hl⟩ := List.cons.inj hm
      exact .inr ⟨mid, ha, hl⟩

section lookup

variable {α β : Type} [DecidableEq α] {l l' : List (α × β)} {k : α} {v : β}

theorem lookup_eq_some_iff_mem (hn : (l.map Prod.fst).Nodup) :
    l.lookup k = some v ↔ (k, v) ∈ l := by
  induction l with
  | nil => simp
  | cons e l ih =>
    obtain ⟨k', v'⟩ := e
    obtain ⟨hk, hn⟩ := List.nodup_cons.1 hn
    rw [List.lookup_cons, List.mem_cons, Prod.mk.injEq]
    by_cases e : k = k'
    · subst e
      have hv : (k, v) ∉ l := fun hv => hk (List.mem_map.2 ⟨_, hv, rfl⟩)
      simp [hv, eq_comm]
    · simp [beq_eq_false_iff_ne.2 e, e, ih hn]

/-- The order of the entries does not matter. -/
theorem lookup_perm (hp : l'.Perm l) (hn : (l.map Prod.fst).Nodup) (k : α) :
    l'.lookup k = l.lookup k := Option.ext fun v => by
  rw [lookup_eq_some_iff_mem hn, lookup_eq_some_iff_mem ((hp.map _).nodup_iff.2 hn), hp.mem_iff]

end lookup

/-- Only the member `a` may count for another number. -/
theorem countP_update {α : Type} [DecidableEq α] {l : List α} {a : α} {p q : α → Bool}
    (hn : l.Nodup) (ha : a ∈ l) (h : ∀ b ∈ l, b ≠ a → p b = q b) :
    l.countP q + (p a).toNat = l.countP p + (q a).toNat := by
  have hperm := List.perm_cons_erase ha
  have hrest : (l.erase a).countP p = (l.erase a).countP q := by
    refine List.countP_congr fun b hb => ?_
    have hne : b ≠ a := fun e => hn.not_mem_erase (e ▸ hb)
    rw [h b (List.mem_of_mem_erase hb) hne]
  rw [hperm.countP_eq p, hperm.countP_eq q, List.countP_cons, List.countP_cons, hrest]
  cases p a <;> cases q a <;> simp

section gather

variable {α β : Type} {f g : Nat → α → List β} {l : List α} {i : Nat} {a a' : α}

/-- What the members of a list hold together, each by its place. -/
def gather (f : Nat → α → List β) (l : List α) : List β := (l.mapIdx f).flatten

theorem gather_concat (f : Nat → α → List β) (l : List α) (a : α) :
    gather f (l ++ [a]) = gather f l ++ f l.length a := by
  simp [gather, List.mapIdx_append]

theorem gather_eq_nil (h : ∀ i a, l[i]? = some a → f i a = []) : gather f l = [] := by
  refine List.flatten_eq_nil_iff.2 fun u hu => ?_
  obtain ⟨i, hi⟩ := List.mem_iff_getElem?.1 hu
  rw [List.getElem?_mapIdx] at hi
  obtain ⟨a, ha, rfl⟩ := Option.map_eq_some_iff.1 hi
  exact h i a ha

theorem mem_gather {b : β} : b ∈ gather f l ↔ ∃ i a, l[i]? = some a ∧ b ∈ f i a := by
  simp only [gather, List.mem_flatten, List.mem_iff_getElem? (l := List.mapIdx _ _),
    List.getElem?_mapIdx, Option.map_eq_some_iff]
  constructor
  · rintro ⟨_, ⟨i, a, ha, rfl⟩, hb⟩
    exact ⟨i, a, ha, hb⟩
  · rintro ⟨i, a, ha, hb⟩
    exact ⟨_, ⟨i, a, ha, rfl⟩, hb⟩

theorem flatten_set_perm {u : List β} (v : List β) {ls : List (List β)} (h : ls[i]? = some u) :
    ((ls.set i v).flatten ++ u).Perm (ls.flatten ++ v) := by
  induction ls generalizing i with
  | nil => cases h
  | cons w ws ih =>
    cases i with
    | zero =>
      obtain rfl : w = u := Option.some.inj h
      rw [List.set_cons_zero, List.flatten_cons, List.flatten_cons, List.append_assoc]
      exact List.perm_append_comm.trans (List.perm_append_comm.append_right v)
    | succ i =>
      rw [List.set_cons_succ, List.flatten_cons, List.flatten_cons, List.append_assoc,
        List.append_assoc]
      exact (ih h).append_left w

/-- One member changes, and the others hold what they held. -/
theorem gather_set_perm (h : l[i]? = some a)
    (hg : ∀ j b, j ≠ i → l[j]? = some b → g j b = f j b) :
    (gather g (l.set i a') ++ f i a).Perm (gather f l ++ g i a') := by
  have hset : (l.set i a').mapIdx g = (l.mapIdx f).set i (g i a') := by
    refine List.ext_getElem? fun j => ?_
    rw [List.getElem?_mapIdx, List.getElem?_set, List.getElem?_set, List.getElem?_mapIdx,
      List.length_mapIdx]
    by_cases hij : i = j
    · subst hij
      simp [(List.getElem?_eq_some_iff.1 h).1]
    · simp only [if_neg hij]
      cases hj : l[j]? with
      | none => rfl
      | some b => exact congrArg some (hg j b (Ne.symm hij) hj)
  have hi : (l.mapIdx f)[i]? = some (f i a) := by rw [List.getElem?_mapIdx, h]; rfl
  unfold gather
  rw [hset]
  exact flatten_set_perm (g i a') hi

end gather

end Lifecycle
