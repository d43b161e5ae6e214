import Lifecycle.Proofs.Machine.Moves
import Lifecycle.Scenario.LoaderScript

/-!
# The balance of the page pool

A load takes pages out of the pool and a drop gives them back. Whatever the order of the two, the
pages in use are those of the address spaces that were built and are not dropped, and there are no
more of them than the machine has (`Balanced`). A drop therefore gives back no more than is in use.

* `Balanced.step`: each step of a loader script ends, and keeps the balance.
* `Balanced.after`: so does a whole script.
* `after_accounts`: what that says about the loads and the drops behind a script.
-/

namespace Lifecycle

/-- The two bounds on which `Registry.Fits` rests: the pages of each program fit in a register
together with those of the machine, and so do the bytes of the machine. -/
theorem Registry.fits_of_bounds {r : Registry} {pages : Nat}
    (hsum : ∀ name n body, r.get? name = some (.program n body) →
      n + Loader.stackPages + pages < UInt64.size)
    (hbytes : pages * Loader.pageSize < UInt64.size) : r.Fits pages := by
  intro name n body hg
  refine ⟨?_, fun hle => Nat.lt_of_le_of_lt (Nat.mul_le_mul_right _ hle) hbytes⟩
  rw [Nat.add_comm]
  exact hsum name n body hg

namespace Scenario

namespace LoaderBench

/-- A loader over `pages` free pages, which has built nothing. -/
def new (registry : Registry) (pages : Nat) : LoaderBench := ⟨.new registry pages, []⟩

/-- The bench after a script, unless a step is a fault of the machine. -/
def after (b : LoaderBench) : List LoaderStep → Except Fault LoaderBench
  | [] => .ok b
  | step :: rest =>
    match step.run b with
    | .ok (_, b) => b.after rest
    | .error fault => .error fault

/-- The address spaces that were built and are not dropped. -/
def held (b : LoaderBench) : List AddressSpace := b.slots.filterMap id

/-- The pages of the address spaces that were built and are not dropped. -/
def pagesHeld (b : LoaderBench) : Nat := (b.held.map (·.pages)).sum

/-- The pages in use are those of the address spaces (module doc). -/
structure Balanced (registry : Registry) (pages : Nat) (b : LoaderBench) : Prop where
  registry : b.loader.registry = registry
  total : b.loader.pool.total = pages
  used : b.loader.pool.used = b.pagesHeld
  room : b.loader.pool.used ≤ pages

variable {registry : Registry} {pages slot : Nat} {b : LoaderBench} {l : Loader}
  {slots : List (Option AddressSpace)} {space : AddressSpace}

/-! ## The address spaces -/

theorem pagesHeld_built :
    (⟨l, slots ++ [some space]⟩ : LoaderBench).pagesHeld =
      (⟨l, slots⟩ : LoaderBench).pagesHeld + space.pages := by
  simp [pagesHeld, held]

/-- A drop takes the address space of one slot, and no other. -/
theorem held_perm_dropped (h : b.slots[slot]? = some (some space)) :
    b.held.Perm (space :: (⟨l, b.slots.set slot none⟩ : LoaderBench).held) := by
  obtain ⟨hlt, hget⟩ := List.getElem?_eq_some_iff.1 h
  obtain ⟨before, behind, hslots, -, hset⟩ := @List.exists_of_set _ slot none b.slots hlt
  rw [hget] at hslots
  rw [held, held, hset, hslots, List.filterMap_append, List.filterMap_append]
  exact List.perm_middle

theorem pagesHeld_dropped (h : b.slots[slot]? = some (some space)) :
    b.pagesHeld = space.pages + (⟨l, b.slots.set slot none⟩ : LoaderBench).pagesHeld := by
  rw [pagesHeld, ((held_perm_dropped (l := l) h).map _).sum_nat, List.map_cons, List.sum_cons]
  rfl

/-! ## Steps -/

theorem balanced_new (registry : Registry) (pages : Nat) :
    (new registry pages).Balanced registry pages where
  registry := rfl
  total := rfl
  used := rfl
  room := Nat.zero_le _

namespace Balanced

variable (h : b.Balanced registry pages)
include h

/-- The pages of an address space are in use until it is dropped. -/
theorem used_drop (hs : b.slots[slot]? = some (some space)) :
    (b.loader.drop space).pool.used + space.pages = b.loader.pool.used := by
  have hp := pagesHeld_dropped (l := b.loader) hs
  have hu := h.used
  show b.loader.pool.used - space.pages + space.pages = b.loader.pool.used
  omega

theorem dropped (hs : b.slots[slot]? = some (some space)) :
    (⟨b.loader.drop space, b.slots.set slot none⟩ : LoaderBench).Balanced registry pages where
  registry := h.registry
  total := h.total
  used := by
    have hp := pagesHeld_dropped (l := b.loader.drop space) hs
    have hd := h.used_drop hs
    have hu := h.used
    show (b.loader.drop space).pool.used = _
    omega
  room := Nat.le_trans (Nat.sub_le ..) h.room

variable (hf : registry.Fits pages)
include hf

theorem load_ends (name : String) : ∃ answer l, b.loader.load name = (.ok answer, l) := by
  obtain ⟨rfl, rfl, -, hroom⟩ := h
  obtain ⟨answer, l, hl, -⟩ := Loader.load_eq hf hroom name
  exact ⟨answer, l, hl⟩

/-- A load takes the pages of what it has built out of the pool. -/
theorem load_leaves {name : String} {answer : Except LoadError LoadedImage}
    (hl : b.loader.load name = (.ok answer, l)) : l.registry = registry ∧
      l.pool = ⟨pages, b.loader.pool.used + pagesLoaded answer⟩ ∧ l.pool.used ≤ pages := by
  obtain ⟨rfl, rfl, -, hroom⟩ := h
  obtain ⟨answer', l', hl', hreg, htotal, hroom', hused⟩ := Loader.load_eq hf hroom name
  rw [hl] at hl'
  cases hl'
  exact ⟨hreg, congrArg₂ PagePool.mk htotal hused, hroom'⟩

theorem loaded {name : String} {image : LoadedImage}
    (hl : b.loader.load name = (.ok (.ok image), l)) :
    (⟨l, b.slots ++ [some image.space]⟩ : LoaderBench).Balanced registry pages := by
  obtain ⟨hreg, hpool, hroom⟩ := h.load_leaves hf hl
  refine ⟨hreg, by rw [hpool], ?_, hroom⟩
  rw [pagesHeld_built, hpool]
  exact congrArg (· + image.space.pages) h.used

/-- A load that fails leaves the pool as it was. -/
theorem load_failed {name : String} {e : LoadError}
    (hl : b.loader.load name = (.ok (.error e), l)) : l.pool = b.loader.pool := by
  rw [(h.load_leaves hf hl).2.1, ← h.total]
  rfl

theorem failed {name : String} {e : LoadError}
    (hl : b.loader.load name = (.ok (.error e), l)) :
    (⟨l, b.slots⟩ : LoaderBench).Balanced registry pages := by
  obtain ⟨hreg, -, hroom⟩ := h.load_leaves hf hl
  have hpool := h.load_failed hf hl
  exact ⟨hreg, by rw [hpool, h.total], by rw [hpool]; exact h.used, hroom⟩

/-- Each step ends, and keeps the balance. -/
theorem step (step : LoaderStep) : ∃ result b', step.run b = .ok (result, b') ∧
    b'.Balanced registry pages := by
  cases step with
  | load name =>
    obtain ⟨answer, l, hl⟩ := h.load_ends hf name
    rw [LoaderStep.run, hl]
    cases answer with
    | ok image => exact ⟨_, _, rfl, h.loaded hf hl⟩
    | error e => exact ⟨_, _, rfl, h.failed hf hl⟩
  | drop slot =>
    rw [LoaderStep.run]
    split
    · next space hs => exact ⟨_, _, rfl, h.dropped hs⟩
    · exact ⟨_, b, rfl, h⟩
  | hasBody name => exact ⟨_, b, rfl, h⟩

/-- A script ends, and keeps the balance. -/
theorem after (script : List LoaderStep) : ∃ b', b.after script = .ok b' ∧
    b'.Balanced registry pages := by
  induction script generalizing b with
  | nil => exact ⟨b, rfl, h⟩
  | cons step rest ih =>
    obtain ⟨result, b', hrun, h'⟩ := h.step hf step
    obtain ⟨b'', hafter, h''⟩ := ih h'
    exact ⟨b'', by rw [LoaderBench.after, hrun]; exact hafter, h''⟩

/-! ## Loads -/

/-- A program is loaded if the pages of its image and of its stack are free, and has then taken
them. -/
theorem load_program {name : String} {n : Nat} {body : Pid → Program}
    (hg : registry.get? name = some (.program n body)) :
    ((∃ image l, b.loader.load name = (.ok (.ok image), l)) ↔
        b.loader.pool.used + n + Loader.stackPages ≤ pages) ∧
      ∀ image l, b.loader.load name = (.ok (.ok image), l) →
        image.space.pages = n + Loader.stackPages ∧
          l.pool.used = b.loader.pool.used + (n + Loader.stackPages) := by
  obtain ⟨rfl, rfl, -, hroom⟩ := h
  rw [Loader.load_program hf hroom hg, Nat.add_assoc]
  split
  · next hfree =>
    refine ⟨⟨fun _ => hfree, fun _ => ⟨_, _, rfl⟩⟩, fun image l hl => ?_⟩
    cases hl
    exact ⟨rfl, rfl⟩
  · next hfull => exact ⟨⟨nofun, fun hfree => absurd hfree hfull⟩, nofun⟩

end Balanced

/-! ## Scripts -/

/-- Loads and drops in any order: no step is a fault of the machine, and afterwards the pages in
use are those of the address spaces that were built and are not dropped, and not more than there
are. A further drop gives back pages that are in use. A further load ends; that of a program
succeeds exactly if the pages of its image and of its stack are free, and takes just those; and one
that fails leaves the pool as it was. -/
theorem after_accounts
    (hsum : ∀ name n body, registry.get? name = some (.program n body) →
      n + Loader.stackPages + pages < UInt64.size)
    (hbytes : pages * Loader.pageSize < UInt64.size) (script : List LoaderStep) :
    ∃ b, (new registry pages).after script = .ok b ∧ b.Balanced registry pages ∧
      (∀ (slot : Nat) space, b.slots[slot]? = some (some space) →
        (b.loader.drop space).pool.used + space.pages = b.loader.pool.used) ∧
      (∀ name n body, registry.get? name = some (.program n body) →
        ((∃ image l, b.loader.load name = (.ok (.ok image), l)) ↔
          b.loader.pool.used + n + Loader.stackPages ≤ pages) ∧
        ∀ image l, b.loader.load name = (.ok (.ok image), l) →
          image.space.pages = n + Loader.stackPages ∧
            l.pool.used = b.loader.pool.used + (n + Loader.stackPages)) ∧
      ∀ name, ∃ answer l, b.loader.load name = (.ok answer, l) ∧
        ∀ e, answer = .error e → l.pool = b.loader.pool := by
  have hf := Registry.fits_of_bounds hsum hbytes
  obtain ⟨b, hafter, h⟩ := (balanced_new registry pages).after hf script
  refine ⟨b, hafter, h, fun slot space hs => h.used_drop hs,
    fun name n body hg => h.load_program hf hg, fun name => ?_⟩
  obtain ⟨answer, l, hl⟩ := h.load_ends hf name
  refine ⟨answer, l, hl, fun e he => ?_⟩
  subst he
  exact h.load_failed hf hl

/-- A program of four pages and a damaged file. -/
def storeroom : Registry :=
  ⟨[("write10.coff", .program 4 fun _ => .done 10), ("broken.coff", .corrupt "segment overlaps")]⟩

/-- There is room for two processes: a third one has to wait until one of them is gone. -/
def refill : List LoaderStep :=
  [.load "write10.coff", .load "write10.coff", .load "write10.coff", .load "broken.coff",
    .load "nope.coff", .drop 0, .drop 0, .load "write10.coff"]

theorem storeroom_bounds : ∀ name n body, storeroom.get? name = some (.program n body) →
    n + Loader.stackPages + 24 < UInt64.size := by
  intro name n body h
  have hmem := Registry.mem_of_get? h
  simp only [storeroom, List.mem_cons, List.not_mem_nil, or_false] at hmem
  rcases hmem with h | h
  · cases h
    decide
  · cases h

theorem refill_accounts :
    (∀ name n body, storeroom.get? name = some (.program n body) →
      n + Loader.stackPages + 24 < UInt64.size) ∧ 24 * Loader.pageSize < UInt64.size ∧
    ∃ b, (new storeroom 24).after refill = .ok b ∧
      b.slots = [none, some ⟨1, 12⟩, some ⟨2, 12⟩] ∧ b.loader.pool.used = 24 ∧
      (b.loader.drop ⟨1, 12⟩).pool.used + 12 = 24 ∧
      ¬ ∃ image l, b.loader.load "write10.coff" = (.ok (.ok image), l) := by
  have hbytes : 24 * Loader.pageSize < UInt64.size := by decide
  obtain ⟨b, hafter, hb, hdrop, hload, -⟩ := after_accounts storeroom_bounds hbytes refill
  have hslots : b.slots = [none, some ⟨1, 12⟩, some ⟨2, 12⟩] := by
    cases hafter
    rfl
  have hused : b.loader.pool.used = 24 := by
    rw [hb.used, pagesHeld, held, hslots]
    rfl
  have hlast := hdrop 1 ⟨1, 12⟩ (by rw [hslots]; rfl)
  refine ⟨storeroom_bounds, hbytes, b, hafter, hslots, hused, hlast.trans hused, fun hl => ?_⟩
  have hfree := (hload "write10.coff" 4 _ rfl).1.1 hl
  rw [hused] at hfree
  exact absurd hfree (by decide)

end LoaderBench

end Scenario

end Lifecycle
