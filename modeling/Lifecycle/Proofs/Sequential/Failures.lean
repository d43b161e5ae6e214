import Lifecycle.Memory.Bytes
import Lifecycle.Proofs.Sequential.Books

/-!
# Calls that fail

A call that ends with an error leaves everything as it was before it (`Books.Unmoved`,
`Books.Reached.failure_unmoved`). Only the order in which the allocator hands out its numbers may
be another one, if it has been through the range already.
-/

namespace Lifecycle

namespace Books

/-- Nothing has changed but, after the allocator has been through the range, the order of the
numbers that it can hand out. -/
structure Unmoved (w w' : Books) : Prop where
  records : w'.kernel.table.records = w.kernel.table.records
  running : w'.kernel.table.running = w.kernel.table.running
  booted : w'.kernel.booted = w.kernel.booted
  pages : w'.pages = w.pages
  woken : w'.woken = w.woken
  halts : w'.halts = w.halts
  available : ∀ pid, w'.kernel.table.pids.Available pid ↔ w.kernel.table.pids.Available pid
  counting : w.kernel.table.pids.Counting → w' = w

theorem Unmoved.refl (w : Books) : w.Unmoved w :=
  ⟨rfl, rfl, rfl, rfl, rfl, rfl, fun _ => .rfl, fun _ => rfl⟩

variable {μ : Type} [UserMemory μ] {config : Config} {range : PidRange} {w w' : Books}
  {ended : Ended} {e : ProcessError}

/-- The numbers that can be handed out are those of no record, so they depend on the records
alone. -/
theorem Standing.available_congr (h : w.Standing config range) (h' : w'.Standing config range)
    (hr : w'.kernel.table.records = w.kernel.table.records) (pid : Pid) :
    w'.kernel.table.pids.Available pid ↔ w.kernel.table.pids.Available pid := by
  rw [h.ready.sound.allotted.available_iff, h'.ready.sound.allotted.available_iff,
    h.ready.range_eq, h'.ready.range_eq, Table.get?, hr]
  rfl

theorem Done.unmoved (hd : Done w (some ended, w')) (h : w.Standing config range)
    (he : ended.error? = some e) : w.Unmoved w' := by
  have hs := hd.standing h
  cases hd with
  | failed => exact .refl w
  | @undone pid pids parent name f _ ha hp hf =>
    have hn := h.ready.sound.allotted.alloc ha
    have hne := h.ready.sound.allotted.parent_ne ha hp
    have hr : (w.kernel.table.undone pids (.new pid parent name) f).records = _ :=
      Table.records_undone h.ready.sound hn hne hf
    refine ⟨hr, Table.running_undone hf rfl, rfl, rfl, rfl, rfl,
      h.available_congr hs hr, fun hc => ?_⟩
    rw [withTable, Table.undone_of_counting h.ready.sound hn hne hf rfl hc ha]
  | created => cases he
  | collected => cases he
  | departed => cases he
  | halted => cases he

/-- A call that ends with an error, without having slept, has changed nothing. -/
theorem Reached.failure_unmoved (h : Reached μ config range w) (a : Answers) (i : Invocation μ)
    (hi : w.invoke a i = (some ended, w')) (he : ended.error? = some e) : w.Unmoved w' := by
  rcases invoke_cases w a i with hw | ⟨c, hc, hw⟩
  · rw [hi] at hw
    cases hw
  · have hd := h.standing.done (a := a) hc
    rw [← hw, hi] at hd
    exact hd.unmoved h.standing he

/-- All numbers have been handed out, and that of a child that was joined can be handed out
again. -/
def oneRecycled : Books :=
  ((new { suffix := none } (.upTo 1)).invokeAll ⟨.ok default, .ok ()⟩
    [.boot (μ := Bytes) "init", .exec .root "child" 0, .exit ⟨1⟩ 7, .join .root ⟨1⟩ ⟨0⟩]).2

/-- A launch that got this number and fails, with its image loaded. -/
def oneRecycledFailure : Option Ended × Books :=
  oneRecycled.invoke ⟨.ok default, .error .noResources⟩ (.exec (μ := Bytes) .root "child" 0)

theorem oneRecycledFailure_unmoved :
    oneRecycledFailure.1 = some (.launched (.error .resourceExhausted)) ∧
    oneRecycled.kernel.table.pids = ⟨.upTo 1, 2, [⟨1⟩]⟩ ∧
    oneRecycledFailure.2.kernel.table.pids = ⟨.upTo 1, 1, []⟩ ∧
    oneRecycled.Unmoved oneRecycledFailure.2 :=
  ⟨rfl, rfl, rfl, Reached.failure_unmoved (.invokeAll .start _ _) ⟨.ok default, .error .noResources⟩
    (.exec (μ := Bytes) .root "child" 0) rfl rfl⟩

end Books

end Lifecycle
