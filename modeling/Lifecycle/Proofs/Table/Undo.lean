import Lifecycle.Proofs.Table.Allocation
import Lifecycle.Proofs.Table.Joining
import Lifecycle.Proofs.Table.Removal

/-!
# Undoing a launch

A launch that fails takes its record out again. `Table.undone` is the table then, if no other
operation ran since the record was admitted: `records_undone` and `running_undone` say that it is
the table before the launch. Only the allocator may go on from another number, and it does so only
if the number of the launch was a recycled one (`undone_of_counting`). The numbers that it can hand
out are the same in any case: they are those of the range that are the PID of no record
(`Allotted.available_iff`).
-/

namespace Lifecycle

namespace PidAllocator

/-- The number `pid` can be handed out, now or after others. -/
def Available (a : PidAllocator) (pid : Pid) : Prop :=
  pid ∈ a.recycled ∨ a.next ≤ pid.number ∧ pid.number ≤ a.range.largest

instance (a : PidAllocator) (pid : Pid) : Decidable (a.Available pid) :=
  inferInstanceAs (Decidable (_ ∨ _))

/-- The number handed out next comes from the counter. -/
def Counting (a : PidAllocator) : Prop := a.next ≤ a.range.largest

instance (a : PidAllocator) : Decidable a.Counting := inferInstanceAs (Decidable (_ ≤ _))

/-- A number of the counter is taken back into it. -/
theorem unreserve_alloc {a a' : PidAllocator} {pid : Pid} (hc : a.Counting)
    (ha : a.alloc = some (pid, a')) : a'.unreserve pid = a := by
  rcases alloc_eq_some ha with ⟨-, rfl, rfl⟩ | ⟨hn, -⟩
  · simp [unreserve]
  · exact absurd hc hn

end PidAllocator

theorem PidSet.remove_add {s : PidSet} {k : Pid} (h : s.has k = false) :
    (s.add k).remove k = s := by
  refine PidMap.erase_insert ?_ ()
  simpa [PidSet.has, PidMap.contains] using h

namespace Table

variable {t : Table} {k pid : Pid} {r : Record} {pids : PidAllocator} {f : Record → Record}

/-- The table after the new record `r` was admitted, changed by `f`, and taken out again. -/
def undone (t : Table) (pids : PidAllocator) (r : Record) (f : Record → Record) : Table :=
  ((t.admitted pids r).adjust r.pid f).rolledBack r.pid (f r)

@[simp] theorem adjust_id (t : Table) (pid : Pid) : t.adjust pid id = t := by
  rw [adjust, PidMap.adjust_id]

theorem inner_id : Inner id := ⟨fun _ => rfl, fun _ => rfl, fun _ => rfl, fun _ => rfl⟩

/-- Entering a stranger among the children and striking it out again changes nothing. -/
theorem relink_remove_add {parent : Option Pid} (h : r.children.has pid = false) :
    relink parent (·.remove pid) k (relink parent (·.add pid) k r) = r := by
  unfold relink
  split
  · simp only [PidSet.remove_add h]
  · rfl

theorem get?_undone (hs : t.Sound) (hn : t.get? r.pid = none) (hr : r.parent ≠ some r.pid)
    (hf : Inner f) (k : Pid) : (t.undone pids r f).get? k = t.get? k := by
  rw [undone, get?_rolledBack, get?_withdraw]
  split
  case isTrue e => rw [← e, hn]
  case isFalse ne =>
    rw [get?_adjust, if_neg ne, get?_admitted t pids k hr, if_neg ne, hf.parent, Option.map_map]
    cases hk : t.get? k with
    | none => rfl
    | some q =>
      have hq : q.children.has r.pid = false := Bool.eq_false_iff.2 fun hc => by
        obtain ⟨c, hc, -⟩ := hs.forest.child_of_has hk hc
        rw [hn] at hc
        cases hc
      exact congrArg some (relink_remove_add hq)

theorem records_undone (hs : t.Sound) (hn : t.get? r.pid = none) (hr : r.parent ≠ some r.pid)
    (hf : Inner f) : (t.undone pids r f).records = t.records :=
  PidMap.ext fun k => get?_undone hs hn hr hf k

theorem running_undone (hf : Inner f) (hr : r.isExited = false) :
    (t.undone pids r f).running = t.running := by
  have he : (f r).isExited = false := by rw [Record.isExited, hf.state]; exact hr
  show (((t.admitted pids r).adjust r.pid f).withdraw r.pid (f r)).running = _
  rw [withdraw, running_forgetChild]
  simp [he]

theorem capacity_undone : (t.undone pids r f).capacity = t.capacity := by
  have hw := (t.admitted pids r).adjust r.pid f |>.sameBounds_withdraw r.pid (f r)
  exact hw.capacity.trans capacity_admitted

theorem range_undone : (t.undone pids r f).pids.range = pids.range := by
  show ((((t.admitted pids r).adjust r.pid f)).pids.unreserve r.pid).range = _
  rw [PidAllocator.range_unreserve, pids_adjust, pids_admitted]

theorem undone_of_counting (hs : t.Sound) (hn : t.get? r.pid = none) (hr : r.parent ≠ some r.pid)
    (hf : Inner f) (he : r.isExited = false) (hc : t.pids.Counting)
    (ha : t.pids.alloc = some (r.pid, pids)) : t.undone pids r f = t := by
  have hp : (t.undone pids r f).pids = t.pids := by
    show ((t.admitted pids r).adjust r.pid f).pids.unreserve r.pid = _
    rw [pids_adjust, pids_admitted, PidAllocator.unreserve_alloc hc ha]
  have hcap : (t.undone pids r f).capacity = t.capacity := capacity_undone
  have hrec : (t.undone pids r f).records = t.records := records_undone hs hn hr hf
  have hrun : (t.undone pids r f).running = t.running := running_undone hf he
  cases h : t.undone pids r f
  rw [h] at hp hcap hrec hrun
  cases t
  cases hp; cases hcap; cases hrec; cases hrun
  rfl

/-- The numbers the allocator can hand out are those of the range that are the PID of no record. -/
theorem Allotted.available_iff (h : t.Allotted) :
    t.pids.Available k ↔ t.pids.range.Contains k ∧ t.get? k = none := by
  have hle := h.next_le
  have hb := h.below k
  simp only [PidAllocator.Available, PidRange.Contains, UInt32.le_iff_toNat_le]
  constructor
  · rintro (hk | ⟨hk, hc⟩)
    · have := hb.2 (.inr hk)
      exact ⟨by omega, h.apart k hk⟩
    · refine ⟨hc, Option.not_isSome_iff_eq_none.1 fun hr => ?_⟩
      have := hb.2 (.inl hr)
      omega
  · rintro ⟨hc, hn⟩
    by_cases hk : k.number.toNat < t.pids.next.toNat
    · exact .inl ((hb.1 hk).resolve_left (by simp [hn]))
    · exact .inr ⟨by omega, hc⟩

section new

variable {parent : Option Pid} (name : String) (hs : t.Sound)
  (ha : t.pids.alloc = some (pid, pids))
  (hp : ∀ p, parent = some p → ∃ q, t.get? p = some q ∧ q.state = .running)
include hs ha hp

theorem get?_admitted_self :
    (t.admitted pids (.new pid parent name)).get? pid = some (.new pid parent name) := by
  rw [get?_admitted t pids pid (hs.allotted.parent_ne ha hp)]
  exact if_pos rfl

theorem get?_adjust_admitted : ((t.admitted pids (.new pid parent name)).adjust pid f).get? pid =
    some (f (.new pid parent name)) := by
  rw [get?_adjust, if_pos rfl, get?_admitted_self name hs ha hp]
  rfl

theorem Sound.adjust_admitted (hf : Inner f) :
    ((t.admitted pids (.new pid parent name)).adjust pid f).Sound :=
  (hs.admitted ha hp).adjust hf (get?_admitted_self name hs ha hp) rfl

/-- The roll-back of a launch that is alone fails none of its checks. -/
theorem rollback_admitted (hf : Inner f) (hw : (f (.new pid parent name)).waiter = none) :
    ((t.admitted pids (.new pid parent name)).adjust pid f).rollback pid =
      (.taken (f (.new pid parent name)), t.undone pids (.new pid parent name) f) :=
  rollback_eq (Sound.adjust_admitted name hs ha hp hf).counted
    (get?_adjust_admitted name hs ha hp) hw

theorem Sound.undone (hf : Inner f) : (t.undone pids (.new pid parent name) f).Sound := by
  have hs' : ((t.admitted pids (.new pid parent name)).adjust pid f).Sound :=
    Sound.adjust_admitted name hs ha hp hf
  have hr : ((t.admitted pids (.new pid parent name)).adjust pid f).get? pid = some (f _) :=
    get?_adjust_admitted name hs ha hp
  exact hs'.rolledBack hr (hs'.forest.no_child hr (hf.children _))

end new

end Table

end Lifecycle
