import Mathlib.Algebra.GroupWithZero.Nat
import Lifecycle.Proofs.Table.Allocation
import Lifecycle.Proofs.Table.Departure

/-!
# The address spaces in the table

`Table.spaces` is the map of the address spaces that the records hold. Only four critical sections
change it: that of a launch that stores its space, those of a launch and a termination that take
one out again, and the removal of a record.
-/

namespace Lifecycle

namespace Table

variable {t t' : Table} {k pid : Pid} {r : Record} {pids : PidAllocator} {space : AddressSpace}

/-- The address spaces that the records hold. -/
def spaces (t : Table) : PidMap AddressSpace := t.records.filterMap (·.space)

theorem get?_spaces (t : Table) (k : Pid) : t.spaces.get? k = (t.get? k).bind (·.space) :=
  PidMap.get?_filterMap ..

theorem mem_spaces (h : (k, space) ∈ t.spaces.entries) :
    ∃ r, t.get? k = some r ∧ r.space = some space := by
  have hk := PidMap.get?_eq_some_iff.2 h
  rw [get?_spaces] at hk
  exact Option.bind_eq_some_iff.1 hk

theorem spaces_congr (h : ∀ k, (t'.get? k).bind (·.space) = (t.get? k).bind (·.space)) :
    t'.spaces = t.spaces :=
  PidMap.ext fun k => by rw [get?_spaces, get?_spaces, h]

/-- Only a change of the child set. -/
theorem bind_relink_space (parent : Option Pid) (f : PidSet → PidSet) (k : Pid)
    (o : Option Record) : (o.map (relink parent f k)).bind (·.space) = o.bind (·.space) := by
  cases o with
  | none => rfl
  | some r => exact relink_space

/-- A new record holds no space. -/
theorem spaces_admitted (hf : t.get? r.pid = none) (hr : r.parent ≠ some r.pid)
    (hs : r.space = none) : (t.admitted pids r).spaces = t.spaces :=
  spaces_congr fun k => by
    rw [get?_admitted t pids k hr]
    split
    · next e => rw [← e, hf]; exact hs
    · exact bind_relink_space ..

theorem spaces_stored (space : AddressSpace) (hr : t.get? pid = some r) :
    (t.adjust pid fun r => { r with space := some space }).spaces = t.spaces.insert pid space :=
  PidMap.ext fun k => by
    rw [get?_spaces, get?_adjust, PidMap.get?_insert, get?_spaces]
    split
    · next e => rw [← e, hr]; rfl
    · rfl

theorem spaces_awaited (waiter : Option TaskId) :
    (t.adjust pid fun r => { r with waiter := waiter }).spaces = t.spaces :=
  spaces_congr fun k => by
    rw [get?_adjust]
    split
    · cases t.get? k <;> rfl
    · rfl

theorem spaces_withdraw (t : Table) (pid : Pid) (r : Record) :
    (t.withdraw pid r).spaces = t.spaces.erase pid :=
  PidMap.ext fun k => by
    rw [get?_spaces, get?_withdraw, PidMap.get?_erase, get?_spaces]
    split
    · rfl
    · exact bind_relink_space ..

/-- A record without a space. -/
theorem erase_spaces (hr : t.get? pid = some r) (hs : r.space = none) :
    t.spaces.erase pid = t.spaces :=
  PidMap.ext fun k => by
    rw [PidMap.get?_erase]
    split
    · next e => rw [← e, get?_spaces, hr]; exact hs.symm
    · rfl

/-- The end of a process takes its space out. The records of its children that are reclaimed hold
none. -/
theorem Departs.spaces {status : ExitStatus} (hd : Departs t pid status r t') (h : t.Forest) :
    t'.spaces = t.spaces.erase pid :=
  PidMap.ext fun k => by
    rw [get?_spaces, hd.get?, PidMap.get?_erase, get?_spaces]
    split
    · cases r.parent <;> rfl
    · split
      · cases hk : t.get? k with
        | none => rfl
        | some c =>
          show (c.orphaned).bind (·.space) = c.space
          unfold Record.orphaned
          split
          · next he => exact (h.exited hk he).2.2.2.symm
          · rfl
      · rfl

/-- A process that has ended has given its space back. -/
theorem Forest.space_of_exited {status : ExitStatus} (h : t.Forest) (hr : t.get? k = some r)
    (hs : r.state = .exited status) : r.space = none :=
  (h.exited hr (by rw [Record.isExited, hs]; rfl)).2.2.2

/-- The spaces that the records hold are those of running processes. -/
theorem Forest.running_of_space (h : t.Forest) (hr : t.get? k = some r)
    (hs : r.space = some space) : r.state = .running := by
  cases hst : r.state with
  | running => rfl
  | exited status =>
    rw [h.space_of_exited hr hst] at hs
    cases hs

/-- The pages that the records hold. -/
def heldPages (t : Table) : Nat := (t.spaces.values.map (·.pages)).sum

theorem heldPages_congr (h : t'.spaces = t.spaces) : t'.heldPages = t.heldPages := by
  rw [heldPages, h]
  rfl

theorem heldPages_insert (h : t'.spaces = t.spaces.insert pid space)
    (hn : t.spaces.get? pid = none) : t'.heldPages = t.heldPages + space.pages := by
  have hp := PidMap.values_perm (PidMap.get?_insert_self t.spaces pid space)
  rw [PidMap.erase_insert hn] at hp
  rw [heldPages, h, (hp.map (·.pages)).sum_nat]
  exact Nat.add_comm ..

theorem heldPages_erase (h : t'.spaces = t.spaces.erase pid) (hr : t.get? pid = some r) :
    t.heldPages = t'.heldPages + r.residentPages := by
  cases hs : r.space with
  | none =>
    rw [erase_spaces hr hs] at h
    rw [heldPages_congr h, Record.residentPages, hs]
    rfl
  | some space =>
    have hg : t.spaces.get? pid = some space := by rw [get?_spaces, hr]; exact hs
    rw [heldPages, ((PidMap.values_perm hg).map (·.pages)).sum_nat, heldPages, h,
      Record.residentPages, hs]
    exact Nat.add_comm ..

/-- The pages of the records are those of the spaces they hold. -/
theorem sum_residentPages (t : Table) :
    (t.records.values.map Record.residentPages).sum = (t.spaces.values.map (·.pages)).sum := by
  simp only [PidMap.values, spaces, PidMap.filterMap]
  induction t.records.entries with
  | nil => rfl
  | cons e es ih =>
    cases hs : e.2.space with
    | none => simpa [hs, Record.residentPages] using ih
    | some a => simpa [hs, Record.residentPages] using ih

/-- The records of ended processes count for nothing. -/
theorem Forest.sum_running (h : t.Forest) :
    ((t.records.values.filter (!·.isExited)).map Record.residentPages).sum =
      (t.records.values.map Record.residentPages).sum := by
  have hzero : ∀ r ∈ t.records.values, r.isExited = true → r.residentPages = 0 := by
    intro r hr he
    obtain ⟨⟨k, _⟩, hmem, rfl⟩ := List.mem_map.1 hr
    have hs := (h.exited (PidMap.get?_eq_some_iff.2 hmem) he).2.2.2
    rw [Record.residentPages, hs]
    rfl
  generalize t.records.values = rs at hzero ⊢
  induction rs with
  | nil => rfl
  | cons r rs ih =>
    have ih := ih fun r hr => hzero r (.tail _ hr)
    cases he : r.isExited with
    | true => simp [he, hzero r (.head _) he, ih]
    | false => simp [he, ih]

end Table

end Lifecycle
