import Lifecycle.Memory.Bytes
import Lifecycle.Proofs.Traffic.Consistency

/-!
# No check of the kernel fails

`Reachable.no_check_fails`: in orderly traffic no operation ends by a failed check, and the
counters of the table stay inside the machine's words. Each check rests on one part of
`Traffic.Consistent`: the links of the process tree, the PIDs in use, the records of launches that
may still fail, and the flag of the root process.

* `Table.InWords`: the counters do not overflow when they are used next.
-/

namespace Lifecycle

namespace Table

/-- The counters of the table do not overflow: neither that of the allocator, nor the number after
a PID in use, nor the count of running records, which is not above the count of PIDs. -/
structure InWords (t : Table) : Prop where
  next : t.pids.next.toNat ≤ t.pids.range.largest.toNat + 1
  next_add_one : t.pids.next ≤ t.pids.range.largest →
    (t.pids.next + 1).toNat = t.pids.next.toNat + 1
  pid_add_one : ∀ k r, t.get? k = some r → (k.number + 1).toNat = k.number.toNat + 1
  running : t.running ≤ t.pids.range.largest.toNat + 1
  running_pos : ∀ k r, t.get? k = some r → r.state = .running → 0 < t.running

theorem Sound.inWords {t : Table} (h : t.Sound) : t.InWords where
  next := h.allotted.next_le
  next_add_one hle := PidAllocator.toNat_next hle
  pid_add_one k r hr := by
    have hlt := h.allotted.lt_next hr
    have hle := h.allotted.next_le
    have hroom := t.pids.range.room
    rw [UInt32.toNat_add]
    exact Nat.mod_eq_of_lt (show k.number.toNat + 1 < UInt32.size by omega)
  running :=
    calc t.running
      _ = t.records.tally (fun r => !r.isExited) := h.counted
      _ ≤ t.records.size := PidMap.tally_le_size _ _
      _ ≤ t.pids.next.toNat := PidMap.size_le fun k r hr => h.allotted.lt_next hr
      _ ≤ t.pids.range.largest.toNat + 1 := h.allotted.next_le
  running_pos k r hr hs := h.counted.running_pos hr (by simp [Record.isExited, hs])

end Table

namespace Traffic

variable {μ : Type} [UserMemory μ] {config : Config} {range : PidRange} {x : Traffic}

/-- In orderly traffic no check of the kernel fails, and no counter overflows. -/
theorem Reachable.no_check_fails (h : Reachable μ .orderly config range x) :
    (∀ o ∈ x.operations, ¬ o.Crashed) ∧ x.kernel.table.InWords := by
  have hx := h.consistent .rfl
  refine ⟨fun o ho => ?_, hx.sound.inWords⟩
  obtain ⟨i, hi⟩ := List.getElem?_of_mem ho
  exact hx.intact i o hi

/-- A root process is launched in vain, and again. It is killed while its child is created, whose
launch fails then. -/
def killedInLaunch : Traffic :=
  (new { suffix := none } .standard).after .orderly
    (([.invoke (.boot "init"), .turn 0 .advance, .turn 0 .advance,
        .turn 0 (.load (.error .notFound)), .turn 0 .advance, .turn 0 .advance, .turn 0 .advance,
        .invoke (.boot "init"), .turn 1 .advance] ++ launching 1 ++
      [.invoke (.exec .root "child" 0), .turn 2 .advance, .turn 2 (.load (.ok default)),
        .invoke (.kill .root), .turn 3 .advance, .turn 2 .advance,
        .turn 2 (.spawn (.error .noResources)), .turn 2 .advance] : List (Action Bytes)))

theorem killedInLaunch_no_check_fails :
    killedInLaunch.operations.length = 4 ∧ killedInLaunch.kernel.table.count = 0 ∧
      (∀ o ∈ killedInLaunch.operations, ¬ o.Crashed) ∧
      killedInLaunch.kernel.table.running ≤ PidRange.standard.largest.toNat + 1 := by
  have safe := (Reachable.start.after _ :
    Reachable Bytes .orderly _ _ killedInLaunch).no_check_fails
  exact ⟨by decide, by decide, safe.1, safe.2.running⟩

end Traffic

end Lifecycle
