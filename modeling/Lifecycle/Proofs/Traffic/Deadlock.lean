import Mathlib.Data.Fintype.EquivFin
import Lifecycle.Proofs.Traffic.Wakeup

/-!
# Joins do not deadlock

A process that sleeps in a join waits for a child, and the parent links form a forest over finitely
many PIDs: going down from a process that sleeps, from each to the child it waits for, ends at one
that does not sleep.

* `Asleep x p`: the process `p` sleeps in a join, its task has no permit, and no termination has
  still to wake it.
* `Watched.running_child`: the child that such a process waits for runs.
* `Reachable.awake_below`: in strict traffic every running process that sleeps has a running
  descendant that does not.
-/

namespace Lifecycle

instance : Finite Pid := Finite.of_injective (fun p => p.number.toFin) fun _ _ h =>
  Pid.toNat_inj.1 (congrArg Fin.val h)

/-- The task that a termination has still to wake. -/
def Operation.wakes? (o : Operation) : Option TaskId := o.owed?.map (·.2)

/-- Going down the parent links comes to an end. -/
theorem Table.Forest.wellFounded {t : Table} (h : t.Forest) :
    WellFounded fun k p => t.Ancestor p k := by
  have : IsTrans Pid fun k p => t.Ancestor p k := ⟨fun _ _ _ hk hp => hp.trans hk⟩
  have : Std.Irrefl fun k p => t.Ancestor p k := ⟨h.acyclic⟩
  exact Finite.wellFounded_of_trans_of_irrefl _

namespace Traffic

variable {x : Traffic} {p : Pid} {r : Record}

/-- The process `p` sleeps, and nothing is under way that ends its sleep (module doc). -/
def Asleep (x : Traffic) (p : Pid) : Prop :=
  ∃ (i : Nat) (k : Pid) (t : TaskId) (b : Bool),
    x.operations[i]? = some ⟨.join ⟨p, k, t, .sleeping⟩, b⟩ ∧ x.permits t = false ∧
      ∀ o ∈ x.operations, o.wakes? ≠ some t

theorem Watched.running_child (hw : x.Watched) (hp : x.Asleep p) :
    ∃ k r, x.kernel.table.get? k = some r ∧ r.parent = some p ∧ r.state = .running := by
  obtain ⟨i, k, t, b, hi, ht, hn⟩ := hp
  obtain ⟨r, hr, hp, hs⟩ := hw.guarded i p k t b hi
  refine ⟨k, r, hr, hp, ?_⟩
  rcases hs with ⟨hrun, -⟩ | ⟨status, -, hpermit | ⟨j, o, hj, ho, -⟩⟩
  · exact hrun
  · rw [ht] at hpermit
    cases hpermit
  · exact absurd (by rw [Operation.wakes?, ho]; rfl) (hn o (List.mem_of_getElem? hj))

/-- Below a running process there is one that does not sleep. -/
theorem Watched.exists_awake (hw : x.Watched) (hf : x.kernel.table.Forest)
    (hr : x.kernel.table.get? p = some r) (hs : r.state = .running) :
    ∃ q r, (q = p ∨ x.kernel.table.Ancestor p q) ∧ x.kernel.table.get? q = some r ∧
      r.state = .running ∧ ¬ x.Asleep q := by
  induction p using hf.wellFounded.induction generalizing r with
  | h p ih =>
    by_cases ha : x.Asleep p
    · obtain ⟨k, rk, hk, hp, hrun⟩ := hw.running_child ha
      have hpk : x.kernel.table.Ancestor p k := .single ⟨rk, hk, hp⟩
      obtain ⟨q, rq, hq, hget, hqs, hna⟩ := ih k hpk hk hrun
      refine ⟨q, rq, .inr ?_, hget, hqs, hna⟩
      rcases hq with rfl | hkq
      · exact hpk
      · exact hpk.trans hkq
    · exact ⟨p, r, .inl rfl, hr, hs, ha⟩

variable {μ : Type} [UserMemory μ] {config : Config} {range : PidRange}

/-- In strict traffic a running process does not sleep, or one of its descendants runs and does not
sleep: whatever the processes join, some of those that run goes on. -/
theorem Reachable.awake_below (h : Reachable μ .strict config range x)
    (hr : x.kernel.table.get? p = some r) (hs : r.state = .running) :
    ∃ q r, (q = p ∨ x.kernel.table.Ancestor p q) ∧ x.kernel.table.get? q = some r ∧
      r.state = .running ∧ ¬ x.Asleep q :=
  h.watched.exists_awake (h.consistent Discipline.strict_implies_orderly).sound.forest hr hs

/-- The root process joins its child, and the child joins its own one, after it has tried to join
the root process and itself in vain. -/
def nestedJoins : Traffic :=
  (new { suffix := none } .standard).after .strict (μ := Bytes)
    (List.flatten [[.invoke (.boot "init"), .turn 0 .advance], launching 0,
      [.invoke (.exec .root "child" 0)], launching 1,
      [.invoke (.join .root ⟨1⟩ ⟨5⟩), .turn 2 .advance,
        .invoke (.join ⟨1⟩ .root ⟨6⟩), .turn 3 .advance,
        .invoke (.join ⟨1⟩ ⟨1⟩ ⟨6⟩), .turn 4 .advance,
        .invoke (.exec ⟨1⟩ "grandchild" 0)], launching 5,
      [.invoke (.join ⟨1⟩ ⟨2⟩ ⟨6⟩), .turn 6 .advance]])

theorem nestedJoins_awake_below : nestedJoins.Asleep .root ∧ nestedJoins.Asleep ⟨1⟩ ∧
    ∃ q r, (q = .root ∨ nestedJoins.kernel.table.Ancestor .root q) ∧
      nestedJoins.kernel.table.get? q = some r ∧ r.state = .running ∧ ¬ nestedJoins.Asleep q :=
  ⟨⟨2, ⟨1⟩, ⟨5⟩, false, rfl, rfl, by decide⟩, ⟨6, ⟨2⟩, ⟨6⟩, false, rfl, rfl, by decide⟩,
    (Reachable.start.after _ : Reachable Bytes .strict _ _ nestedJoins).awake_below
      (p := .root) (r := _) rfl rfl⟩

end Traffic

end Lifecycle
