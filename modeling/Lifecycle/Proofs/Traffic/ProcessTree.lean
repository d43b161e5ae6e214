import Lifecycle.Memory.Bytes
import Lifecycle.Proofs.Traffic.Consistency

/-!
# The process tree under concurrency

`Reachable.process_tree`: whatever operations run side by side, and between any two of their
critical sections, the process tree is in order. A process may be ended at any time, also in the
middle of its own launches and joins; a launch may fail after its record was reserved; and PIDs
may be handed out again.
-/

namespace Lifecycle

namespace Traffic

variable {μ : Type} [UserMemory μ] {config : Config} {range : PidRange} {x : Traffic}

/-- In every state of orderly traffic the child sets and the parent links tell the same, a parent
runs, an ended record waits for its parent and has given everything else back, and no process is
its own ancestor. -/
theorem Reachable.process_tree (h : Reachable μ .orderly config range x) :
    (∀ p k, x.kernel.table.HasChild p k ↔ x.kernel.table.HasParent k p) ∧
    (∀ k p, x.kernel.table.HasParent k p →
      ∃ r, x.kernel.table.get? p = some r ∧ r.state = .running) ∧
    (∀ k r, x.kernel.table.get? k = some r → r.isExited = true →
      r.parent.isSome = true ∧ r.children = .empty ∧ r.waiter = none ∧ r.space = none) ∧
    (∀ k, ¬ x.kernel.table.Ancestor k k) := by
  have hf := (h.consistent .rfl).sound.forest
  refine ⟨hf.child_iff, fun k p hk => hf.parent_running hk, fun k r hr he => hf.exited hr he,
    hf.acyclic⟩

/-- With two PIDs: the first child of the root process ends and is joined, and the launch of the
second one gets its PID. -/
def relaunched : Traffic :=
  (new { suffix := none } (.upTo 1)).after .orderly
    (([.invoke (.boot "init"), .turn 0 .advance] ++ launching 0 ++
      [.invoke (.exec .root "first" 0)] ++ launching 1 ++
      [.invoke (.exit ⟨1⟩ 7), .turn 2 .advance, .invoke (.join .root ⟨1⟩ ⟨0⟩), .turn 3 .advance,
        .turn 3 .advance, .invoke (.exec .root "second" 0), .turn 4 .advance] :
      List (Action Bytes)))

theorem relaunched_process_tree :
    launchOf relaunched.history ⟨1⟩ = some 4 ∧ relaunched.kernel.table.HasChild .root ⟨1⟩ ∧
      ¬ relaunched.kernel.table.Ancestor ⟨1⟩ ⟨1⟩ := by
  have tree := (Reachable.start.after _ : Reachable Bytes .orderly _ _ relaunched).process_tree
  exact ⟨by decide, (tree.1 _ _).2 (by decide), tree.2.2.2 _⟩

end Traffic

end Lifecycle
