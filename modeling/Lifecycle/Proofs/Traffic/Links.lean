import Lifecycle.Proofs.Traffic.Consistency

/-!
# What a turn does to a record

* `Turn.fate`: what becomes of the link of a child to its parent. It is kept, unless the parent
  collects the child or ends, or the launch of the child is undone.
* `Turn.origin`: where a record of the table after the turn comes from.
-/

namespace Lifecycle

/-- The task that a termination has still to wake, with the process it has ended. -/
def Operation.owed? (o : Operation) : Option (Pid × TaskId) :=
  match o.call with
  | .terminate ⟨pid, _, .releasing d⟩ => d.waiter.map (pid, ·)
  | .terminate ⟨pid, _, .waking waiter _⟩ => waiter.map (pid, ·)
  | _ => none

namespace Traffic

/-- What becomes of the child `k` of `p`, which had the record `r`, in a turn of operation `i` from
`o` to `o'` that leaves the table `t` and writes down `e`. -/
inductive Fate (x : Traffic) (i : Nat) (o o' : Operation) (t : Table) (e : Option Event)
    (p k : Pid) (r : Record) : Prop where
  | kept (r' : Record) : t.get? k = some r' → r'.parent = some p → r'.state = r.state →
      r'.waiter = r.waiter → Fate x i o o' t e p k r
  | awaited {task : TaskId} {b : Bool} : o = ⟨.join ⟨p, k, task, .checking⟩, b⟩ →
      t.get? k = some { r with waiter := some task } → Fate x i o o' t e p k r
  | ended {status : ExitStatus} {b : Bool} : o = ⟨.terminate ⟨k, status, .departing⟩, b⟩ →
      o'.owed? = r.waiter.map (k, ·) → e = some (.ended i k (launchOf x.history k) status) →
      r.state = .running → t.get? k = some (r.ended status) → Fate x i o o' t e p k r
  | collected {task : TaskId} {b : Bool} {status : ExitStatus} :
      o = ⟨.join ⟨p, k, task, .checking⟩, b⟩ →
      e = some (.collected i p k (launchOf x.history k) status) → Fate x i o o' t e p k r
  | orphaned {status : ExitStatus} {b : Bool} : o = ⟨.terminate ⟨p, status, .departing⟩, b⟩ →
      e = some (.ended i p (launchOf x.history p) status) → Fate x i o o' t e p k r
  | undone {order : Order} {cause : ProcessError} {b : Bool} :
      o = ⟨.launch (.undoing order k cause), b⟩ → o'.pid? = none → Fate x i o o' t e p k r

/-- Where the record `r'` of `k` comes from, after a turn of operation `i` from `o` to `o'` that
writes down `e`. -/
inductive Origin (x : Traffic) (i : Nat) (o o' : Operation) (e : Option Event) (k : Pid)
    (r' : Record) : Prop where
  | reserved : e = some (.reserved i k) → o'.pid? = some k → r'.state = .running →
      r'.parent = o'.client? → r'.waiter = none → Origin x i o o' e k r'
  | ended {r : Record} {status : ExitStatus} : x.kernel.table.get? k = some r →
      e = some (.ended i k (launchOf x.history k) status) → r.state = .running →
      r'.state = .exited status → r'.parent = r.parent → r'.waiter = none →
      Origin x i o o' e k r'
  | kept {r : Record} : x.kernel.table.get? k = some r →
      (∀ j l status, e ≠ some (.ended j k l status)) → r'.state = r.state →
      (r'.parent = r.parent ∨ r'.parent = none) →
      (r'.waiter = r.waiter ∨ ∃ p task b, r'.parent = some p ∧ r'.waiter = some task ∧
        o = ⟨.join ⟨p, k, task, .checking⟩, b⟩ ∧ o' = ⟨.join ⟨p, k, task, .sleeping⟩, b⟩) →
      Origin x i o o' e k r'

variable {x : Traffic} {i j : Nat} {o o' : Operation} {k p : Pid} {k' : Kernel} {r r' : Record}
  {permits : TaskId → Bool} {e : Option Event}

theorem Turn.fate (h : Turn x i o k' o' permits e) (hx : x.Consistent)
    (hr : x.kernel.table.get? k = some r) (hp : r.parent = some p) :
    Fate x i o o' k'.table e p k r := by
  cases h with
  | @reserved order b pid pids hal hpar =>
    have hk : pid ≠ k := by
      intro eq
      rw [← eq, hx.sound.allotted.alloc hal] at hr
      cases hr
    refine .kept (Table.relink order.parent (·.add pid) k r) ?_
      (Table.relink_parent.trans hp) Table.relink_state Table.relink_waiter
    refine (Table.get?_admitted _ pids k (hx.sound.allotted.parent_ne hal hpar)).trans ?_
    show (if pid = k then _ else _) = _
    rw [if_neg hk, hr]
    rfl
  | @stored order pid image b =>
    by_cases hk : pid = k
    · refine .kept { r with space := some image.space } ?_ hp rfl rfl
      rw [Table.get?_adjust, if_pos hk, hr]
      rfl
    · exact .kept r (by rw [Table.get?_adjust, if_neg hk, hr]) hp rfl rfl
  | @undone order pid cause b q =>
    by_cases hk : pid = k
    · subst hk
      exact .undone rfl rfl
    · refine .kept (Table.relink q.parent (·.remove pid) k r) ?_
        (Table.relink_parent.trans hp) Table.relink_state Table.relink_waiter
      rw [Table.get?_rolledBack, Table.get?_withdraw, if_neg hk, hr]
      rfl
  | @waited caller child task b q hq hpar =>
    by_cases hk : child = k
    · subst hk
      rw [hr] at hq; cases hq
      rw [hp] at hpar; cases hpar
      exact .awaited rfl (by rw [Table.get?_adjust, if_pos rfl, hr]; rfl)
    · exact .kept r (by rw [Table.get?_adjust, if_neg hk, hr]) hp rfl rfl
  | @collected caller child task b q status hq hpar =>
    by_cases hk : child = k
    · subst hk
      rw [hr] at hq; cases hq
      rw [hp] at hpar; cases hpar
      exact .collected rfl rfl
    · refine .kept (Table.relink q.parent (·.remove child) k r) ?_
        (Table.relink_parent.trans hp) Table.relink_state Table.relink_waiter
      rw [Table.get?_removed, Table.get?_withdraw, if_neg hk, hr]
      rfl
  | @departed pid status b q t hd =>
    by_cases hk : pid = k
    · subst hk
      obtain rfl : q = r := Option.some.inj (hd.was.symm.trans hr)
      exact .ended rfl rfl rfl hd.running (by rw [hd.get?, if_pos rfl, hp]; rfl)
    · by_cases hc : q.children.has k = true
      · obtain ⟨c, hc, hcp⟩ := (hd.has_iff hx.sound.forest).1 hc
        rw [hr] at hc; cases hc
        rw [hp] at hcp; cases hcp
        exact .orphaned rfl rfl
      · exact .kept r (by rw [hd.get?, if_neg hk, if_neg hc, hr]) hp rfl rfl
  | _ => exact .kept r hr hp rfl rfl

theorem Turn.origin (h : Turn x i o k' o' permits e) (hx : x.Consistent)
    (hk : k'.table.get? k = some r') : Origin x i o o' e k r' := by
  cases h with
  | @reserved order b pid pids hal hpar =>
    rw [Table.get?_admitted _ pids k (hx.sound.allotted.parent_ne hal hpar)] at hk
    split at hk
    · next eq =>
      cases hk
      obtain rfl : pid = k := eq
      exact .reserved rfl rfl rfl rfl rfl
    · obtain ⟨q, hq, rfl⟩ := Option.map_eq_some_iff.1 hk
      exact .kept hq (fun _ _ _ h => nomatch h) Table.relink_state (.inl Table.relink_parent)
        (.inl Table.relink_waiter)
  | stored =>
    rw [Table.get?_adjust] at hk
    split at hk
    · obtain ⟨q, hq, rfl⟩ := Option.map_eq_some_iff.1 hk
      exact .kept hq (fun _ _ _ h => nomatch h) rfl (.inl rfl) (.inl rfl)
    · exact .kept hk (fun _ _ _ h => nomatch h) rfl (.inl rfl) (.inl rfl)
  | undone =>
    rw [Table.get?_rolledBack, Table.get?_withdraw] at hk
    split at hk
    · cases hk
    · obtain ⟨q, hq, rfl⟩ := Option.map_eq_some_iff.1 hk
      exact .kept hq (fun _ _ _ h => nomatch h) Table.relink_state (.inl Table.relink_parent)
        (.inl Table.relink_waiter)
  | @waited caller child task b q hq hpar =>
    rw [Table.get?_adjust] at hk
    split at hk
    · next eq =>
      subst eq
      rw [hq] at hk
      cases hk
      exact .kept hq (fun _ _ _ h => nomatch h) rfl (.inl rfl) (.inr ⟨_, _, _, hpar, rfl, rfl, rfl⟩)
    · exact .kept hk (fun _ _ _ h => nomatch h) rfl (.inl rfl) (.inl rfl)
  | collected =>
    rw [Table.get?_removed, Table.get?_withdraw] at hk
    split at hk
    · cases hk
    · obtain ⟨q, hq, rfl⟩ := Option.map_eq_some_iff.1 hk
      exact .kept hq (fun _ _ _ h => nomatch h) Table.relink_state (.inl Table.relink_parent)
        (.inl Table.relink_waiter)
  | @departed pid status b q t hd =>
    rcases hd.origin hk with ⟨rfl, rfl, -⟩ | ⟨ne, -, c, hc, hs, rfl⟩ | ⟨ne, -, hk⟩
    · exact .ended hd.was rfl hd.running rfl rfl rfl
    · exact .kept hc (fun _ _ _ h => ne (by cases h; rfl)) rfl (.inr rfl) (.inl rfl)
    · exact .kept hk (fun _ _ _ h => ne (by cases h; rfl)) rfl (.inl rfl) (.inl rfl)
  | @launched order pid =>
    exact .kept hk (fun _ _ _ h => by cases hp : order.parent <;> rw [hp] at h <;> cases h) rfl
      (.inl rfl) (.inl rfl)
  | _ => exact .kept hk (fun _ _ _ h => nomatch h) rfl (.inl rfl) (.inl rfl)

/-- The launch of a record after the turn. -/
theorem Turn.launch_cases (h : Turn x i o k' o' permits e) (hx : x.Consistent)
    (hk : k'.table.get? k = some r) (hl : launchOf (e.toList ++ x.history) k = some j) :
    (e = some (.reserved i k) ∧ j = i) ∨
      (launchOf x.history k = some j ∧ ∃ r₀, x.kernel.table.get? k = some r₀) := by
  have hold : ∀ {r₀ : Record}, x.kernel.table.get? k = some r₀ →
      launchOf x.history k = some j ∧ ∃ r₀, x.kernel.table.get? k = some r₀ := fun hg =>
    ⟨(h.launchOf_eq hx hg).symm.trans hl, _, hg⟩
  cases h.origin hx hk with
  | reserved he =>
    rw [he] at hl
    exact .inl ⟨he, (Option.some.inj ((if_pos rfl).symm.trans hl)).symm⟩
  | ended hg => exact .inr (hold hg)
  | kept hg => exact .inr (hold hg)

theorem Turn.launchOf_child (h : Turn x i o k' o' permits e) (hx : x.Consistent)
    (hp : x.kernel.table.HasParent k p) :
    launchOf (e.toList ++ x.history) k = launchOf x.history k := by
  obtain ⟨r, hr, -⟩ := hp
  exact h.launchOf_eq hx hr

/-- A child keeps its parent, unless the parent collects it or ends, or its launch is undone. -/
theorem Turn.hasParent_kept (h : Turn x i o k' o' permits e) (hx : x.Consistent)
    (hp : x.kernel.table.HasParent k p) : k'.table.HasParent k p ∨
      (∃ l status, e = some (.collected i p k l status) ∧ o.client? = some p ∧ o.pid? = none) ∨
      (∃ l status, e = some (.ended i p l status) ∧ o.target? = some p) ∨
      (o.reserved? = some k ∧ o'.pid? = none) := by
  obtain ⟨r, hr, hp⟩ := hp
  cases h.fate hx hr hp with
  | kept r' hr' hp' => exact .inl ⟨r', hr', hp'⟩
  | awaited _ hr' => exact .inl ⟨_, hr', hp⟩
  | ended _ _ _ _ hr' => exact .inl ⟨_, hr', hp⟩
  | collected ho he => exact .inr (.inl ⟨_, _, he, by rw [ho]; rfl, by rw [ho]; rfl⟩)
  | orphaned ho he => exact .inr (.inr (.inl ⟨_, _, he, by rw [ho]; rfl⟩))
  | undone ho ho' => exact .inr (.inr (.inr ⟨by rw [ho]; rfl, ho'⟩))

end Traffic

end Lifecycle
