import Lifecycle.Memory.Bytes
import Lifecycle.Proofs.Traffic.Links

/-!
# No wakeup is lost

A join that has found its child running sleeps, and the termination of the child wakes its task
after the table is unlocked. Between the look and the sleep, and between the end of the child and
the wakeup, anything may happen; and the task may hold a permit from an earlier join.

* `Guarded x c k t`: what keeps a task `t` that sleeps for the child `k` of `c` from sleeping
  forever. Either the child runs and knows its waiter, or it has ended, and the task has a permit
  or the termination that ended the child still has to wake it (`Owed`).
* `Reachable.no_lost_wakeup`: every sleeping task of strict traffic is guarded.
-/

namespace Lifecycle

namespace Traffic

variable {x : Traffic} {i j : Nat} {o o' q : Operation} {c k : Pid} {t : TaskId} {k' : Kernel}
  {permits : TaskId → Bool} {e : Option Event} {status : ExitStatus}

/-- The termination that ended the process `k` with `status` still has to wake the task `t`. -/
def Owed (x : Traffic) (k : Pid) (t : TaskId) (status : ExitStatus) : Prop :=
  ∃ (j : Nat) (o : Operation), x.operations[j]? = some o ∧ o.owed? = some (k, t) ∧
    .ended j k (launchOf x.history k) status ∈ x.history

/-- What keeps a task from sleeping forever (module doc). -/
def Guarded (x : Traffic) (c k : Pid) (t : TaskId) : Prop :=
  ∃ r, x.kernel.table.get? k = some r ∧ r.parent = some c ∧
    ((r.state = .running ∧ r.waiter = some t) ∨
      ∃ status, r.state = .exited status ∧ (x.permits t = true ∨ x.Owed k t status))

/-- The invariant: no two joins run on one task, and every sleeping task is guarded. -/
structure Watched (x : Traffic) : Prop where
  solo : ∀ (i j : Nat) (o o' : Operation) (t : TaskId), x.operations[i]? = some o →
    x.operations[j]? = some o' → o.task? = some t → o'.task? = some t → i = j
  guarded : ∀ (i : Nat) (c k : Pid) (t : TaskId) (b : Bool),
    x.operations[i]? = some ⟨.join ⟨c, k, t, .sleeping⟩, b⟩ → x.Guarded c k t

section views

variable (h : Turn x i o k' o' permits e)
include h

theorem Turn.task? : o'.task? = none ∨ o'.task? = o.task? := by
  cases h with
  | quiet hm => cases hm <;> first | exact .inr rfl | exact .inl rfl
  | _ => first | exact .inr rfl | exact .inl rfl

/-- Only the end of its own sleep takes a permit from a task. -/
theorem Turn.permit_kept (ho : o.task? ≠ some t) (ht : x.permits t = true) : permits t = true := by
  cases h with
  | woken hp => rw [hp t fun eq => ho (eq ▸ rfl), ht]
  | signalled hp => rw [hp, ht, Bool.or_true]
  | _ => exact ht

/-- A termination owes a wakeup until it gives the permit. -/
theorem Turn.owed_kept (ho : o.owed? = some (k, t)) :
    o'.owed? = some (k, t) ∨ permits t = true := by
  cases h with
  | quiet hm =>
    cases hm with
    | released => exact .inl ho
    | _ => cases ho
  | @signalled pid status waiter idle b permits hp =>
    refine .inr ?_
    cases waiter with
    | none => cases ho
    | some w => cases ho; simp [hp]
  | _ => cases ho

/-- A task that goes to sleep has just entered itself as the waiter of its child. -/
theorem Turn.guarded_self {b : Bool} (ho : o' = ⟨.join ⟨c, k, t, .sleeping⟩, b⟩) :
    ((x.put i k' o' e).withPermits permits).Guarded c k t := by
  cases h with
  | quiet hm => cases hm <;> cases ho
  | @waited _ _ _ _ r hr hp hrun =>
    cases ho
    refine ⟨{ r with waiter := some t }, ?_, hp, .inl ⟨hrun, rfl⟩⟩
    refine (Table.get?_adjust ..).trans ?_
    rw [if_pos rfl, hr]
    rfl
  | _ => cases ho

end views

theorem Owed.put (w : x.Owed k t status) (hx : x.Consistent) (hi : x.operations[i]? = some o)
    (h : Turn x i o k' o' permits e) {r : Record} (hr : x.kernel.table.get? k = some r) :
    permits t = true ∨ ((x.put i k' o' e).withPermits permits).Owed k t status := by
  obtain ⟨j, q, hj, hq, hm⟩ := w
  have hm : .ended j k (launchOf (e.toList ++ x.history) k) status ∈ e.toList ++ x.history := by
    rw [h.launchOf_eq hx hr]
    exact List.mem_append_right _ hm
  rcases get_put_cases k' o' permits e hi hj with ⟨rfl, rfl, hj⟩ | ⟨-, hj⟩
  · rcases h.owed_kept hq with ho | ht
    · exact .inr ⟨j, o', hj, ho, hm⟩
    · exact .inl ht
  · exact .inr ⟨j, q, hj, hq, hm⟩

/-- A sleeping task stays guarded while another operation takes its turn. -/
theorem Guarded.put (g : x.Guarded c k t) (hx : x.Consistent) (hi : x.operations[i]? = some o)
    (ha : Discipline.strict.allows x o) (h : Turn x i o k' o' permits e)
    (hj : x.operations[j]? = some q) (ne : j ≠ i) (hq : q.client? = some c)
    (ho : o.task? ≠ some t) : ((x.put i k' o' e).withPermits permits).Guarded c k t := by
  obtain ⟨r, hr, hp, hs⟩ := g
  have hother : o.client? ≠ some c := fun ho => ne (hx.alone j i q o c hj hi hq ho)
  cases h.fate hx hr hp with
  | kept r' hr' hp' hst hw =>
    refine ⟨r', hr', hp', ?_⟩
    rcases hs with ⟨hrun, hwt⟩ | ⟨status, hex, hwake⟩
    · exact .inl ⟨hst.trans hrun, hw.trans hwt⟩
    · refine .inr ⟨status, hst.trans hex, ?_⟩
      rcases hwake with ht | w
      · exact .inl (h.permit_kept ho ht)
      · exact w.put hx hi h hr
  | @ended status b _ howed he hrun hr' =>
    rcases hs with ⟨-, hwt⟩ | ⟨_, hex, -⟩
    · refine ⟨_, hr', hp, .inr ⟨status, rfl, .inr ⟨i, o', get_put_self hi, ?_, ?_⟩⟩⟩
      · rw [howed, hwt]
        rfl
      · show _ ∈ e.toList ++ x.history
        rw [show ((x.put i k' o' e).withPermits permits).history = e.toList ++ x.history from rfl,
          h.launchOf_eq hx hr, he]
        exact List.mem_cons_self
    · rw [hrun] at hex
      cases hex
  | awaited ho => exact absurd (by rw [ho]; rfl) hother
  | collected ho => exact absurd (by rw [ho]; rfl) hother
  | orphaned ho => exact absurd (Engaged.of_get hj hq) (ha.2 c (by rw [ho]; rfl))
  | undone ho =>
    -- The caller of the launch of `k` would be in the middle of that launch.
    obtain ⟨⟨r', hr', -, -, -, hpar⟩, -⟩ := hx.unstarted i o k hi (by rw [ho]; rfl)
    rw [hr] at hr'; cases hr'
    rw [hp] at hpar
    exact absurd (hpar.resolve_left (fun h => nomatch h)).symm hother

theorem watched_new (config : Config) (range : PidRange) : (new config range).Watched where
  solo := fun _ _ _ _ _ h => nomatch h
  guarded := fun _ _ _ _ _ h => nomatch h

theorem Watched.add {call : Call} (hw : x.Watched) (hc : Started call)
    (ha : Discipline.strict.admits x ⟨call, false⟩) : (x.add ⟨call, false⟩).Watched where
  solo i j o o' t := unique_add (fun i j o o' => hw.solo i j o o' t) (ha.2 t)
  guarded i c k t b hi := by
    rcases add_cases hi with hi | ⟨-, eq⟩
    · obtain ⟨r, hr, hp, hs⟩ := hw.guarded i c k t b hi
      refine ⟨r, hr, hp, hs.imp_right ?_⟩
      rintro ⟨status, hex, hwake⟩
      refine ⟨status, hex, hwake.imp_right ?_⟩
      exact fun ⟨j, q, hj, hq, hm⟩ => ⟨j, q, get_add hj, hq, hm⟩
    · cases eq
      cases hc

theorem Watched.put (hw : x.Watched) (hx : x.Consistent) (hi : x.operations[i]? = some o)
    (ha : Discipline.strict.allows x o) (h : Turn x i o k' o' permits e) :
    ((x.put i k' o' e).withPermits permits).Watched where
  solo j l q q' t := unique_put (fun i j o o' => hw.solo i j o o' t) hi h.task?
  guarded j c k t b hj := by
    rcases put_cases hi hj with ⟨rfl, ho⟩ | ⟨ne, hj⟩
    · exact h.guarded_self ho.symm
    · exact (hw.guarded j c k t b hj).put hx hi ha h hj ne rfl fun ho =>
        ne (hw.solo j i _ o t hj hi rfl ho)

variable {μ : Type} [UserMemory μ] {config : Config} {range : PidRange}

theorem Reachable.watched (h : Reachable μ .strict config range x) : x.Watched :=
  h.induction Discipline.strict_implies_orderly (watched_new config range)
    (fun _ _ _ hw hc ha => hw.add hc ha) (fun _ _ _ _ _ _ _ hx hw hi ha h => hw.put hx hi ha h)

/-- In strict traffic a task `t` of the process `c` that sleeps in a join of `k`, or is about to,
is woken: `k` is still a child of `c`, and it runs and has the waiter `t`, or it has ended, and `t`
has a permit or the termination of `k` still has to give it one. -/
theorem Reachable.no_lost_wakeup {b : Bool} (h : Reachable μ .strict config range x)
    (hi : x.operations[i]? = some ⟨.join ⟨c, k, t, .sleeping⟩, b⟩) :
    ∃ r, x.kernel.table.get? k = some r ∧ r.parent = some c ∧
      ((r.state = .running ∧ r.waiter = some t) ∨
        ∃ status, r.state = .exited status ∧ (x.permits t = true ∨ x.Owed k t status)) :=
  h.watched.guarded i c k t b hi

/-- The child of the root process ends while the root process goes to sleep for it, and has not
woken it yet. -/
def endedUnderJoin : Traffic :=
  (new { suffix := none } .standard).after .strict
    (([.invoke (.boot "init"), .turn 0 .advance] ++ launching 0 ++
      [.invoke (.exec .root "child" 0)] ++ launching 1 ++
      [.invoke (.join .root ⟨1⟩ ⟨5⟩), .turn 2 .advance, .turn 2 .rouse, .turn 2 .advance,
        .invoke (.kill ⟨1⟩), .turn 3 .advance] : List (Action Bytes)))

theorem endedUnderJoin_no_lost_wakeup : endedUnderJoin.permits ⟨5⟩ = false ∧
    ∃ r, endedUnderJoin.kernel.table.get? ⟨1⟩ = some r ∧ r.parent = some .root ∧
      ((r.state = .running ∧ r.waiter = some ⟨5⟩) ∨ ∃ status, r.state = .exited status ∧
        (endedUnderJoin.permits ⟨5⟩ = true ∨ endedUnderJoin.Owed ⟨1⟩ ⟨5⟩ status)) :=
  ⟨by decide, (Reachable.start.after _ : Reachable Bytes .strict _ _ endedUnderJoin).no_lost_wakeup
    (show endedUnderJoin.operations[2]? = some ⟨.join ⟨.root, ⟨1⟩, ⟨5⟩, .sleeping⟩, false⟩ by rfl)⟩

end Traffic

end Lifecycle
