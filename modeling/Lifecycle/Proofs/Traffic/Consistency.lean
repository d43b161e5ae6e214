import Lifecycle.Proofs.Traffic.Turns

/-!
# Orderly traffic stays consistent

`Reachable.consistent`: every state that orderly runs reach satisfies `Traffic.Consistent`. The
three parts of a turn are the kernel it leaves (`Turn.sound`), the operation that took it, and the
operations that wait meanwhile:

* `Turn.unstarted_other`: no turn of another operation touches the record of a launch that may
  still fail.
* `Turn.table_eq`: while the root process does not run, nobody but its own launch changes the
  table.

`Reachable.induction` is the induction over runs for the invariants to come: they may use
consistency, and look at the cases of `Turn` alone.
-/

namespace Lifecycle

/-! ## Tables while a launch may still fail -/

namespace Table

variable {t : Table} {k pid : Pid} {r : Record} {client? : Option Pid}

theorem Unstarted.withdraw (h : t.Unstarted k client?) (ne : pid ≠ k) :
    (t.withdraw pid r).Unstarted k client? := by
  obtain ⟨q, hq, hrun, hc, hw, hp⟩ := h
  refine ⟨relink r.parent (·.remove pid) k q, ?_, relink_state.trans hrun, relink_remove_empty hc,
    relink_waiter.trans hw, ?_⟩
  · rw [get?_withdraw, if_neg ne, hq]
    rfl
  · simpa using hp

theorem Unstarted.adjust {f : Record → Record} (h : t.Unstarted k client?) (ne : pid ≠ k) :
    (t.adjust pid f).Unstarted k client? := by
  obtain ⟨q, hq, h⟩ := h
  exact ⟨q, by rw [get?_adjust, if_neg ne, hq], h⟩

theorem Unstarted.departs {t' : Table} {status : ExitStatus} (h : t.Unstarted k client?)
    (hd : t.Departs pid status r t') (ne : pid ≠ k) : t'.Unstarted k client? := by
  obtain ⟨q, hq, hrun, hc, hw, hp⟩ := h
  unfold Unstarted
  rw [hd.get?, if_neg ne, hq]
  split
  · exact ⟨_, Record.orphaned_eq_some_iff.2 ⟨hrun, rfl⟩, hrun, hc, hw, .inl rfl⟩
  · exact ⟨q, rfl, hrun, hc, hw, hp⟩

theorem Vacant.not_some (h : t.Vacant) (hr : t.get? k = some r) : False := by
  rw [h.get?] at hr
  cases hr

end Table

namespace Launch

theorem abandon_eq (order : Order) (e : ProcessError) :
    (order.parent.isNone = true ∧ abandon order e = clearing e) ∨
    (order.parent.isNone = false ∧ abandon order e = finished (.error e)) := by
  unfold abandon
  cases order.parent with
  | none => exact .inl ⟨rfl, rfl⟩
  | some p => exact .inr ⟨rfl, rfl⟩

end Launch

namespace Traffic

variable {x y : Traffic} {i j : Nat} {o o' q : Operation} {k p pid : Pid} {k' : Kernel}
  {permits : TaskId → Bool} {e : Option Event} {c : Call}

/-! ## The operations after an action -/

theorem get_put_self (hi : x.operations[i]? = some o) :
    ((x.put i k' o' e).withPermits permits).operations[i]? = some o' :=
  List.getElem?_set_self (List.getElem?_eq_some_iff.1 hi).1

theorem get_put_ne (ne : j ≠ i) :
    ((x.put i k' o' e).withPermits permits).operations[j]? = x.operations[j]? :=
  List.getElem?_set_ne (Ne.symm ne)

theorem get_add (hj : x.operations[j]? = some q) : (x.add o).operations[j]? = some q :=
  (List.getElem?_append_left (List.getElem?_eq_some_iff.1 hj).1).trans hj

theorem put_cases (hi : x.operations[i]? = some o)
    (hj : ((x.put i k' o' e).withPermits permits).operations[j]? = some q) :
    (j = i ∧ q = o') ∨ (j ≠ i ∧ x.operations[j]? = some q) := by
  by_cases eq : j = i
  · subst eq
    rw [get_put_self hi] at hj
    exact .inl ⟨rfl, (Option.some.inj hj).symm⟩
  · rw [get_put_ne eq] at hj
    exact .inr ⟨eq, hj⟩

/-- An operation before a turn of operation `i` is that operation, or it waits meanwhile. -/
theorem get_put_cases (k' : Kernel) (o' : Operation) (permits : TaskId → Bool)
    (e : Option Event) (hi : x.operations[i]? = some o) (hj : x.operations[j]? = some q) :
    (j = i ∧ q = o ∧ ((x.put i k' o' e).withPermits permits).operations[j]? = some o') ∨
      (j ≠ i ∧ ((x.put i k' o' e).withPermits permits).operations[j]? = some q) := by
  by_cases eq : j = i
  · subst eq
    rw [hi] at hj
    exact .inl ⟨rfl, (Option.some.inj hj).symm, get_put_self hi⟩
  · exact .inr ⟨eq, (get_put_ne eq).trans hj⟩

theorem add_cases (hj : (x.add o).operations[j]? = some q) :
    x.operations[j]? = some q ∨ (j = x.operations.length ∧ q = o) := by
  have hs : (x.operations ++ [o])[j]? = some q := hj
  rw [List.getElem?_append] at hs
  split at hs
  · exact .inl hs
  · next hlt =>
    rw [List.getElem?_singleton] at hs
    split at hs
    · next eq => exact .inr ⟨by omega, (Option.some.inj hs).symm⟩
    · cases hs

theorem Reserved.of_get (hi : x.operations[i]? = some o) (ho : o.reserved? = some p) :
    x.Reserved p := ⟨o, List.mem_of_getElem? hi, ho⟩

theorem Engaged.of_get (hi : x.operations[i]? = some o) (ho : o.client? = some p) :
    x.Engaged p := ⟨o, List.mem_of_getElem? hi, ho⟩

section unique

variable {α : Type} {f : Operation → Option α} {a : α} {q' : Operation} {l : Nat}
  (hu : ∀ (i j : Nat) (o o' : Operation), x.operations[i]? = some o →
    x.operations[j]? = some o' → f o = some a → f o' = some a → i = j)
include hu

/-- What one operation at most holds is held by one at most after a new one has started, unless
both hold it. -/
theorem unique_add (hn : f o = some a → ¬ ∃ q ∈ x.operations, f q = some a)
    (hj : (x.add o).operations[j]? = some q) (hl : (x.add o).operations[l]? = some q')
    (hq : f q = some a) (hq' : f q' = some a) : j = l := by
  rcases add_cases hj with hj' | ⟨rfl, rfl⟩ <;> rcases add_cases hl with hl' | ⟨rfl, rfl⟩
  · exact hu j l q q' hj' hl' hq hq'
  · exact absurd ⟨q, List.mem_of_getElem? hj', hq⟩ (hn hq')
  · exact absurd ⟨q', List.mem_of_getElem? hl', hq'⟩ (hn hq)
  · rfl

/-- What one operation at most holds is held by one at most after a turn in which nobody takes
it. -/
theorem unique_put (hi : x.operations[i]? = some o) (hf : f o' = none ∨ f o' = f o)
    (hj : ((x.put i k' o' e).withPermits permits).operations[j]? = some q)
    (hl : ((x.put i k' o' e).withPermits permits).operations[l]? = some q')
    (hq : f q = some a) (hq' : f q' = some a) : j = l := by
  have hown : f o' = some a → f o = some a := by
    intro ho
    rcases hf with hn | hs
    · rw [hn] at ho
      cases ho
    · exact hs.symm.trans ho
  rcases put_cases hi hj with ⟨rfl, rfl⟩ | ⟨-, hj'⟩ <;>
    rcases put_cases hi hl with ⟨rfl, rfl⟩ | ⟨-, hl'⟩
  · rfl
  · exact hu j l o q' hi hl' (hown hq) hq'
  · exact hu j l q o hj' hi hq (hown hq')
  · exact hu j l q q' hj' hl' hq hq'

end unique

/-- A launch that fails holds no record any more. -/
theorem views_abandon (order : Order) (err : ProcessError) (b : Bool) :
    let o : Operation := ⟨.launch (.abandon order err), b⟩
    o.client? = none ∧ o.pid? = none ∧ o.reserved? = none ∧ o.boots = order.parent.isNone ∧
      ¬ o.Crashed := by
  rcases Launch.abandon_eq order err with ⟨hp, ha⟩ | ⟨hp, ha⟩ <;> rw [ha, hp] <;>
    exact ⟨rfl, rfl, rfl, rfl, fun ⟨_, h⟩ => nomatch h⟩

theorem pid?_of_reserved? (h : o.reserved? = some k) : o.pid? = some k := by
  obtain ⟨call, b⟩ := o
  cases call with
  | launch l =>
    cases l with
    | spawning order pid image =>
      simp only [Operation.reserved?] at h
      split at h
      · cases h
      · exact h
    | _ => exact h
  | _ => cases h

/-- Nobody waits for the launch of a root process. -/
theorem client?_of_boots (h : o.boots = true) : o.client? = none := by
  obtain ⟨call, b⟩ := o
  cases call with
  | launch l =>
    simp only [Operation.boots, Launch.boots] at h
    simp only [Operation.client?]
    cases l <;> simp_all [Launch.order?]
  | _ => cases h

/-! ## The operation that took the turn -/

theorem Move.boots (h : Move o o') (ho : o'.boots = true) :
    o.boots = true ∧ o'.pid? = o.pid? ∧ o'.reserved? = o.reserved? := by
  cases h with
  | @refused order b err =>
    obtain ⟨-, hpid, hres, hb, -⟩ := views_abandon order err b
    exact ⟨hb.symm.trans ho, hpid, hres⟩
  | @abandoned order r err b =>
    obtain ⟨-, hpid, hres, hb, -⟩ := views_abandon order err b
    exact ⟨hb.symm.trans ho, hpid, hres⟩
  | loaded => exact ⟨ho, rfl, rfl⟩
  | unloaded => exact ⟨ho, rfl, rfl⟩
  | unspawned => exact ⟨ho, rfl, rfl⟩
  | _ => cases ho

section views

variable (h : Turn x i o k' o' permits e)
include h

theorem Turn.client? : o'.client? = none ∨ o'.client? = o.client? := by
  cases h with
  | quiet hm =>
    cases hm with
    | refused | abandoned => exact .inl (views_abandon ..).1
    | _ => first | exact .inr rfl | exact .inl rfl
  | _ => first | exact .inr rfl | exact .inl rfl

theorem Turn.intact : ¬ o'.Crashed := by
  cases h with
  | quiet hm =>
    cases hm with
    | refused | abandoned => exact (views_abandon ..).2.2.2.2
    | _ => exact fun ⟨_, hf⟩ => nomatch hf
  | _ => exact fun ⟨_, hf⟩ => nomatch hf

/-- A launch keeps the PID it has reserved until its process runs. -/
theorem Turn.reserved? (ho : o'.reserved? = some k) :
    (o.reserved? = some k ∧ o'.client? = o.client?) ∨ e = some (.reserved i k) := by
  cases h with
  | quiet hm =>
    cases hm with
    | refused | abandoned => rw [(views_abandon ..).2.2.1] at ho; cases ho
    | _ => first | exact .inl ⟨ho, rfl⟩ | cases ho
  | reserved => cases ho; exact .inr rfl
  | stored =>
    simp only [Operation.reserved?] at ho
    split at ho
    · cases ho
    · exact .inl ⟨ho, rfl⟩
  | _ => first | exact .inl ⟨ho, rfl⟩ | cases ho

theorem Turn.boots (ho : o'.boots = true) : o.boots = true ∨ x.kernel.booted = false := by
  cases h with
  | quiet hm => exact .inl (hm.boots ho).1
  | claimed hb => exact .inr hb
  | _ => first | exact .inl ho | cases ho

/-- A record in the table stays the record of the same launch. -/
theorem Turn.launchOf_eq (hx : x.Consistent) (hr : x.kernel.table.get? k = some r) :
    launchOf (e.toList ++ x.history) k = launchOf x.history k := by
  cases h with
  | reserved ha =>
    refine if_neg fun eq => ?_
    rw [← eq, hx.sound.allotted.alloc ha] at hr
    cases hr
  | @launched order => cases order.parent <;> rfl
  | _ => rfl

end views

/-! ## The kernel -/

theorem Turn.sound (h : Turn x i o k' o' permits e) (hx : x.Consistent) : k'.table.Sound := by
  cases h with
  | reserved ha hp => exact hx.sound.admitted ha hp
  | stored hr hrun => exact hx.sound.adjust (Table.inner_space _) hr hrun
  | undone hr _ hc => exact hx.sound.rolledBack hr (hx.sound.forest.no_child hr hc)
  | waited hr _ hrun => exact hx.sound.adjust (Table.inner_waiter _) hr hrun
  | collected hr _ hst =>
    exact hx.sound.collected hr (by rw [Record.isExited, hst, ProcessState.isExited_exited])
  | departed hd => exact hd.sound hx.sound
  | _ => exact hx.sound

/-- The record of the launch of `o` that may still fail. -/
theorem Turn.unstarted_self (h : Turn x i o k' o' permits e) (hx : x.Consistent)
    (hi : x.operations[i]? = some o) (ho : o'.reserved? = some k) :
    k'.table.Unstarted k o'.client? ∧ launchOf (e.toList ++ x.history) k = some i := by
  rcases h.reserved? ho with ⟨hk, hc⟩ | he
  · obtain ⟨hu, hl⟩ := hx.unstarted i o k hi hk
    refine ⟨?_, ?_⟩
    · rw [hc]
      cases h with
      | quiet => exact hu
      | created => exact hu
      | @stored _ _ image =>
        cases hk
        obtain ⟨r, hr, hu⟩ := hu
        refine ⟨{ r with space := some image.space }, ?_, hu⟩
        rw [Table.get?_adjust, if_pos rfl, hr]
        rfl
      | reserved => cases hk
      | _ => cases ho
    · obtain ⟨r, hr, -⟩ := hu
      rw [h.launchOf_eq hx hr, hl]
  · cases h with
    | @reserved order b pid pids ha hp =>
      obtain rfl : pid = k := by cases he; rfl
      have hself := hx.sound.allotted.parent_ne ha hp
      refine ⟨⟨.new pid order.parent order.name, ?_, rfl, rfl, rfl, .inr rfl⟩, if_pos rfl⟩
      exact (Table.get?_admitted _ pids _ hself).trans (if_pos rfl)
    | @launched order =>
      cases hp : order.parent <;> rw [hp] at he <;> cases he
    | _ => cases he

/-- The record of the launch of another operation that may still fail. -/
theorem Turn.unstarted_other (h : Turn x i o k' o' permits e) (hx : x.Consistent)
    (hi : x.operations[i]? = some o) (ha : Discipline.orderly.allows x o)
    (hj : x.operations[j]? = some q) (hq : q.reserved? = some k) (ne : j ≠ i) :
    k'.table.Unstarted k q.client? := by
  obtain ⟨hu, hl⟩ := hx.unstarted j q k hj hq
  have hres := Reserved.of_get hj hq
  have hrec := hu
  obtain ⟨r, hr, hrun, hc, hw, hpar⟩ := hrec
  -- The record of another launch that may still fail.
  have hother : ∀ {pid : Pid}, o.reserved? = some pid → pid ≠ k := by
    intro pid ho eq
    have := (hx.unstarted i o _ hi ho).2
    rw [eq, hl] at this
    exact ne (Option.some.inj this)
  -- The client of a launch is no client of a join.
  have hjoin : ∀ {caller child : Pid} {c : Record}, o.client? = some caller →
      x.kernel.table.get? child = some c → c.parent = some caller → child ≠ k :=
    fun ho hg hp eq => by
      rw [eq, hr] at hg; cases hg
      rcases hpar with hpar | hpar
      · rw [hp] at hpar; cases hpar
      · exact ne (hx.alone j i q o _ hj hi (hpar.symm.trans hp) ho)
  cases h with
  | @reserved order b pid pids hal hp =>
    have hf := hx.sound.allotted.alloc hal
    have hk : pid ≠ k := fun eq => by rw [eq, hr] at hf; cases hf
    have hself := hx.sound.allotted.parent_ne hal hp
    have hlink : order.parent ≠ some k := fun eq => ha k eq hres
    refine ⟨r, ?_, hrun, hc, hw, hpar⟩
    rw [Table.get?_admitted _ pids k hself]
    show (if pid = k then _ else _) = _
    rw [if_neg hk, hr]
    exact congrArg some (if_neg hlink)
  | stored => exact hu.adjust (hother rfl)
  | undone => exact hu.withdraw (hother rfl)
  | waited hg hp => exact hu.adjust (hjoin rfl hg hp)
  | collected hg hp => exact hu.withdraw (hjoin rfl hg hp)
  | departed hd => exact hu.departs hd fun eq => ha _ rfl (eq ▸ hres)
  | _ => exact hu

/-! ## The root process -/

/-- While no process runs, only the launch of the root process changes the table. -/
theorem Turn.table_eq (h : Turn x i o k' o' permits e) (hx : x.Consistent)
    (hi : x.operations[i]? = some o) (ha : Discipline.orderly.allows x o) (hb : o.boots = false)
    (lone : ∀ k r, x.kernel.table.get? k = some r → ∃ (j : Nat) (q : Operation),
      x.operations[j]? = some q ∧ q.reserved? = some k ∧ q.boots = true) :
    k'.table = x.kernel.table := by
  have hown : ∀ {pid : Pid} {r : Record}, x.kernel.table.get? pid = some r →
      o.reserved? ≠ some pid := by
    intro pid r hr ho
    obtain ⟨j, q, hj, hq, hqb⟩ := lone _ _ hr
    have h₁ := (hx.unstarted i o _ hi ho).2
    have h₂ := (hx.unstarted j q _ hj hq).2
    obtain rfl : i = j := Option.some.inj (h₁.symm.trans h₂)
    obtain rfl : o = q := Option.some.inj (hi.symm.trans hj)
    rw [hb] at hqb
    cases hqb
  have hchild : ∀ {pid parent : Pid} {r : Record}, x.kernel.table.get? pid = some r →
      r.parent ≠ some parent := by
    intro pid parent r hr hp
    obtain ⟨j, q, hj, hq, hqb⟩ := lone _ _ hr
    obtain ⟨r', hr', -, -, -, hpar⟩ := (hx.unstarted j q _ hj hq).1
    rw [hr] at hr'; cases hr'
    rw [client?_of_boots hqb, or_self] at hpar
    rw [hp] at hpar
    cases hpar
  cases h with
  | @reserved order b pid pids hal hp =>
    cases hpar : order.parent with
    | none => simp [Operation.boots, Launch.boots, Launch.order?, hpar] at hb
    | some p =>
      obtain ⟨r, hr, -⟩ := hp p hpar
      obtain ⟨j, q, hj, hq, -⟩ := lone p r hr
      exact absurd (Reserved.of_get hj hq) (ha p hpar)
  | stored hr => exact absurd rfl (hown hr)
  | undone hr => exact absurd rfl (hown hr)
  | waited hr hp => exact absurd hp (hchild hr)
  | collected hr hp => exact absurd hp (hchild hr)
  | departed hd =>
    obtain ⟨j, q, hj, hq, -⟩ := lone _ _ hd.was
    exact absurd (Reserved.of_get hj hq) (ha _ rfl)
  | _ => rfl

theorem Turn.vacant (h : Turn x i o k' o' permits e) (hx : x.Consistent)
    (hi : x.operations[i]? = some o) (hb : k'.booted = false) : k'.table.Vacant := by
  cases h with
  | claimed => cases hb
  | cleared => exact (hx.booting i _ hi rfl).vacant rfl
  | @reserved order b pid pids hal hp =>
    cases hpar : order.parent with
    | none =>
      have hboots : Operation.boots ⟨.launch (.reserving order), b⟩ = true := by
        rw [Operation.boots]
        simp [Launch.boots, Launch.order?, hpar]
      have := (hx.booting i _ hi hboots).booted
      rw [show x.kernel.booted = false from hb] at this
      cases this
    | some p =>
      obtain ⟨r, hr, -⟩ := hp p hpar
      exact ((hx.vacant hb).not_some hr).elim
  | stored hr => exact ((hx.vacant hb).not_some hr).elim
  | undone hr => exact ((hx.vacant hb).not_some hr).elim
  | waited hr => exact ((hx.vacant hb).not_some hr).elim
  | collected hr => exact ((hx.vacant hb).not_some hr).elim
  | departed hd => exact ((hx.vacant hb).not_some hd.was).elim
  | _ => exact hx.vacant hb

theorem Turn.booted (h : Turn x i o k' o' permits e) (hb : o.boots = false)
    (hx : x.kernel.booted = true) : k'.booted = true := by
  cases h with
  | claimed => rfl
  | cleared => cases hb
  | _ => exact hx

/-- The launch of a root process goes on while another operation takes its turn. -/
theorem Turn.booting_other (h : Turn x i o k' o' permits e) (hx : x.Consistent)
    (hi : x.operations[i]? = some o) (ha : Discipline.orderly.allows x o)
    (hj : x.operations[j]? = some q) (hq : q.boots = true) (ne : j ≠ i) : Booting k' q := by
  have hb : o.boots = false := Bool.eq_false_iff.2 fun hb => ne (hx.single j i q o hj hi hq hb)
  have b := hx.booting j q hj hq
  refine ⟨h.booted hb b.booted, fun hp => ?_, b.root, fun hs => ?_⟩
  · have v := b.vacant hp
    rw [h.table_eq hx hi ha hb fun k r hr => (v.not_some hr).elim]
    exact v
  · have v := b.solitary hs
    obtain ⟨k₀, hk₀⟩ := Option.isSome_iff_exists.1 hs
    have hroot := b.root k₀ (pid?_of_reserved? hk₀)
    rw [h.table_eq hx hi ha hb fun k r hr => ⟨j, q, hj, ?_, hq⟩]
    · exact v
    · have : k = Pid.root := Classical.byContradiction fun hk => by
        rw [v.get? k hk] at hr
        cases hr
      rw [hk₀, hroot, this]

/-- The first PID is that of the root. -/
theorem vacant_admitted {t : Table} {pids : PidAllocator} (v : t.Vacant)
    (ha : t.pids.alloc = some (pid, pids)) (name : String) :
    pid = Pid.root ∧ (t.admitted pids (.new pid none name)).Solitary := by
  rcases PidAllocator.alloc_eq_some ha with ⟨-, hp, rfl⟩ | ⟨-, rest, hr, -⟩
  · have hroot : pid = Pid.root := by rw [hp, v.next]; rfl
    refine ⟨hroot, fun k hk => ?_, ?_, ?_⟩
    · rw [Table.get?_admitted (r := .new pid none name) _ _ k (fun h => nomatch h)]
      show (if pid = k then _ else _) = _
      rw [if_neg (fun eq : pid = k => hk (eq.symm.trans hroot)), v.get?]
      rfl
    · rw [Table.pids_admitted]
      show t.pids.next + 1 = 1
      rw [v.next]
      rfl
    · rw [Table.pids_admitted]
      exact v.recycled
  · rw [v.recycled] at hr
    cases hr

/-- Nothing is left of the launch of a root process that failed. -/
theorem solitary_rolledBack {t : Table} {r : Record} (v : t.Solitary) (hp : pid = Pid.root) :
    (t.rolledBack pid r).Vacant := by
  have hpids : t.pids.unreserve pid = { t.pids with next := t.pids.next - 1 } :=
    if_pos (by rw [v.next, hp]; rfl)
  refine ⟨fun k => ?_, ?_, ?_⟩
  · rw [Table.get?_rolledBack, Table.get?_withdraw]
    split
    · rfl
    · next ne =>
      rw [v.get? k (fun eq => ne (hp.trans eq.symm))]
      rfl
  · show (t.pids.unreserve pid).next = 0
    rw [hpids, v.next]
    rfl
  · show (t.pids.unreserve pid).recycled = []
    rw [hpids]
    exact v.recycled

/-- The launch of a root process goes on with its own turn. -/
theorem Turn.booting_self (h : Turn x i o k' o' permits e) (hx : x.Consistent)
    (hi : x.operations[i]? = some o) (ho : o'.boots = true) : Booting k' o' := by
  cases h with
  | quiet hm =>
    obtain ⟨hb, hp, hr⟩ := hm.boots ho
    have b := hx.booting i o hi hb
    exact ⟨b.booted, hp ▸ b.vacant, hp ▸ b.root, hr ▸ b.solitary⟩
  | claimed hb => exact ⟨rfl, fun _ => hx.vacant hb, fun _ h => (nomatch h), fun h => (nomatch h)⟩
  | @reserved order b pid pids hal =>
    have hp : order.parent = none := Option.isNone_iff_eq_none.1 ho
    have bt := hx.booting i _ hi ho
    have v := vacant_admitted (bt.vacant rfl) hal order.name
    rw [← hp] at v
    exact ⟨bt.booted, fun h => (nomatch h), fun k hk => (Option.some.inj hk).symm.trans v.1,
      fun _ => v.2⟩
  | stored =>
    have bt := hx.booting i _ hi ho
    have v := bt.solitary rfl
    refine ⟨bt.booted, fun h => (nomatch h), bt.root, fun _ => ⟨fun k hk => ?_, v.next, v.recycled⟩⟩
    rw [Table.get?_adjust, v.get? k hk]
    split <;> rfl
  | undone =>
    have bt := hx.booting i _ hi ho
    exact ⟨bt.booted, fun _ => solitary_rolledBack (bt.solitary rfl) (bt.root _ rfl),
      fun _ h => (nomatch h), fun h => (nomatch h)⟩
  | created =>
    have bt := hx.booting i _ hi ho
    exact ⟨bt.booted, fun h => (nomatch h), bt.root, fun h => (nomatch h)⟩
  | _ => cases ho

/-! ## Every state -/

theorem consistent_new (config : Config) (range : PidRange) : (new config range).Consistent where
  sound := Table.sound_new _ _
  intact := fun _ _ h => nomatch h
  unstarted := fun _ _ _ h => nomatch h
  alone := fun _ _ _ _ _ h => nomatch h
  vacant := fun _ => ⟨fun _ => rfl, rfl, rfl⟩
  booting := fun _ _ h => nomatch h
  single := fun _ _ _ _ h => nomatch h

/-- What an operation at its start does not hold. -/
theorem Started.views (h : Started c) : (⟨c, false⟩ : Operation).reserved? = none ∧
    (⟨c, false⟩ : Operation).boots = false ∧ ¬ (⟨c, false⟩ : Operation).Crashed := by
  cases h <;> exact ⟨rfl, rfl, fun ⟨_, hf⟩ => nomatch hf⟩

theorem Consistent.add (hx : x.Consistent) (hc : Started c)
    (ha : Discipline.orderly.admits x ⟨c, false⟩) : (x.add ⟨c, false⟩).Consistent := by
  obtain ⟨hres, hboots, hok⟩ := hc.views
  refine ⟨hx.sound, fun i o hi => ?_, fun i o k hi hk => ?_, fun i j o o' p hi hj ho ho' => ?_,
    hx.vacant, fun i o hi ho => ?_, fun i j o o' hi hj ho ho' => ?_⟩
  · rcases add_cases hi with hi | ⟨-, rfl⟩
    · exact hx.intact i o hi
    · exact hok
  · rcases add_cases hi with hi | ⟨-, rfl⟩
    · exact hx.unstarted i o k hi hk
    · rw [hres] at hk; cases hk
  · exact unique_add (fun i j o o' => hx.alone i j o o' p) (ha p) hi hj ho ho'
  · rcases add_cases hi with hi | ⟨-, rfl⟩
    · exact hx.booting i o hi ho
    · rw [hboots] at ho; cases ho
  · rcases add_cases hi with hi | ⟨-, rfl⟩ <;> rcases add_cases hj with hj | ⟨-, rfl⟩
    · exact hx.single i j o o' hi hj ho ho'
    · rw [hboots] at ho'; cases ho'
    · rw [hboots] at ho; cases ho
    · rw [hboots] at ho; cases ho

theorem Consistent.put (hx : x.Consistent) (hi : x.operations[i]? = some o)
    (ha : Discipline.orderly.allows x o) (h : Turn x i o k' o' permits e) :
    ((x.put i k' o' e).withPermits permits).Consistent where
  sound := h.sound hx
  intact j q hj := by
    rcases put_cases hi hj with ⟨-, rfl⟩ | ⟨-, hj⟩
    · exact h.intact
    · exact hx.intact j q hj
  unstarted j q k hj hk := by
    rcases put_cases hi hj with ⟨rfl, rfl⟩ | ⟨ne, hj⟩
    · exact h.unstarted_self hx hi hk
    · obtain ⟨⟨r, hr, -⟩, hl⟩ := hx.unstarted j q k hj hk
      exact ⟨h.unstarted_other hx hi ha hj hk ne, (h.launchOf_eq hx hr).trans hl⟩
  alone j l q q' p := unique_put (fun i j o o' => hx.alone i j o o' p) hi h.client?
  vacant hb := h.vacant hx hi hb
  booting j q hj hq := by
    rcases put_cases hi hj with ⟨rfl, rfl⟩ | ⟨ne, hj⟩
    · exact h.booting_self hx hi hq
    · exact h.booting_other hx hi ha hj hq ne
  single j l q q' hj hl hq hq' := by
    -- A launch claims the flag while nobody else holds it.
    have hown : ∀ {m : Nat} {s : Operation}, x.operations[m]? = some s → s.boots = true →
        o'.boots = true → i = m := by
      intro m s hm hs ho
      rcases h.boots ho with hb | hb
      · exact hx.single _ _ _ _ hi hm hb hs
      · rw [(hx.booting _ _ hm hs).booted] at hb; cases hb
    rcases put_cases hi hj with ⟨rfl, rfl⟩ | ⟨-, hj'⟩ <;>
      rcases put_cases hi hl with ⟨rfl, rfl⟩ | ⟨-, hl'⟩
    · rfl
    · exact hown hl' hq' hq
    · exact (hown hj' hq hq').symm
    · exact hx.single j l q q' hj' hl' hq hq'

variable {μ : Type} [UserMemory μ] {d : Discipline} {config : Config} {range : PidRange}

/-- Orderly traffic is consistent. -/
theorem Reachable.consistent (h : Reachable μ d config range x) (hd : d.Implies .orderly) :
    x.Consistent := by
  induction h with
  | start => exact consistent_new config range
  | act _ hp ha hx =>
    rcases hx.act hp ha with
      rfl | ⟨c, hc, hadm, rfl⟩ | ⟨i, o, hi, hall, k', o', permits, e, ht, rfl⟩
    · exact hx
    · exact hx.add hc (hd.admits _ _ hadm)
    · exact hx.put hi (hd.allows _ _ hall) ht

/-- What is kept by every start of an operation and every turn is kept by every action. -/
theorem Consistent.kept {a : Action μ} {effects : List Effect} {I : Traffic → Prop}
    (hx : x.Consistent) (hp : d.Permits x a) (ha : x.act a = some (effects, y)) (hI : I x)
    (add : ∀ c, Started c → d.admits x ⟨c, false⟩ → I (x.add ⟨c, false⟩))
    (put : ∀ i o k' o' permits e, x.operations[i]? = some o → d.allows x o →
      Turn x i o k' o' permits e → I ((x.put i k' o' e).withPermits permits)) : I y := by
  rcases hx.act hp ha with
    rfl | ⟨c, hc, hadm, rfl⟩ | ⟨i, o, hi, hall, k', o', permits, e, ht, rfl⟩
  · exact hI
  · exact add c hc hadm
  · exact put i o k' o' permits e hi hall ht

/-- What holds before the first operation and is kept by every start of an operation and every
turn holds at all times. -/
theorem Reachable.induction {I : Traffic → Prop} (hd : d.Implies .orderly)
    (start : I (new config range))
    (add : ∀ x c, x.Consistent → I x → Started c → d.admits x ⟨c, false⟩ → I (x.add ⟨c, false⟩))
    (put : ∀ x i o k' o' permits e, x.Consistent → I x → x.operations[i]? = some o →
      d.allows x o → Turn x i o k' o' permits e → I ((x.put i k' o' e).withPermits permits))
    (h : Reachable μ d config range x) : I x := by
  induction h with
  | start => exact start
  | act hr hp ha ih =>
    have hx := hr.consistent hd
    exact hx.kept hp ha ih (fun c => add _ c hx ih) fun i o k' o' permits e =>
      put _ i o k' o' permits e hx ih

end Traffic

end Lifecycle
