import Lifecycle.Proofs.Traffic.Delivery

/-!
# Who halts the machine

A request to halt is granted to the process with the PID of the root, and a PID is handed out again
when the record of its process has left the table. So the number is that of the root process as
long as never-used numbers are left, and may be that of any process after that.

* `LaunchedBy x i p k`: the record of `k` was reserved by operation `i`, a launch by the process
  `p`. `BootedBy x i k`: it was reserved by operation `i`, the launch of a root process.
* `Exhausted range h`: every number of the range has been handed out.
* `Rooted`: the invariant. No launch by a process gets the PID of the root before that.
* `Reachable.halt_granted`: a granted request is one of the process that the launch of the root
  created, unless all numbers have been handed out.
* `reusedNumber_granted`: then it may be granted to another process.
-/

namespace Lifecycle

namespace PidAllocator

variable {a a' : PidAllocator} {pid : Pid}

/-- The numbers below the counter after an allocation are those before and the one handed out. -/
theorem lt_next_alloc {k : Pid} (h : a.alloc = some (pid, a'))
    (hk : k.number.toNat < a'.next.toNat) : k.number.toNat < a.next.toNat ∨ pid = k := by
  rcases alloc_eq_some h with ⟨hle, rfl, rfl⟩ | ⟨-, rest, -, rfl⟩
  · rw [toNat_next hle] at hk
    rcases Nat.lt_succ_iff_lt_or_eq.1 hk with hlt | heq
    · exact .inl hlt
    · exact .inr (Pid.toNat_inj.1 heq.symm)
  · exact .inl hk

/-- Giving a number back does not raise the counter. -/
theorem next_unreserve_le (h : pid.number.toNat < a.next.toNat) :
    (a.unreserve pid).next.toNat ≤ a.next.toNat := by
  unfold unreserve
  split
  · next last =>
    have := toNat_rewound last
    show (a.next - 1).toNat ≤ _
    omega
  · exact Nat.le_refl _

end PidAllocator

/-- Every number of the range has been handed out. -/
def Exhausted (range : PidRange) (h : List Event) : Prop :=
  ∀ k, range.Contains k → ∃ i, .reserved i k ∈ h

namespace Traffic

variable {x y : Traffic} {i j : Nat} {o o' q : Operation} {c k p : Pid} {k' : Kernel} {r : Record}
  {permits : TaskId → Bool} {e : Option Event} {call : Call} {range : PidRange}

/-- Operation `i`, a launch by the process `p`, has reserved the record of `k`. -/
def LaunchedBy (x : Traffic) (i : Nat) (p k : Pid) : Prop :=
  .launched i p k ∈ x.history ∨
    ∃ o, x.operations[i]? = some o ∧ o.pid? = some k ∧ o.client? = some p

/-- Operation `i`, the launch of a root process, has reserved the record of `k`. -/
def BootedBy (x : Traffic) (i : Nat) (k : Pid) : Prop :=
  (∃ o, x.operations[i]? = some o ∧ (o.pid? = some k ∨ o.call = .launch (.finished (.ok k)))) ∧
    ∀ p, ¬ x.LaunchedBy i p k

/-- The numbers that were handed out, and the launches of the records (module doc). -/
structure Rooted (range : PidRange) (x : Traffic) : Prop where
  range_eq : x.kernel.range = range
  issued : ∀ k : Pid, k.number.toNat < x.kernel.table.pids.next.toNat →
    ∃ i, .reserved i k ∈ x.history
  source : ∀ (k : Pid) (r : Record) (i : Nat), x.kernel.table.get? k = some r →
    launchOf x.history k = some i →
    ∃ o, x.operations[i]? = some o ∧ (o.pid? = some k ∨ o.call = .launch (.finished (.ok k)))
  root : ∀ (i : Nat) (p : Pid), x.LaunchedBy i p .root → Exhausted range x.history

section views

variable (h : Turn x i o k' o' permits e)
include h

theorem Turn.range_eq : k'.range = x.kernel.range := by
  cases h with
  | reserved ha => exact (congrArg _ Table.pids_admitted).trans (PidAllocator.range_alloc ha)
  | undone => exact PidAllocator.range_unreserve _ _
  | departed hd => exact hd.bounds.range
  | _ => rfl

theorem Turn.lt_next (hx : x.Consistent) (hk : k.number.toNat < k'.table.pids.next.toNat) :
    k.number.toNat < x.kernel.table.pids.next.toNat ∨ e = some (.reserved i k) := by
  cases h with
  | reserved ha =>
    rw [Table.pids_admitted] at hk
    exact (PidAllocator.lt_next_alloc ha hk).imp_right (congrArg fun k => some (Event.reserved i k))
  | undone hr =>
    have hle := PidAllocator.next_unreserve_le (hx.sound.allotted.lt_next hr)
    exact .inl (Nat.lt_of_lt_of_le hk hle)
  | departed hd => exact .inl (hd.bounds.next ▸ hk)
  | _ => exact .inl hk

/-- A launch keeps its PID until it answers it or its record is taken out. -/
theorem Turn.pid_next (ho : o.pid? = some k) : o'.pid? = some k ∨
    o'.call = .launch (.finished (.ok k)) ∨ k'.table.get? k = none := by
  cases h with
  | quiet hm =>
    cases hm with
    | loaded | unloaded | unspawned => exact .inl ho
    | _ => cases ho
  | launched =>
    cases ho
    exact .inr (.inl rfl)
  | undone =>
    cases ho
    refine .inr (.inr ?_)
    rw [Table.get?_rolledBack, Table.get?_withdraw, if_pos rfl]
  | stored | created => exact .inl ho
  | _ => cases ho

/-- A launch by a process gets the PID of the root after all numbers have been handed out. -/
theorem Turn.reserved_root (hx : x.Consistent)
    (issued : ∀ k : Pid, k.number.toNat < x.kernel.table.pids.next.toNat →
      ∃ i, .reserved i k ∈ x.history)
    (he : e = some (.reserved i .root)) (hp : o'.client? = some p) :
    Exhausted x.kernel.range x.history := by
  cases h with
  | @reserved order b pid pids ha hpar =>
    obtain rfl : pid = .root := by cases he; rfl
    obtain ⟨r, hr, -⟩ := hpar p hp
    rcases PidAllocator.alloc_eq_some ha with ⟨-, hroot, -⟩ | ⟨hfull, -⟩
    · -- The caller has a PID below the counter, which is zero.
      have hzero : x.kernel.table.pids.next = 0 := (congrArg Pid.number hroot).symm
      have hlt := hx.sound.allotted.lt_next hr
      rw [hzero] at hlt
      exact absurd hlt (Nat.not_lt_zero _)
    · intro k hk
      refine issued k (Nat.lt_of_le_of_lt (UInt32.le_iff_toNat_le.1 hk) ?_)
      exact UInt32.lt_iff_toNat_lt.1 (UInt32.not_le.1 hfull)
  | @launched order => cases hpar : order.parent <;> rw [hpar] at he <;> cases he
  | _ => cases he

end views

theorem rooted_new (config : Config) (range : PidRange) : (new config range).Rooted range where
  range_eq := rfl
  issued := fun _ h => absurd h (Nat.not_lt_zero _)
  source := fun _ _ _ h => nomatch h
  root := fun _ _ h => h.elim (fun h => nomatch h) fun ⟨_, h, _⟩ => nomatch h

theorem Rooted.add (hx : x.Rooted range) (hc : Started call) :
    (x.add ⟨call, false⟩).Rooted range where
  range_eq := hx.range_eq
  issued := hx.issued
  source k r i hr hl := by
    obtain ⟨o, hi, ho⟩ := hx.source k r i hr hl
    exact ⟨o, get_add hi, ho⟩
  root i p hl := by
    refine hx.root i p (hl.imp_right ?_)
    rintro ⟨o, hi, ho, hp⟩
    rcases add_cases hi with hi | ⟨-, rfl⟩
    · exact ⟨o, hi, ho, hp⟩
    · cases hc <;> cases ho

/-- Who has launched a process after a turn, and before it. -/
theorem LaunchedBy.of_put (hi : x.operations[i]? = some o) (h : Turn x i o k' o' permits e)
    (hl : ((x.put i k' o' e).withPermits permits).LaunchedBy j p k) :
    x.LaunchedBy j p k ∨ (e = some (.reserved i k) ∧ o'.client? = some p) := by
  rcases hl with hm | ⟨q, hj, hq, hp⟩
  · rcases mem_history.1 hm with he | hm
    · obtain ⟨rfl, ho, hp, -⟩ := h.of_launched he
      exact .inl (.inr ⟨o, hi, ho, hp⟩)
    · exact .inl (.inl hm)
  · rcases put_cases hi hj with ⟨rfl, rfl⟩ | ⟨-, hj⟩
    · rcases h.pid? hq with ho | he
      · have hsame : q.client? = o.client? := h.client?.resolve_left fun hn => by
          rw [hn] at hp
          cases hp
        exact .inl (.inr ⟨o, hi, ho, hsame ▸ hp⟩)
      · exact .inr ⟨he, hp⟩
    · exact .inl (.inr ⟨q, hj, hq, hp⟩)

theorem Exhausted.mono {h h' : List Event} (hh : Exhausted range h) (hs : ∀ e ∈ h, e ∈ h') :
    Exhausted range h' := fun k hk => (hh k hk).imp fun _ hm => hs _ hm

theorem Rooted.put (hx : x.Rooted range) (hc : x.Consistent) (hi : x.operations[i]? = some o)
    (h : Turn x i o k' o' permits e) :
    ((x.put i k' o' e).withPermits permits).Rooted range where
  range_eq := h.range_eq.trans hx.range_eq
  issued k hk := by
    simp only [mem_history]
    rcases h.lt_next hc hk with hlt | he
    · exact (hx.issued k hlt).imp fun _ hm => .inr hm
    · exact ⟨i, .inl he⟩
  source k r j hk hl := by
    rcases h.launch_cases hc hk hl with ⟨he, rfl⟩ | ⟨hl, r₀, hr⟩
    · have hres := (h.of_reserved hc he).2.2.2.1
      exact ⟨o', get_put_self hi, .inl (pid?_of_reserved? hres)⟩
    · obtain ⟨q, hj, hq⟩ := hx.source k r₀ j hr hl
      rcases get_put_cases k' o' permits e hi hj with ⟨-, rfl, hj⟩ | ⟨-, hj⟩
      · refine ⟨o', hj, ?_⟩
        rcases hq with hq | hq
        · rcases h.pid_next hq with ho | ho | hn
          · exact .inl ho
          · exact .inr ho
          · cases hn.symm.trans hk
        · exact absurd hq h.not_finished
      · exact ⟨q, hj, hq⟩
  root j p hl := by
    have hs : ∀ ev ∈ x.history, ev ∈ ((x.put i k' o' e).withPermits permits).history :=
      fun _ hm => mem_history.2 (.inr hm)
    rcases hl.of_put hi h with hl | ⟨he, hp⟩
    · exact Exhausted.mono (hx.root j p hl) hs
    · exact Exhausted.mono (hx.range_eq ▸ h.reserved_root hc hx.issued he hp) hs

variable {μ : Type} [UserMemory μ] {config : Config}

theorem Reachable.rooted (h : Reachable μ .orderly config range x) : x.Rooted range :=
  h.induction .rfl (rooted_new config range)
    (fun _ _ _ hx hc _ => hx.add hc) (fun _ _ _ _ _ _ _ hc hx hi _ h => hx.put hc hi h)

/-- A request to halt is granted to the process with the PID of the root. -/
theorem root_of_granted {b : Bool} {effects : List Effect}
    (hj : x.operations[j]? = some ⟨.halt (.asked c), b⟩)
    (ha : x.act (.turn j .advance : Action μ) = some (effects, y))
    (hy : y.operations[j]? = some ⟨.halt (.finished (.ok ())), b⟩) : c = .root := by
  obtain rfl : (x.advance j ⟨.halt (.asked c), b⟩).2 = y := by
    simp only [act, hj, Option.bind_some, turn, Call.stepsLeft, Nat.one_ne_zero, ↓reduceIte,
      Option.some.injEq] at ha
    rw [ha]
  refine Classical.byContradiction fun hne => ?_
  simp only [advance, Call.step, HaltRequest.step, ne_eq, hne, not_false_eq_true, ↓reduceIte] at hy
  rw [get_put_self hj] at hy
  cases hy

/-- In orderly traffic, if a request of a registered process to halt the machine is granted, the
process is the one that the launch of the root created, unless every number of the range has been
handed out. -/
theorem Reachable.halt_granted {b : Bool} {effects : List Effect}
    (h : Reachable μ .orderly config range x) (hr : x.kernel.table.get? c = some r)
    (hj : x.operations[j]? = some ⟨.halt (.asked c), b⟩)
    (ha : x.act (.turn j .advance : Action μ) = some (effects, y))
    (hy : y.operations[j]? = some ⟨.halt (.finished (.ok ())), b⟩) :
    c = .root ∧ ∃ i, launchOf x.history c = some i ∧
      (x.BootedBy i c ∨ Exhausted range x.history) := by
  obtain rfl := root_of_granted hj ha hy
  have hx := h.rooted
  obtain ⟨i, hl⟩ := (h.history .rfl).1.known _ r hr
  refine ⟨rfl, i, hl, ?_⟩
  by_cases hby : ∃ p, x.LaunchedBy i p .root
  · obtain ⟨p, hp⟩ := hby
    exact .inr (hx.root i p hp)
  · exact .inl ⟨hx.source _ r i hr hl, fun p hp => hby ⟨p, hp⟩⟩

/-- The root process, launched at the second attempt, asks to halt while its child runs. -/
def rootAsks : Traffic :=
  (new { suffix := none } .standard).after .orderly (μ := Bytes)
    (List.flatten [[.invoke (.boot "init"), .turn 0 .advance, .turn 0 .advance,
        .turn 0 (.load (.error .notFound)), .turn 0 .advance, .turn 0 .advance, .turn 0 .advance,
        .invoke (.boot "init"), .turn 1 .advance], launching 1,
      [.invoke (.exec .root "child" 0)], launching 2, [.invoke (.halt .root)]])

theorem rootAsks_granted : (∃ effects y, rootAsks.act (.turn 3 .advance : Action Bytes) =
      some (effects, y) ∧ y.operations[3]? = some ⟨.halt (.finished (.ok ())), false⟩) ∧
    Pid.root = .root ∧ ∃ i, launchOf rootAsks.history .root = some i ∧
      (rootAsks.BootedBy i .root ∨ Exhausted .standard rootAsks.history) := by
  have granted : ∃ effects y, rootAsks.act (.turn 3 .advance : Action Bytes) = some (effects, y) ∧
      y.operations[3]? = some ⟨.halt (.finished (.ok ())), false⟩ := ⟨_, _, rfl, rfl⟩
  obtain ⟨_, _, ha, hy⟩ := granted
  have reach : Reachable Bytes .orderly _ _ rootAsks := Reachable.start.after _
  exact ⟨⟨_, _, ha, hy⟩, reach.halt_granted (r := _) rfl rfl ha hy⟩

/-- With two PIDs: the root process ends while its child runs, and the child launches a process
that gets the PID of the root and asks to halt. -/
def reusedNumber : Traffic :=
  (new { suffix := none } (.upTo 1)).after .strict (μ := Bytes)
    (List.flatten [[.invoke (.boot "init"), .turn 0 .advance], launching 0,
      [.invoke (.exec .root "child" 0)], launching 1,
      [.invoke (.exit .root 0), .turn 2 .advance, .turn 2 .advance, .turn 2 .advance,
        .turn 2 .advance, .invoke (.exec ⟨1⟩ "grandchild" 0)], launching 3,
      [.invoke (.halt .root)]])

/-- The request is granted, though the process was launched by another one. -/
theorem reusedNumber_granted :
    Reachable Bytes .strict { suffix := none } (.upTo 1) reusedNumber ∧
    (∃ r, reusedNumber.kernel.table.get? .root = some r ∧ r.state = .running ∧
      r.parent = some ⟨1⟩) ∧
    launchOf reusedNumber.history .root = some 3 ∧
    .launched 3 ⟨1⟩ .root ∈ reusedNumber.history ∧
    reusedNumber.operations[4]? = some ⟨.halt (.asked .root), false⟩ ∧
    ∃ y, reusedNumber.act (.turn 4 .advance : Action Bytes) =
        some ([.note .haltRequested, .halt], y) ∧
      y.operations[4]? = some ⟨.halt (.finished (.ok ())), false⟩ :=
  ⟨Reachable.start.after _, ⟨_, rfl, rfl, rfl⟩, by decide, by decide, rfl, _, rfl, rfl⟩

end Traffic

end Lifecycle
