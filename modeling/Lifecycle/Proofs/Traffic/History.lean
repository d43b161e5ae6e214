import Lifecycle.Proofs.Traffic.Links

/-!
# What the history tells

The history of orderly traffic is true: what is written down about a process agrees with the
operations and with the table.

* `Recorded`: the launches. Each reserves one PID at most, and a record in the table is that of
  the launch that reserved its PID last. The parent of a record is the caller of that launch, which
  has answered or is still under way.
* `Concluded`: the terminations. A record is that of an ended process exactly if a termination of
  its launch is written down, with the same status, and no launch is ended twice.

The step lemmas need no discipline but consistency.
-/

namespace Lifecycle

/-- A launch that has tried to reserve a record, or ended before it could. -/
def Operation.placed (o : Operation) : Bool :=
  match o.call with
  | .launch (.booting _) => false
  | .launch (.reserving _) => false
  | .launch _ => true
  | _ => false

/-- The status that a termination has written into the record of its process. -/
def Operation.wrote? (o : Operation) : Option (Pid × ExitStatus) :=
  match o.call with
  | .terminate ⟨_, _, .departing⟩ => none
  | .terminate ⟨_, _, .finished (.error _)⟩ => none
  | .terminate ⟨_, _, .crashed _⟩ => none
  | .terminate ⟨pid, status, _⟩ => some (pid, status)
  | _ => none

theorem launchOf_mem {h : List Event} {k : Pid} {i : Nat} (hl : launchOf h k = some i) :
    .reserved i k ∈ h := by
  induction h with
  | nil => cases hl
  | cons e rest ih =>
    cases e with
    | reserved j q =>
      simp only [launchOf] at hl
      split at hl
      · next eq => cases hl; subst eq; exact List.mem_cons_self
      · exact List.mem_cons_of_mem _ (ih hl)
    | _ => exact List.mem_cons_of_mem _ (ih hl)

namespace Traffic

variable {x : Traffic} {i j : Nat} {o o' q : Operation} {c k p : Pid} {k' : Kernel} {r : Record}
  {permits : TaskId → Bool} {e : Option Event} {ev : Event} {status : ExitStatus}
  {l : Option Nat} {call : Call}

theorem mem_history : ev ∈ ((x.put i k' o' e).withPermits permits).history ↔
    e = some ev ∨ ev ∈ x.history := by
  show ev ∈ e.toList ++ x.history ↔ _
  rw [List.mem_append, Option.mem_toList]

/-! ## What is written down in a turn -/

section events

variable (h : Turn x i o k' o' permits e)
include h

theorem Turn.of_reserved (hx : x.Consistent) (he : e = some (.reserved j k)) :
    j = i ∧ o.placed = false ∧ o'.placed = true ∧ o'.reserved? = some k ∧
      x.kernel.table.get? k = none := by
  cases h with
  | reserved hal => cases he; exact ⟨rfl, rfl, rfl, rfl, hx.sound.allotted.alloc hal⟩
  | launched => obtain ⟨_, -, h⟩ := Option.map_eq_some_iff.1 he; cases h
  | _ => cases he

theorem Turn.of_launched (he : e = some (.launched j p k)) :
    j = i ∧ o.pid? = some k ∧ o.client? = some p ∧ k'.table = x.kernel.table ∧
      o'.call = .launch (.finished (.ok k)) := by
  cases h with
  | launched =>
    obtain ⟨_, hp, h⟩ := Option.map_eq_some_iff.1 he
    cases h
    exact ⟨rfl, rfl, hp, rfl, rfl⟩
  | _ => cases he

theorem Turn.of_ended (he : e = some (.ended j k l status)) :
    j = i ∧ l = launchOf x.history k ∧
      ∃ r, x.kernel.table.get? k = some r ∧ r.state = .running := by
  cases h with
  | departed hd => cases he; exact ⟨rfl, rfl, _, hd.was, hd.running⟩
  | launched => obtain ⟨_, -, h⟩ := Option.map_eq_some_iff.1 he; cases h
  | _ => cases he

theorem Turn.of_collected (he : e = some (.collected j c k l status)) :
    j = i ∧ l = launchOf x.history k ∧ o.client? = some c ∧ o.pid? = none ∧
      k'.table.get? k = none ∧
      ∃ r, x.kernel.table.get? k = some r ∧ r.parent = some c ∧ r.state = .exited status := by
  cases h with
  | collected hr hp hs =>
    cases he
    refine ⟨rfl, rfl, rfl, rfl, ?_, _, hr, hp, hs⟩
    rw [Table.get?_removed, Table.get?_withdraw, if_pos rfl]
  | launched => obtain ⟨_, -, h⟩ := Option.map_eq_some_iff.1 he; cases h
  | _ => cases he

/-! ## The operation that took the turn -/

theorem Turn.placed (ho : o.placed = true) : o'.placed = true := by
  cases h with
  | quiet hm =>
    cases hm with
    | @abandoned order r err b =>
      rcases Launch.abandon_eq order err with ⟨-, ha⟩ | ⟨-, ha⟩ <;> rw [ha] <;> rfl
    | _ => first | exact ho | rfl | cases ho
  | _ => first | exact ho | rfl

theorem Turn.pid? (ho : o'.pid? = some k) : o.pid? = some k ∨ e = some (.reserved i k) := by
  cases h with
  | quiet hm =>
    cases hm with
    | refused | abandoned => rw [(views_abandon ..).2.1] at ho; cases ho
    | _ => exact .inl ho
  | reserved => cases ho; exact .inr rfl
  | undone | launched => cases ho
  | _ => exact .inl ho

/-- A launch keeps its PID and its caller until it answers or its record is taken out. -/
theorem Turn.pid_kept (ho : o.pid? = some k) (hp : o.client? = some p) :
    (o'.pid? = some k ∧ o'.client? = some p) ∨ e = some (.launched i p k) ∨
      k'.table.get? k = none := by
  cases h with
  | quiet hm =>
    cases hm with
    | loaded | unloaded | unspawned => exact .inl ⟨ho, hp⟩
    | _ => cases ho
  | @launched order =>
    cases ho
    rw [show order.parent = some p from hp]
    exact .inr (.inl rfl)
  | undone =>
    cases ho
    refine .inr (.inr ?_)
    rw [Table.get?_rolledBack, Table.get?_withdraw, if_pos rfl]
  | stored | created => exact .inl ⟨ho, hp⟩
  | _ => cases ho

theorem Turn.not_finished {result : Except ProcessError Pid} :
    o.call ≠ .launch (.finished result) := by
  cases h with
  | quiet hm => cases hm <;> exact fun h => nomatch h
  | _ => exact fun h => nomatch h

theorem Turn.wrote? (ho : o'.wrote? = some (k, status)) :
    o.wrote? = some (k, status) ∨ e = some (.ended i k (launchOf x.history k) status) := by
  cases h with
  | quiet hm => cases hm <;> exact .inl ho
  | departed => cases ho; exact .inr rfl
  | _ => exact .inl ho

end events

/-! ## Launches -/

/-- What the history tells of launches (module doc). -/
structure Recorded (x : Traffic) : Prop where
  placed : ∀ (i : Nat) (k : Pid), .reserved i k ∈ x.history →
    ∃ o : Operation, x.operations[i]? = some o ∧ o.placed = true
  once : ∀ (i : Nat) (k k' : Pid), .reserved i k ∈ x.history → .reserved i k' ∈ x.history → k = k'
  held : ∀ (i : Nat) (o : Operation) (k : Pid), x.operations[i]? = some o → o.pid? = some k →
    .reserved i k ∈ x.history
  known : ∀ (k : Pid) (r : Record), x.kernel.table.get? k = some r →
    ∃ i, launchOf x.history k = some i
  answered : ∀ (i : Nat) (p k : Pid), .launched i p k ∈ x.history → .reserved i k ∈ x.history ∧
    ∃ o : Operation, x.operations[i]? = some o ∧ o.call = .launch (.finished (.ok k))
  parent : ∀ (k p : Pid) (r : Record) (i : Nat), x.kernel.table.get? k = some r →
    r.parent = some p → launchOf x.history k = some i → .launched i p k ∈ x.history ∨
      ∃ o : Operation, x.operations[i]? = some o ∧ o.pid? = some k ∧ o.client? = some p

theorem Recorded.same (hr : x.Recorded) {k k₀ : Pid} (hk : launchOf x.history k = some i)
    (hk₀ : launchOf x.history k₀ = some i) : k = k₀ :=
  hr.once i k k₀ (launchOf_mem hk) (launchOf_mem hk₀)

theorem recorded_new (config : Config) (range : PidRange) : (new config range).Recorded where
  placed := fun _ _ h => nomatch h
  once := fun _ _ _ h => nomatch h
  held := fun _ _ _ h => nomatch h
  known := fun _ _ h => nomatch h
  answered := fun _ _ _ h => nomatch h
  parent := fun _ _ _ _ h => nomatch h

theorem Recorded.add (hr : x.Recorded) (hc : Started call) : (x.add ⟨call, false⟩).Recorded where
  placed i k hk := by
    obtain ⟨o, hi, ho⟩ := hr.placed i k hk
    exact ⟨o, get_add hi, ho⟩
  once := hr.once
  held i o k hi hk := by
    rcases add_cases hi with hi | ⟨-, rfl⟩
    · exact hr.held i o k hi hk
    · cases hc <;> cases hk
  known := hr.known
  answered i p k hk := by
    obtain ⟨hres, o, hi, ho⟩ := hr.answered i p k hk
    exact ⟨hres, o, get_add hi, ho⟩
  parent k p r i hg hp hl := by
    refine (hr.parent k p r i hg hp hl).imp_right ?_
    exact fun ⟨o, hi, ho⟩ => ⟨o, get_add hi, ho⟩

section put

variable (hr : x.Recorded) (hx : x.Consistent) (hi : x.operations[i]? = some o)
  (h : Turn x i o k' o' permits e)
include hr hx hi h

/-- A launch that reserves a record has reserved none before. -/
theorem Recorded.first (he : e = some (.reserved j k)) {k₀ : Pid} :
    .reserved j k₀ ∉ x.history := by
  intro hm
  obtain ⟨rfl, ho, -⟩ := h.of_reserved hx he
  obtain ⟨o₁, hi₁, ho₁⟩ := hr.placed _ _ hm
  obtain rfl : o = o₁ := Option.some.inj (hi.symm.trans hi₁)
  rw [ho] at ho₁
  cases ho₁

/-- The parent link of a record that was in the table before the turn. -/
theorem Recorded.parent_kept {r₀ : Record} (hk : k'.table.get? k = some r)
    (hg : x.kernel.table.get? k = some r₀) (hp : r₀.parent = some p)
    (hl : launchOf (e.toList ++ x.history) k = some j) :
    .launched j p k ∈ e.toList ++ x.history ∨
      ∃ q : Operation, ((x.put i k' o' e).withPermits permits).operations[j]? = some q ∧
        q.pid? = some k ∧ q.client? = some p := by
  rw [h.launchOf_eq hx hg] at hl
  rcases hr.parent k p r₀ j hg hp hl with hm | ⟨q, hj, hqk, hqp⟩
  · exact .inl (List.mem_append_right _ hm)
  · rcases get_put_cases k' o' permits e hi hj with ⟨rfl, rfl, hj⟩ | ⟨-, hj⟩
    · rcases h.pid_kept hqk hqp with ho' | he | hn
      · exact .inr ⟨o', hj, ho'⟩
      · exact .inl (by rw [he]; exact List.mem_cons_self)
      · rw [hn] at hk
        cases hk
    · exact .inr ⟨q, hj, hqk, hqp⟩

theorem Recorded.put : ((x.put i k' o' e).withPermits permits).Recorded where
  placed j k hm := by
    rcases mem_history.1 hm with he | hm
    · obtain ⟨rfl, -, ho', -⟩ := h.of_reserved hx he
      exact ⟨o', get_put_self hi, ho'⟩
    · obtain ⟨q, hj, hq⟩ := hr.placed j k hm
      rcases get_put_cases k' o' permits e hi hj with ⟨rfl, rfl, hj⟩ | ⟨-, hj⟩
      · exact ⟨o', hj, h.placed hq⟩
      · exact ⟨q, hj, hq⟩
  once j k k₀ hk hk₀ := by
    rcases mem_history.1 hk with he | hk <;> rcases mem_history.1 hk₀ with he₀ | hk₀
    · rw [he] at he₀
      cases he₀
      rfl
    · exact absurd hk₀ (hr.first hx hi h he)
    · exact absurd hk (hr.first hx hi h he₀)
    · exact hr.once j k k₀ hk hk₀
  held j q k hj hq := by
    rw [mem_history]
    rcases put_cases hi hj with ⟨rfl, rfl⟩ | ⟨-, hj⟩
    · exact (h.pid? hq).symm.imp_right (hr.held _ _ _ hi)
    · exact .inr (hr.held j q k hj hq)
  known k r hk := by
    show ∃ i, launchOf (e.toList ++ x.history) k = some i
    cases h.origin hx hk with
    | reserved he => exact ⟨i, by rw [he]; exact if_pos rfl⟩
    | ended hg => rw [h.launchOf_eq hx hg]; exact hr.known k _ hg
    | kept hg => rw [h.launchOf_eq hx hg]; exact hr.known k _ hg
  answered j p k hm := by
    rw [mem_history] at hm
    rcases hm with he | hm
    · obtain ⟨rfl, hok, -, -, ho'⟩ := h.of_launched he
      exact ⟨mem_history.2 (.inr (hr.held _ _ _ hi hok)), o', get_put_self hi, ho'⟩
    · obtain ⟨hres, q, hj, hq⟩ := hr.answered j p k hm
      refine ⟨mem_history.2 (.inr hres), ?_⟩
      rcases get_put_cases k' o' permits e hi hj with ⟨-, rfl, -⟩ | ⟨-, hj⟩
      · exact absurd hq h.not_finished
      · exact ⟨q, hj, hq⟩
  parent k p r j hk hp hl := by
    cases h.origin hx hk with
    | reserved he hpid _ hpar =>
      rcases h.launch_cases hx hk hl with ⟨-, rfl⟩ | ⟨-, r₀, hs⟩
      · exact .inr ⟨o', get_put_self hi, hpid, hpar.symm.trans hp⟩
      · rw [(h.of_reserved hx he).2.2.2.2] at hs
        cases hs
    | ended hg _ _ _ hpar => exact hr.parent_kept hx hi h hk hg (hpar.symm.trans hp) hl
    | kept hg _ _ hpar =>
      rcases hpar with hpar | hpar
      · exact hr.parent_kept hx hi h hk hg (hpar.symm.trans hp) hl
      · rw [hpar] at hp
        cases hp

end put

/-! ## Terminations -/

/-- What the history tells of terminations (module doc). -/
structure Concluded (x : Traffic) : Prop where
  state : ∀ (k : Pid) (r : Record) (i : Nat) (status : ExitStatus),
    x.kernel.table.get? k = some r → launchOf x.history k = some i →
    (r.state = .exited status ↔ ∃ j, .ended j k (some i) status ∈ x.history)
  launch : ∀ (j : Nat) (k : Pid) (l : Option Nat) (status : ExitStatus),
    .ended j k l status ∈ x.history → ∃ i, l = some i ∧ .reserved i k ∈ x.history
  once : ∀ (j j' : Nat) (k k' : Pid) (l : Option Nat) (status status' : ExitStatus),
    .ended j k l status ∈ x.history → .ended j' k' l status' ∈ x.history →
    j = j' ∧ k = k' ∧ status = status'
  wrote : ∀ (j : Nat) (o : Operation) (k : Pid) (status : ExitStatus), x.operations[j]? = some o →
    o.wrote? = some (k, status) → ∃ l, .ended j k l status ∈ x.history

theorem concluded_new (config : Config) (range : PidRange) : (new config range).Concluded where
  state := fun _ _ _ _ h => nomatch h
  launch := fun _ _ _ _ h => nomatch h
  once := fun _ _ _ _ _ _ _ h => nomatch h
  wrote := fun _ _ _ _ h => nomatch h

theorem Concluded.add (hc : x.Concluded) (hs : Started call) :
    (x.add ⟨call, false⟩).Concluded where
  state := hc.state
  launch := hc.launch
  once := hc.once
  wrote j o k status hj ho := by
    rcases add_cases hj with hj | ⟨-, rfl⟩
    · exact hc.wrote j o k status hj ho
    · cases hs <;> cases ho

/-- A launch whose record is that of a running process was not ended before. -/
theorem Concluded.running (hc : x.Concluded) (hr : x.Recorded)
    (hk : x.kernel.table.get? k = some r) (hs : r.state = .running)
    (hl : launchOf x.history k = some j) {m : Nat} {c : Pid} :
    .ended m c (some j) status ∉ x.history := by
  intro hm
  obtain ⟨n, hn, hres⟩ := hc.launch _ _ _ _ hm
  cases hn
  obtain rfl := hr.once j k c (launchOf_mem hl) hres
  have := (hc.state k r j status hk hl).2 ⟨m, hm⟩
  rw [hs] at this
  cases this

/-- A termination ends a launch that was not ended before. -/
theorem Concluded.fresh (hc : x.Concluded) (hr : x.Recorded) (h : Turn x i o k' o' permits e)
    {m n : Nat} {status' : ExitStatus} (he : e = some (.ended m k l status)) :
    .ended n c l status' ∉ x.history := by
  obtain ⟨-, rfl, r, hg, hrun⟩ := h.of_ended he
  obtain ⟨j, hl⟩ := hr.known k r hg
  rw [hl]
  exact hc.running hr hg hrun hl

section put

variable (hc : x.Concluded) (hr : x.Recorded) (hx : x.Consistent)
  (hi : x.operations[i]? = some o) (h : Turn x i o k' o' permits e)
include hc hr hx hi h

theorem Concluded.state_put (hk : k'.table.get? k = some r)
    (hl : launchOf (e.toList ++ x.history) k = some j) : r.state = .exited status ↔
      ∃ m, .ended m k (some j) status ∈ ((x.put i k' o' e).withPermits permits).history := by
  have hlc := h.launch_cases hx hk hl
  cases h.origin hx hk with
  | reserved he _ hrun =>
    have hfree := (h.of_reserved hx he).2.2.2.2
    obtain ⟨-, rfl⟩ : e = some (.reserved i k) ∧ j = i := hlc.resolve_right fun ⟨_, _, hs⟩ => by
      rw [hfree] at hs
      cases hs
    refine ⟨fun hs => ?_, fun ⟨m, hm⟩ => ?_⟩
    · rw [hrun] at hs
      cases hs
    · rw [mem_history, he] at hm
      rcases hm with hm | hm
      · cases hm
      · obtain ⟨n, hn, hres⟩ := hc.launch _ _ _ _ hm
        cases hn
        exact absurd hres (hr.first hx hi h he)
  | @ended r₀ status₀ hg he hrun hst =>
    rw [h.launchOf_eq hx hg] at hl
    refine ⟨fun hs => ⟨i, ?_⟩, fun ⟨m, hm⟩ => ?_⟩
    · rw [hst] at hs
      cases hs
      rw [mem_history, he, hl]
      exact .inl rfl
    · rw [mem_history, he, hl] at hm
      rcases hm with hm | hm
      · cases hm
        exact hst
      · exact absurd hm (hc.running hr hg hrun hl)
  | kept hg hne hst =>
    rw [h.launchOf_eq hx hg] at hl
    rw [hst, hc.state k _ j status hg hl]
    refine ⟨fun ⟨m, hm⟩ => ⟨m, mem_history.2 (.inr hm)⟩, fun ⟨m, hm⟩ => ⟨m, ?_⟩⟩
    exact (mem_history.1 hm).resolve_left (hne _ _ _)

theorem Concluded.put : ((x.put i k' o' e).withPermits permits).Concluded where
  state k r j status hk hl := hc.state_put hr hx hi h hk hl
  launch j k l status hm := by
    rcases mem_history.1 hm with he | hm
    · obtain ⟨-, rfl, r, hg, -⟩ := h.of_ended he
      obtain ⟨j, hl⟩ := hr.known k r hg
      exact ⟨j, hl, mem_history.2 (.inr (launchOf_mem hl))⟩
    · obtain ⟨j, rfl, hres⟩ := hc.launch j k l status hm
      exact ⟨j, rfl, mem_history.2 (.inr hres)⟩
  once j j' k k₀ l status status' hm hm' := by
    rcases mem_history.1 hm with he | hm <;> rcases mem_history.1 hm' with he' | hm'
    · rw [he] at he'
      cases he'
      exact ⟨rfl, rfl, rfl⟩
    · exact absurd hm' (hc.fresh hr h he)
    · exact absurd hm (hc.fresh hr h he')
    · exact hc.once j j' k k₀ l status status' hm hm'
  wrote j q k status hj hq := by
    simp only [mem_history]
    rcases put_cases hi hj with ⟨rfl, rfl⟩ | ⟨-, hj⟩
    · rcases h.wrote? hq with ho | he
      · exact (hc.wrote _ o k status hi ho).imp fun l hm => .inr hm
      · exact ⟨_, .inl he⟩
    · exact (hc.wrote j q k status hj hq).imp fun l hm => .inr hm

end put

end Traffic

end Lifecycle
