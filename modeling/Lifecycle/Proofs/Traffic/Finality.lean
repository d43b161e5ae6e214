import Lifecycle.Proofs.ListLemmas
import Lifecycle.Proofs.Traffic.Idleness
import Lifecycle.Proofs.Traffic.Runs

/-!
# A halt for idleness is final

A termination looks at the count of running records and halts the machine if it is zero. Then the
table is empty: an ended process keeps its record only for a parent that runs. It stays empty, for
nobody can register a record any more. A launch needs a running parent, and the root process was
launched already.

* `Settled x₀ x`: the table is empty since `x₀` and stays so.
* `Call.Fails`: the call ends with an error in its next step, if it has not yet.
* `Consistent.settled`: the critical section after which no process runs leaves a settled system.
* `Run.halts_once`: when a termination halts the machine, its critical section left an empty table,
  no record is registered after it and every operation fails that starts later, and no termination
  halts the machine again.
-/

namespace Lifecycle

/-- In a table in which nobody runs there is nobody who could collect a status. -/
theorem Table.Sound.empty_of_idle {t : Table} (h : t.Sound) (hi : t.Idle) (k : Pid) :
    t.get? k = none := by
  cases hr : t.get? k with
  | none => rfl
  | some r =>
    obtain ⟨p, hp⟩ := Option.isSome_iff_exists.1 (h.forest.exited hr (hi k r hr)).1
    obtain ⟨q, hq, hs⟩ := h.forest.parent_running ⟨r, hr, hp⟩
    exact (hi.not_running hq hs).elim

/-- The operation ended with an error. -/
def Ended.Refused : Ended → Prop
  | launched (.error _) => True
  | joined _ (.error _) => True
  | terminated _ (.error _) => True
  | _ => False

/-- The call has ended with an error after its next step. A call that has ended stays as it is. -/
def Call.Fails (k : Kernel) (c : Call) : Prop :=
  ∃ e, (c.step k).2.2.ended? = some e ∧ e.Refused

namespace Traffic

/-- A call that has not yet come to a critical section, or has been refused. -/
inductive Doomed : Call → Prop where
  | started {c : Call} : Started c → Doomed c
  | joined {caller child : Pid} {task : TaskId} {e : ProcessError} :
      Doomed (.join ⟨caller, child, task, .finished (.error e)⟩)
  | terminated {pid : Pid} {status : ExitStatus} {e : ProcessError} :
      Doomed (.terminate ⟨pid, status, .finished (.error e)⟩)
  | halted {result : Except ProcessError Unit} : Doomed (.halt (.finished result))

/-- The table is empty and stays so: the root process exists no more, and no launch of one may
fail any more. The operations that were at their start in `x₀`, or start later, do nothing. -/
structure Settled (x₀ x : Traffic) : Prop where
  empty : ∀ k, x.kernel.table.get? k = none
  booted : x.kernel.booted = true
  boots : ∀ (i : Nat) (o : Operation), x.operations[i]? = some o → o.boots = true →
    ∃ order pid image, o = ⟨.launch (.spawning order pid image), true⟩
  late : ∀ (i : Nat) (o : Operation), x.operations[i]? = some o →
    (∀ q, x₀.operations[i]? = some q → Started q.call) → Doomed o.call

/-- In `x` the table is empty, and the operations fail that were at their start in `x₀` or started
later. A request to halt needs no process. -/
structure Still (x₀ x : Traffic) : Prop where
  empty : ∀ k, x.kernel.table.get? k = none
  fails : ∀ (i : Nat) (o : Operation), x.operations[i]? = some o →
    (∀ q, x₀.operations[i]? = some q → Started q.call) → (∀ r, o.call ≠ .halt r) →
    o.call.Fails x.kernel

variable {x x₀ y : Traffic} {i j : Nat} {o o' q : Operation} {k pid : Pid} {k' : Kernel}
  {r : Record} {permits : TaskId → Bool} {e : Option Event} {effects : List Effect} {c : Call}

/-! ## A settled system stays settled -/

theorem Settled.not_some (hs : Settled x₀ x) (hr : x.kernel.table.get? k = some r) : False := by
  rw [hs.empty] at hr
  cases hr

section turn

variable (h : Turn x i o k' o' permits e) (hs : Settled x₀ x) (hi : x.operations[i]? = some o)
include h hs hi

/-- No turn changes the kernel of a settled system. -/
theorem Turn.kernel_settled : k' = x.kernel := by
  cases h with
  | claimed hb => rw [hs.booted] at hb; cases hb
  | cleared => obtain ⟨_, _, _, ho⟩ := hs.boots i _ hi rfl; cases ho
  | @reserved order b pid pids ha hp =>
    cases hpar : order.parent with
    | none =>
      have hboots : Operation.boots ⟨.launch (.reserving order), b⟩ = true := by
        simp [Operation.boots, Launch.boots, Launch.order?, hpar]
      obtain ⟨_, _, _, ho⟩ := hs.boots i _ hi hboots
      cases ho
    | some p =>
      obtain ⟨r, hr, -⟩ := hp p hpar
      exact (hs.not_some hr).elim
  | stored hr => exact (hs.not_some hr).elim
  | undone hr => exact (hs.not_some hr).elim
  | waited hr => exact (hs.not_some hr).elim
  | collected hr => exact (hs.not_some hr).elim
  | departed hd => exact (hs.not_some hd.was).elim
  | _ => rfl

/-- The launch of a root process that is still under way has its task. -/
theorem Turn.boots_settled (ho : o'.boots = true) :
    ∃ order pid image, o' = ⟨.launch (.spawning order pid image), true⟩ := by
  have hb : o.boots = true := (h.boots ho).resolve_right (by rw [hs.booted]; exact nofun)
  obtain ⟨order, pid, image, rfl⟩ := hs.boots i o hi hb
  cases h with
  | quiet hm => cases hm
  | created => exact ⟨order, pid, image, rfl⟩
  | launched => cases ho

theorem Turn.doomed_settled (ho : Doomed o.call) : Doomed o'.call := by
  cases h with
  | quiet hm =>
    cases hm with
    | declined => exact .started .unfit
    | refused =>
      cases ho with
      | started hst => cases hst; exact .started .unfit
    | missed => exact .terminated
    | halted => exact .halted
    | _ => cases ho with | started hst => cases hst
  | claimed hb => rw [hs.booted] at hb; cases hb
  | reserved _ hp =>
    cases ho with
    | started hst =>
      cases hst
      obtain ⟨r, hr, -⟩ := hp _ rfl
      exact (hs.not_some hr).elim
  | unjoined => exact .joined
  | waited hr => exact (hs.not_some hr).elim
  | collected hr => exact (hs.not_some hr).elim
  | departed hd => exact (hs.not_some hd.was).elim
  | _ => cases ho with | started hst => cases hst

theorem Settled.put : Settled x₀ ((x.put i k' o' e).withPermits permits) := by
  have hk : k' = x.kernel := h.kernel_settled hs hi
  subst hk
  refine ⟨hs.empty, hs.booted, fun j q hj hq => ?_, fun j q hj hq => ?_⟩
  · rcases put_cases hi hj with ⟨rfl, rfl⟩ | ⟨-, hj⟩
    · exact h.boots_settled hs hi hq
    · exact hs.boots j q hj hq
  · rcases put_cases hi hj with ⟨rfl, rfl⟩ | ⟨-, hj⟩
    · exact h.doomed_settled hs hi (hs.late _ o hi hq)
    · exact hs.late j q hj hq

end turn

theorem Settled.add (hs : Settled x₀ x) (hc : Started c) : Settled x₀ (x.add ⟨c, false⟩) := by
  refine ⟨hs.empty, hs.booted, fun j q hj hq => ?_, fun j q hj hq => ?_⟩
  · rcases add_cases hj with hj | ⟨-, rfl⟩
    · exact hs.boots j q hj hq
    · rw [hc.views.2.1] at hq
      cases hq
  · rcases add_cases hj with hj | ⟨-, rfl⟩
    · exact hs.late j q hj hq
    · exact .started hc

/-- With an empty table every call fails that needs a process, and so does one that boots. -/
theorem Doomed.fails {k : Kernel} (hc : Doomed c) (hn : ∀ r, c ≠ .halt r) (hb : k.booted = true)
    (he : ∀ p, k.table.get? p = none) : c.Fails k := by
  have hrun : ∀ p, k.table.running? p = none := fun p => by rw [Table.running?, he]; rfl
  unfold Call.Fails
  cases hc with
  | joined | terminated => exact ⟨_, rfl, trivial⟩
  | halted => exact absurd rfl (hn _)
  | started hst =>
    cases hst with
    | unfit => exact ⟨_, rfl, trivial⟩
    | boot =>
      simp only [Call.step, Launch.step, if_pos hb]
      exact ⟨_, rfl, trivial⟩
    | exec =>
      simp only [Call.step, Launch.step, Table.allocate, Option.any_some, hrun]
      exact ⟨_, rfl, trivial⟩
    | join =>
      simp only [Call.step, Join.step, Table.checkJoin, he]
      exact ⟨_, rfl, trivial⟩
    | terminate =>
      simp only [Call.step, Termination.step, Table.depart, hrun]
      exact ⟨_, rfl, trivial⟩
    | halt => exact absurd rfl (hn _)

theorem Settled.still (hs : Settled x₀ x) : Still x₀ x :=
  ⟨hs.empty, fun i o hi hl hn => (hs.late i o hi hl).fails hn hs.booted hs.empty⟩

/-! ## The termination that leaves no running process -/

/-- The launch of a root process that is under way while a process ends has its task already. -/
theorem Consistent.boots_of_departs (hx : x.Consistent) {status : ExitStatus} {t : Table}
    (hd : x.kernel.table.Departs pid status r t) (hres : ¬ x.Reserved pid)
    (hj : x.operations[j]? = some q) (hq : q.boots = true) :
    ∃ order p image, q = ⟨.launch (.spawning order p image), true⟩ := by
  have b := hx.booting j q hj hq
  have hpid : q.pid?.isSome = true := by
    rw [Option.isSome_iff_ne_none]
    exact fun hn => (b.vacant hn).not_some hd.was
  have hfree : q.reserved? = none := by
    rw [← Option.not_isSome_iff_eq_none]
    intro hs
    -- The only process is the root, and it cannot be ended yet.
    obtain ⟨k, hk⟩ := Option.isSome_iff_exists.1 hs
    have hroot := b.root k (pid?_of_reserved? hk)
    have hone : pid = .root := Classical.byContradiction fun hne => by
      have hgone := (b.solitary hs).get? pid hne
      rw [hd.was] at hgone
      cases hgone
    exact hres (hone ▸ hroot ▸ Reserved.of_get hj hk)
  obtain ⟨call, begun⟩ := q
  cases call with
  | launch l =>
    cases l with
    | spawning order p image =>
      cases begun with
      | true => exact ⟨order, p, image, rfl⟩
      | false => cases hfree
    | loading | storing | undoing => cases hfree
    | _ => cases hpid
  | _ => cases hpid

/-- The critical section of a termination after which no process runs leaves a settled system. -/
theorem Consistent.settled (hx : x.Consistent) {status : ExitStatus} {b : Bool} {t : Table}
    (hi : x.operations[i]? = some ⟨.terminate ⟨pid, status, .departing⟩, b⟩)
    (ha : Discipline.orderly.allows x ⟨.terminate ⟨pid, status, .departing⟩, b⟩)
    (hd : x.kernel.table.Departs pid status r t) (hidle : t.Idle)
    (hy : y = (x.put i { x.kernel with table := t } o' e).withPermits permits)
    (ho' : o'.boots = false) : Settled y y := by
  subst hy
  refine ⟨(hd.sound hx.sound).empty_of_idle hidle, ?_, fun j q hj hq => ?_,
    fun j q hj hl => .started (hl q hj)⟩
  · show x.kernel.booted = true
    rw [← Bool.not_eq_false]
    exact fun hb => (hx.vacant hb).not_some hd.was
  · rcases put_cases hi hj with ⟨-, rfl⟩ | ⟨-, hj⟩
    · rw [ho'] at hq
      cases hq
    · exact hx.boots_of_departs hd (ha pid rfl) hj hq

variable {μ : Type} [UserMemory μ] {d : Discipline} {config : Config} {range : PidRange}
  {a : Action μ} {s s' : Step μ} {steps : List (Step μ)}

/-- The operation `i` of the step ends a process in it. -/
def Step.Departs (s : Step μ) (i : Nat) : Prop :=
  (∃ stimulus, s.action = .turn i stimulus) ∧ ∃ pid status departure b,
    s.before.operations[i]? = some ⟨.terminate ⟨pid, status, .departing⟩, b⟩ ∧
    s.after.operations[i]? = some ⟨.terminate ⟨pid, status, .releasing departure⟩, b⟩

/-- The operation `i` of the step is a termination, and halts the machine in it. -/
def Step.HaltsIdle (s : Step μ) (i : Nat) : Prop :=
  (∃ stimulus, s.action = .turn i stimulus) ∧
    (∃ t b, s.before.operations[i]? = some ⟨.terminate t, b⟩) ∧ .halt ∈ s.effects

/-- A termination that has to halt the machine has left a settled system. -/
theorem Run.closing (h : Run μ .orderly config range steps x) (hc : x.Closing i) :
    ∃ later s earlier, steps = later ++ s :: earlier ∧ s.Departs i ∧ Settled s.after s.after := by
  induction h with
  | start =>
    obtain ⟨_, _, _, _, hi, -⟩ := hc
    cases hi
  | @act steps x y a effects h hp ha ih =>
    have hx := h.consistent .rfl
    have before : x.Closing i → ∃ later s earlier,
        ⟨x, a, effects, y⟩ :: steps = later ++ s :: earlier ∧ s.Departs i ∧
          Settled s.after s.after := by
      intro hc
      obtain ⟨later, s, earlier, rfl, hs⟩ := ih hc
      exact ⟨_ :: later, s, earlier, rfl, hs⟩
    obtain ⟨pid, status, stage, b, hi, hidle⟩ := hc
    rcases hx.act_at hp ha hi with hi | hst | ⟨o, stimulus, k', permits, e, rfl, hi', hall, ht, hy⟩
    · exact before ⟨pid, status, stage, b, hi, hidle⟩
    · cases hst
      cases hidle
    · cases ht with
      | quiet hm =>
        cases hm with
        | released => exact before ⟨_, _, _, _, hi', hidle⟩
        | _ => cases hidle
      | signalled => exact before ⟨_, _, _, _, hi', hidle⟩
      | departed hd =>
        have ht := hd.counted.idle_iff.2 (of_decide_eq_true hidle)
        refine ⟨[], _, steps, rfl, ⟨⟨stimulus, rfl⟩, _, _, _, _, hi', hi⟩, ?_⟩
        exact hx.settled hi' hall hd ht hy rfl

/-- A settled system stays settled. -/
theorem Run.settled {later earlier : List (Step μ)}
    (h : Run μ .orderly config range (later ++ s :: earlier) x) (hs : Settled s.after s.after) :
    Settled s.after x :=
  h.since .rfl hs (fun _ _ hs hc => hs.add hc) fun _ _ _ _ _ _ _ _ hs hi ht => hs.put ht hi

/-- Nothing is to be ended in a settled system. -/
theorem Step.Departs.not_settled (hd : s.Departs i) (hx : s.before.Consistent)
    (ha : s.before.act s.action = some (s.effects, s.after)) : ¬ Settled x₀ s.before := by
  intro hs
  obtain ⟨⟨stimulus, hact⟩, pid, status, departure, b, hi, hi'⟩ := hd
  rw [hact] at ha
  obtain ⟨k', o', permits, e, ht, hy⟩ := hx.turn hi (turn_of_act hi ha)
  have hd := ht.doomed_settled hs hi (.started .terminate)
  rw [hy, get_put_self hi] at hi'
  obtain rfl := Option.some.inj hi'
  cases hd with
  | started hst => cases hst

/-- The system is settled by one action only. -/
theorem Run.settled_once {later earlier later' earlier' : List (Step μ)}
    (h : Run μ .orderly config range steps x) (he : steps = later ++ s :: earlier)
    (he' : steps = later' ++ s' :: earlier') (hd : s.Departs i) (hs : Settled s.after s.after)
    (hd' : s'.Departs j) (hs' : Settled s'.after s'.after) : earlier = earlier' ∧ s = s' := by
  suffices heq : earlier = earlier' by
    subst heq
    have htail := (List.append_inj' (he.symm.trans he') rfl).2
    exact ⟨rfl, (List.cons.inj htail).1⟩
  refine Classical.byContradiction fun hne => ?_
  rcases split_cases (he.symm.trans he') hne with ⟨mid, rfl, rfl⟩ | ⟨mid, rfl, rfl⟩
  · subst he
    obtain ⟨hb, -, ha, -⟩ := h.split
    exact hd.not_settled (hb.consistent .rfl) ha (hb.settled hs')
  · subst he'
    obtain ⟨hb, -, ha, -⟩ := h.split
    exact hd'.not_settled (hb.consistent .rfl) ha (hb.settled hs)

/-- A termination halts the machine in its last step. -/
theorem Step.HaltsIdle.closing (hh : s.HaltsIdle i)
    (ha : s.before.act s.action = some (s.effects, s.after)) : s.before.Closing i ∧
      ∃ pid status result b,
        s.after.operations[i]? = some ⟨.terminate ⟨pid, status, .finished result⟩, b⟩ := by
  obtain ⟨⟨stimulus, hact⟩, ⟨⟨pid, status, stage⟩, b, hi⟩, hm⟩ := hh
  obtain ⟨x, action, effects, y⟩ := s
  dsimp only at hact hi hm ha
  subst hact
  have hadv := turn_termination (turn_of_act hi ha)
  cases stage with
  | departing =>
    simp only [advance, Call.step, Termination.step] at hadv
    split at hadv <;> cases hadv
    · cases hm
    · cases hm
    · simp [Effect.releaseAll] at hm
  | releasing departure =>
    cases hadv
    simp [Effect.releaseAll] at hm
  | waking waiter idle =>
    cases hadv
    simp at hm
  | closing idle =>
    cases hadv
    refine ⟨⟨pid, status, .closing idle, b, hi, ?_⟩, pid, status, .ok (), b, get_put_self hi⟩
    simp only [Termination.idleEffects, List.mem_cons, reduceCtorEq, false_or] at hm
    split at hm
    · next h => exact (Bool.and_eq_true _ _ ▸ h).1
    · cases hm
  | _ => cases hadv; cases hm

/-- A termination that has ended takes no more turns. -/
theorem Run.ended_since {later earlier : List (Step μ)}
    (h : Run μ .orderly config range (later ++ s :: earlier) x)
    (hi : ∃ pid status result b,
      s.after.operations[i]? = some ⟨.terminate ⟨pid, status, .finished result⟩, b⟩) :
    ¬ x.Closing i := by
  have hx : ∃ pid status result b,
      x.operations[i]? = some ⟨.terminate ⟨pid, status, .finished result⟩, b⟩ := by
    refine h.since (I := fun x => ∃ pid status result b,
      x.operations[i]? = some ⟨.terminate ⟨pid, status, .finished result⟩, b⟩) .rfl hi
      (fun x c ⟨pid, status, result, b, hi⟩ _ => ⟨pid, status, result, b, get_add hi⟩) ?_
    rintro x j o k' o' permits e - ⟨pid, status, result, b, hi⟩ hj ht
    by_cases hij : i = j
    · subst hij
      obtain rfl := Option.some.inj (hi.symm.trans hj)
      cases ht with
      | quiet hm => cases hm
    · exact ⟨pid, status, result, b, (get_put_ne hij).trans hi⟩
  rintro ⟨_, _, _, _, hi', hs⟩
  obtain ⟨_, _, _, _, hi⟩ := hx
  rw [hi] at hi'
  cases hi'
  cases hs

/-- No termination halts the machine after another one did. -/
theorem Run.not_halts_again {later mid earlier : List (Step μ)}
    (h : Run μ .orderly config range (later ++ s :: (mid ++ s' :: earlier)) x)
    (hh : s.HaltsIdle i) (hh' : s'.HaltsIdle j) : False := by
  obtain ⟨hb, -, ha, -⟩ := h.split
  obtain ⟨hb', -, ha', -⟩ := hb.split
  obtain ⟨hc, -⟩ := hh.closing ha
  obtain ⟨hc', hend⟩ := hh'.closing ha'
  obtain ⟨m, s₀, first, hm, hd, hs⟩ := hb.closing hc
  obtain ⟨m', s₀', first', hm', hd', hs'⟩ := hb'.closing hc'
  -- Both have ended the last process in the same step, so they are one termination.
  subst hm'
  obtain ⟨-, rfl⟩ := hb.settled_once hm (List.append_assoc mid (s' :: m') _).symm hd hs hd' hs'
  obtain ⟨⟨_, hact⟩, -⟩ := hd
  obtain ⟨⟨_, hact'⟩, -⟩ := hd'
  obtain rfl : i = j := by
    rw [hact] at hact'
    cases hact'
    rfl
  exact hb.ended_since hend hc

/-- In orderly traffic, when a termination halts the machine: its critical section left a table
without any record; from then on no record is registered, and every operation fails that starts
later, or is at its start then. And no termination halts the machine again. -/
theorem Run.halts_once (h : Run μ .orderly config range steps x) :
    (∀ later s earlier i, steps = later ++ s :: earlier → s.HaltsIdle i →
      ∃ mid s₀ first, earlier = mid ++ s₀ :: first ∧ s₀.Departs i ∧ Still s₀.after s₀.after ∧
        ∀ s' ∈ later ++ s :: mid, Still s₀.after s'.after) ∧
    ∀ later s earlier i later' s' earlier' j, steps = later ++ s :: earlier →
      steps = later' ++ s' :: earlier' → s.HaltsIdle i → s'.HaltsIdle j → earlier = earlier' := by
  refine ⟨fun later s earlier i he hh => ?_,
    fun later s earlier i later' s' earlier' j he he' hh hh' => ?_⟩
  · subst he
    obtain ⟨hb, -, ha, -⟩ := h.split
    obtain ⟨mid, s₀, first, rfl, hd, hs⟩ := hb.closing (hh.closing ha).1
    refine ⟨mid, s₀, first, rfl, hd, hs.still, fun s' hs' => ?_⟩
    obtain ⟨a, b, hab⟩ := List.append_of_mem hs'
    have hsplit : later ++ s :: (mid ++ s₀ :: first) = a ++ s' :: (b ++ s₀ :: first) := by
      rw [← List.cons_append, ← List.append_assoc, hab, List.append_assoc, List.cons_append]
    rw [hsplit] at h
    have hrun : Run μ .orderly config range ((s' :: b) ++ s₀ :: first) s'.after := h.split.2.2.2
    exact (hrun.settled hs).still
  · refine Classical.byContradiction fun hne => ?_
    rcases split_cases (he.symm.trans he') hne with ⟨mid, rfl, rfl⟩ | ⟨mid, rfl, rfl⟩
    · subst he
      exact h.not_halts_again hh hh'
    · subst he'
      exact h.not_halts_again hh' hh

/-- The root process has ended before it has collected its child, and is about to halt the
machine. -/
def uncollectedChild : Traffic :=
  (new { suffix := none } .standard).after .orderly (μ := Bytes)
    (List.flatten [[.invoke (.boot "init"), .turn 0 .advance], launching 0,
      [.invoke (.exec .root "child" 0)], launching 1,
      [.invoke (.exit ⟨1⟩ 7), .turn 2 .advance, .turn 2 .advance, .turn 2 .advance,
        .turn 2 .advance, .invoke (.exit .root 0), .turn 3 .advance, .turn 3 .advance,
        .turn 3 .advance]])

/-- It halts the machine, and a second boot and a launch come to nothing. -/
theorem uncollectedChild_final :
    ∃ later s earlier x, Run Bytes .orderly { suffix := none } .standard (later ++ s :: earlier) x ∧
      s.before = uncollectedChild ∧ s.HaltsIdle 3 ∧ later.length = 4 ∧
      ∃ mid s₀ first, earlier = mid ++ s₀ :: first ∧ s₀.Departs 3 ∧ Still s₀.after s₀.after ∧
        ∀ s' ∈ later ++ s :: mid, Still s₀.after s'.after := by
  obtain ⟨steps, h₁⟩ : ∃ steps, Run Bytes .orderly { suffix := none } .standard steps
      uncollectedChild := ⟨_, Run.start.after _⟩
  obtain ⟨effects, y, ha, hm, hlog⟩ : ∃ effects y,
      uncollectedChild.act (.turn 3 .advance : Action Bytes) = some (effects, y) ∧ .halt ∈ effects ∧
      (y.log .orderly (μ := Bytes) [.invoke (.boot "init"), .invoke (.exec .root "child" 0),
        .turn 4 .advance, .turn 5 .advance]).length = 4 :=
    ⟨_, _, rfl, .tail _ (.tail _ (.head _)), rfl⟩
  have h₂ := Run.act h₁ (by decide) ha
  have h₃ := h₂.after [.invoke (.boot "init"), .invoke (.exec .root "child" 0), .turn 4 .advance,
    .turn 5 .advance]
  have hi : uncollectedChild.operations[3]? =
      some ⟨.terminate ⟨.root, .code 0, .closing true⟩, false⟩ := rfl
  have hh : (⟨uncollectedChild, .turn 3 .advance, effects, y⟩ : Step Bytes).HaltsIdle 3 := by
    refine ⟨⟨.advance, rfl⟩, ?_, hm⟩
    exact ⟨_, _, hi⟩
  obtain ⟨mid, s₀, first, he, hd, hs, hl⟩ := h₃.halts_once.1 _ _ _ 3 rfl hh
  exact ⟨_, _, _, _, h₃, rfl, hh, hlog, mid, s₀, first, he, hd, hs, hl⟩

end Traffic

end Lifecycle
