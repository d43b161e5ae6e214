import Lifecycle.Memory.Bytes
import Lifecycle.Proofs.Traffic.Idleness
import Lifecycle.Proofs.Traffic.Links
import Lifecycle.Proofs.Traffic.Runs
import Mathlib.Data.List.Forall2

/-!
# Spurious wakeups

A sleep may end for no reason, or by a permit that the task holds from an earlier join. The join
then looks at its child again.

The traffic is orderly (`Discipline.orderly`): a process makes no call while its last one has not
ended, and a process without a task makes none at all.

* `Check`: what the critical section of a join finds, and what it leaves.
* `Enlisted`: the task is the waiter of the child, if that runs. A join that has slept once stays
  enlisted until it ends, so it does not take its own task for another one when it looks again.
* `Step.Collects`, `Step.Rejects`: the two checks after which a join ends. After any other one it
  sleeps again, and the table is what it was.
* `Resolved`: the join has looked for the last time. It has if it has found the process ended.
* `Thins`: some wakeups of sleeping joins are left out of a log, each with the look after it that
  sent the task to sleep again.
* `Run.spurious_wakeups`: what is left is the log of a run with the same tables and results.
-/

namespace Lifecycle

namespace Table

variable {t : Table} {c k : Pid} {task : TaskId} {r : Record}

/-- If the child `k` of `c` runs, `task` is its waiter. -/
def Enlisted (t : Table) (c k : Pid) (task : TaskId) : Prop :=
  ∀ r, t.get? k = some r → r.parent = some c → r.state = .running → r.waiter = some task

theorem adjust_eq_self {f : Record → Record} (hr : t.get? k = some r) (hf : f r = r) :
    t.adjust k f = t := by
  have hrec : t.records.adjust k f = t.records := PidMap.ext fun k' => by
    rw [PidMap.get?_adjust]
    split
    · next eq =>
      subst eq
      rw [show t.records.get? k = some r from hr, Option.map_some, hf]
    · rfl
  rw [adjust, hrec]

/-- A waiter is entered a second time. -/
theorem Enlisted.adjust_waiter (h : t.Enlisted c k task) (hr : t.get? k = some r)
    (hp : r.parent = some c) (hs : r.state = .running) :
    (t.adjust k fun r => { r with waiter := some task }) = t := by
  refine adjust_eq_self hr ?_
  rw [← h r hr hp hs]

theorem enlisted_adjust (t : Table) (c k : Pid) (task : TaskId) :
    (t.adjust k fun r => { r with waiter := some task }).Enlisted c k task := by
  intro r hr _ _
  rw [get?_adjust, if_pos rfl] at hr
  obtain ⟨q, -, rfl⟩ := Option.map_eq_some_iff.1 hr
  rfl

end Table

namespace Traffic

variable {x y : Traffic} {i j : Nat} {o o' q : Operation} {c k : Pid} {t : TaskId} {b : Bool}
  {k' : Kernel} {permits : TaskId → Bool} {e : Option Event} {stimulus : Stimulus}
  {effects : List Effect} {status : ExitStatus}

/-! ## The look at the child -/

/-- What operation `i`, a join of `k` by the task `t` of `c`, finds in its critical section, and
what it leaves. -/
inductive Check (x : Traffic) (i : Nat) (c k : Pid) (t : TaskId) (b : Bool) (y : Traffic) :
    Prop where
  | collected {r : Record} {status : ExitStatus} : x.kernel.table.get? k = some r →
      r.parent = some c → r.state = .exited status →
      y.kernel.table = x.kernel.table.removed k r →
      y.operations[i]? = some ⟨.join ⟨c, k, t, .discarding status (some r)⟩, b⟩ →
      Check x i c k t b y
  | rejected : x.kernel.table.Unjoinable c k t → y.kernel = x.kernel →
      y.operations[i]? = some ⟨.join ⟨c, k, t, .finished (.error .invalidJoin)⟩, b⟩ →
      Check x i c k t b y
  | waits {r : Record} : x.kernel.table.get? k = some r → r.parent = some c →
      r.state = .running →
      y.kernel = { x.kernel with
        table := x.kernel.table.adjust k fun r => { r with waiter := some t } } →
      y.operations[i]? = some ⟨.join ⟨c, k, t, .sleeping⟩, b⟩ → Check x i c k t b y

theorem Consistent.check (hx : x.Consistent)
    (hi : x.operations[i]? = some ⟨.join ⟨c, k, t, .checking⟩, b⟩)
    (h : x.turn i ⟨.join ⟨c, k, t, .checking⟩, b⟩ stimulus = some (effects, y)) :
    stimulus = .advance ∧ Check x i c k t b y := by
  cases turn_iff.1 h with
  | advance =>
    refine ⟨rfl, ?_⟩
    simp only [advance, Call.step, Join.step]
    have hl := Table.checkJoin_look hx.sound c k t
    generalize x.kernel.table.checkJoin c k t = found at hl
    cases hl with
    | notChild hn => exact .rejected (.inl hn) rfl (get_put_self hi)
    | busy hr hp _ hw ne =>
      exact .rejected (.inr ⟨_, _, hr, hp, hw, ne⟩) rfl (get_put_self hi)
    | waiting hr hp hs => exact .waits hr hp hs rfl (get_put_self hi)
    | collected hr hp hs => exact .collected hr hp hs rfl (get_put_self hi)

/-- The child of a task that is enlisted runs: the look leaves the kernel as it is. -/
theorem Check.unmoved {r : Record} (h : Check x i c k t b y)
    (hen : x.kernel.table.Enlisted c k t) (hr : x.kernel.table.get? k = some r)
    (hp : r.parent = some c) (hs : r.state = .running) :
    y.kernel = x.kernel ∧ y.operations[i]? = some ⟨.join ⟨c, k, t, .sleeping⟩, b⟩ := by
  cases h with
  | collected hr' _ hs' =>
    rw [hr] at hr'
    cases hr'
    rw [hs] at hs'
    cases hs'
  | rejected hn =>
    rcases hn with hn | ⟨r', other, hr', -, hw, ne⟩
    · exact absurd ⟨r, hr, hp⟩ hn
    · rw [hr] at hr'
      cases hr'
      rw [hen r hr hp hs] at hw
      exact absurd (Option.some.inj hw).symm ne
  | waits hr' hp' hs' hk hy =>
    refine ⟨?_, hy⟩
    rw [hk, hen.adjust_waiter hr' hp' hs']

/-! ## A task that has slept is enlisted -/

/-- The look of no other operation, and no other step of one, takes the place of the waiter. -/
theorem Turn.enlisted_other (h : Turn x i o k' o' permits e) (hx : x.Consistent)
    (hi : x.operations[i]? = some o) (hj : x.operations[j]? = some q) (hq : q.client? = some c)
    (ne : j ≠ i) (hen : x.kernel.table.Enlisted c k t) : k'.table.Enlisted c k t := by
  intro r' hr' hp' hs'
  have hother : o.client? ≠ some c := fun ho => ne (hx.alone j i q o c hj hi hq ho)
  cases h.origin hx hr' with
  | reserved _ _ _ hpar =>
    rw [hp'] at hpar
    rcases h.client? with hn | heq
    · rw [hn] at hpar
      cases hpar
    · exact absurd (heq.symm.trans hpar.symm) hother
  | ended _ _ _ hst =>
    rw [hs'] at hst
    cases hst
  | @kept r hr _ hst hpar hw =>
    have hp : r.parent = some c := by
      rcases hpar with hpar | hpar
      · exact hpar.symm.trans hp'
      · rw [hp'] at hpar
        cases hpar
    rcases hw with hw | ⟨p, task, b, hp₁, -, ho, -⟩
    · rw [hw]
      exact hen r hr hp (hst.symm.trans hs')
    · obtain rfl : p = c := Option.some.inj (hp₁.symm.trans hp')
      exact absurd (by rw [ho]; rfl) hother

/-- A join that goes to sleep has entered its task. -/
theorem Turn.enlisted_sleeping (h : Turn x i o k' ⟨.join ⟨c, k, t, .sleeping⟩, b⟩ permits e) :
    k'.table.Enlisted c k t := by
  cases h with
  | quiet hm => cases hm
  | waited => exact Table.enlisted_adjust _ c k t

/-- In orderly traffic every task that sleeps is enlisted. -/
theorem Reachable.enlisted {μ : Type} [UserMemory μ] {config : Config} {range : PidRange}
    (h : Reachable μ .orderly config range x)
    (hj : x.operations[j]? = some ⟨.join ⟨c, k, t, .sleeping⟩, b⟩) :
    x.kernel.table.Enlisted c k t := by
  have hall : ∀ (j : Nat) (c k : Pid) (t : TaskId) (b : Bool),
      x.operations[j]? = some ⟨.join ⟨c, k, t, .sleeping⟩, b⟩ → x.kernel.table.Enlisted c k t := by
    refine h.induction (I := fun x => ∀ (j : Nat) (c k : Pid) (t : TaskId) (b : Bool),
      x.operations[j]? = some ⟨.join ⟨c, k, t, .sleeping⟩, b⟩ → x.kernel.table.Enlisted c k t)
      .rfl (fun _ _ _ _ _ h => nomatch h) ?_ ?_
    · intro x call _ ih hc _ j c k t b hj
      rcases add_cases hj with hj | ⟨-, eq⟩
      · exact ih j c k t b hj
      · cases eq
        cases hc
    · intro x i o k' o' permits e hx ih hi _ ht j c k t b hj
      rcases put_cases hi hj with ⟨-, rfl⟩ | ⟨ne, hj⟩
      · exact ht.enlisted_sleeping
      · exact ht.enlisted_other hx hi hj rfl ne (ih j c k t b hj)
  exact hall j c k t b hj

/-! ## A join that has slept, while its caller is not ended -/

/-- Operation `j` is a join of `k` by the task `t` of `c`. Until it has ended `k` is a child of `c`
and the task is enlisted. -/
def Dozes (x : Traffic) (j : Nat) (c k : Pid) (t : TaskId) : Prop :=
  ∃ stage b, x.operations[j]? = some ⟨.join ⟨c, k, t, stage⟩, b⟩ ∧
    (stage = .checking ∨ stage = .sleeping →
      x.kernel.table.HasParent k c ∧ x.kernel.table.Enlisted c k t)

/-- A turn of a join that dozes. -/
theorem Turn.dozes_self {stage : JoinStage}
    (h : Turn x i ⟨.join ⟨c, k, t, stage⟩, b⟩ k' o' permits e)
    (hd : stage = .checking ∨ stage = .sleeping →
      x.kernel.table.HasParent k c ∧ x.kernel.table.Enlisted c k t) :
    ∃ stage', o' = ⟨.join ⟨c, k, t, stage'⟩, b⟩ ∧
      (stage' = .checking ∨ stage' = .sleeping →
        k'.table.HasParent k c ∧ k'.table.Enlisted c k t) := by
  cases h with
  | quiet hm =>
    cases hm with
    | joined => exact ⟨_, rfl, fun h => h.elim nofun nofun⟩
  | unjoined => exact ⟨_, rfl, fun h => h.elim nofun nofun⟩
  | collected => exact ⟨_, rfl, fun h => h.elim nofun nofun⟩
  | woken => exact ⟨_, rfl, fun _ => hd (.inr rfl)⟩
  | waited =>
    refine ⟨_, rfl, fun _ => ⟨?_, Table.enlisted_adjust _ c k t⟩⟩
    exact (Table.hasParent_adjust (Table.inner_waiter _)).2 (hd (.inl rfl)).1

theorem Dozes.put (hd : x.Dozes j c k t) (hx : x.Consistent) (hi : x.operations[i]? = some o)
    (h : Turn x i o k' o' permits e) (he : ∀ l status, e ≠ some (.ended i c l status)) :
    ((x.put i k' o' e).withPermits permits).Dozes j c k t := by
  obtain ⟨stage, b, hj, hd⟩ := hd
  rcases get_put_cases k' o' permits e hi hj with ⟨rfl, rfl, hj'⟩ | ⟨ne, hj'⟩
  · obtain ⟨stage', rfl, hd'⟩ := h.dozes_self hd
    exact ⟨stage', b, hj', hd'⟩
  · refine ⟨stage, b, hj', fun hst => ?_⟩
    obtain ⟨hp, hen⟩ := hd hst
    have hq : Operation.client? ⟨.join ⟨c, k, t, stage⟩, b⟩ = some c := by
      rcases hst with rfl | rfl <;> rfl
    have hother : o.client? ≠ some c := fun ho => ne (hx.alone j i _ o c hj hi hq ho)
    refine ⟨?_, h.enlisted_other hx hi hj hq ne hen⟩
    rcases h.hasParent_kept hx hp with hp' | ⟨_, _, -, ho, -⟩ | ⟨l, status, heq, -⟩ | ⟨ho, -⟩
    · exact hp'
    · exact absurd ho hother
    · exact absurd heq (he l status)
    · -- The caller of the launch of `k` would be in the middle of that launch.
      obtain ⟨⟨r, hr, -, -, -, hpar⟩, -⟩ := hx.unstarted i o k hi ho
      obtain ⟨r', hr', hp'⟩ := hp
      rw [hr] at hr'
      cases hr'
      rw [hp'] at hpar
      exact absurd (hpar.resolve_left nofun).symm hother

variable {μ : Type} [UserMemory μ] {config : Config} {range : PidRange} {a : Action μ}
  {steps later mid earlier : List (Step μ)} {s s₀ : Step μ}

/-- The process `c` is ended in the step. -/
def Step.Ends (s : Step μ) (c : Pid) : Prop :=
  ∃ i l status, s.after.history = .ended i c l status :: s.before.history

/-- Operation `j`, a join of `k` by the task `t` of `c`, looks at `k` and goes to sleep. -/
def Step.Sleeps (s : Step μ) (j : Nat) (c k : Pid) (t : TaskId) : Prop :=
  s.action = .turn j .advance ∧ ∃ b,
    s.before.operations[j]? = some ⟨.join ⟨c, k, t, .checking⟩, b⟩ ∧
    s.after.operations[j]? = some ⟨.join ⟨c, k, t, .sleeping⟩, b⟩

theorem Step.Sleeps.dozes (h : s.Sleeps j c k t) (hx : s.before.Consistent)
    (ha : s.before.act s.action = some (s.effects, s.after)) : s.after.Dozes j c k t := by
  obtain ⟨hact, b, hj, hj'⟩ := h
  rw [hact] at ha
  obtain ⟨k', o', permits, e, ht, hy⟩ := hx.turn hj (turn_of_act hj ha)
  have ho' : o' = ⟨.join ⟨c, k, t, .sleeping⟩, b⟩ := by
    rw [hy, get_put_self hj] at hj'
    exact Option.some.inj hj'
  subst ho'
  refine ⟨.sleeping, b, hj', fun _ => ?_⟩
  rw [hy]
  cases ht with
  | quiet hm => cases hm
  | waited hr hp =>
    refine ⟨?_, Table.enlisted_adjust _ c k t⟩
    exact (Table.hasParent_adjust (Table.inner_waiter _)).2 ⟨_, hr, hp⟩

/-- As long as its caller is not ended, a join that has slept finds itself enlisted. -/
theorem Run.dozes (h : Run μ .orderly config range (mid ++ s₀ :: earlier) x)
    (hs : s₀.Sleeps j c k t) (hend : ∀ s ∈ mid, ¬ s.Ends c) : x.Dozes j c k t := by
  induction mid generalizing x with
  | nil =>
    obtain ⟨hb, -, ha, -⟩ := h.split
    cases h with
    | act => exact hs.dozes (hb.consistent .rfl) ha
  | cons s mid ih =>
    cases h with
    | @act _ x y a effects h hp ha =>
      have hd := ih h fun s hs => hend s (.tail _ hs)
      have hx := h.consistent .rfl
      rcases hx.act hp ha with rfl | ⟨call, hc, -, rfl⟩ | ⟨i, o, hi, -, k', o', permits, e, ht, rfl⟩
      · exact hd
      · obtain ⟨stage, b, hj, hd⟩ := hd
        exact ⟨stage, b, get_add hj, hd⟩
      · refine hd.put hx hi ht fun l status he => hend _ (.head _) ⟨i, l, status, ?_⟩
        rw [he]
        rfl

/-- The look of a join that has slept leaves the kernel as it is, if the child still runs and the
caller was not ended. -/
theorem Run.recheck_unmoved {r : Record}
    (h : Run μ .orderly config range (s :: (mid ++ s₀ :: earlier)) x) (hs : s₀.Sleeps j c k t)
    (hend : ∀ s ∈ mid, ¬ s.Ends c) (hact : s.action = .turn j .advance)
    (hj : s.before.operations[j]? = some ⟨.join ⟨c, k, t, .checking⟩, b⟩)
    (hr : s.before.kernel.table.get? k = some r) (hrun : r.state = .running) :
    s.after.kernel = s.before.kernel ∧
      s.after.operations[j]? = some ⟨.join ⟨c, k, t, .sleeping⟩, b⟩ := by
  rw [← List.nil_append (s :: _)] at h
  obtain ⟨hb, -, ha, -⟩ := h.split
  obtain ⟨stage, b', hj', hd⟩ := hb.dozes hs hend
  rw [hj] at hj'
  cases hj'
  obtain ⟨⟨r', hr', hp⟩, hen⟩ := hd (.inl rfl)
  obtain rfl := Option.some.inj (hr.symm.trans hr')
  rw [hact] at ha
  exact ((hb.consistent .rfl).check hj (turn_of_act hj ha)).2.unmoved hen hr hp hrun

/-! ## The end of a join -/

/-- Operation `j`, a join of `k` by the task `t` of `c`, finds that `k` has ended with `status`,
and takes its record out. -/
def Step.Collects (s : Step μ) (j : Nat) (c k : Pid) (t : TaskId) (status : ExitStatus) : Prop :=
  s.action = .turn j .advance ∧ ∃ b r,
    s.before.operations[j]? = some ⟨.join ⟨c, k, t, .checking⟩, b⟩ ∧
    s.before.kernel.table.get? k = some r ∧ r.parent = some c ∧ r.state = .exited status ∧
    s.after.kernel.table = s.before.kernel.table.removed k r ∧
    s.after.operations[j]? = some ⟨.join ⟨c, k, t, .discarding status (some r)⟩, b⟩

/-- Operation `j`, a join of `k` by the task `t` of `c`, finds that it is invalid. -/
def Step.Rejects (s : Step μ) (j : Nat) (c k : Pid) (t : TaskId) : Prop :=
  s.action = .turn j .advance ∧ ∃ b,
    s.before.operations[j]? = some ⟨.join ⟨c, k, t, .checking⟩, b⟩ ∧
    s.before.kernel.table.Unjoinable c k t ∧ s.after.kernel = s.before.kernel ∧
    s.after.operations[j]? = some ⟨.join ⟨c, k, t, .finished (.error .invalidJoin)⟩, b⟩

/-- What the log says of a join that has come to a stage. -/
def Decided (steps : List (Step μ)) (j : Nat) (c k : Pid) (t : TaskId) : JoinStage → Prop
  | .discarding status _ => ∃ s ∈ steps, s.Collects j c k t status
  | .finished (.ok status) => ∃ s ∈ steps, s.Collects j c k t status
  | .finished (.error e) => e = .invalidJoin ∧ ∃ s ∈ steps, s.Rejects j c k t
  | .crashed _ => False
  | _ => True

omit [UserMemory μ] in
theorem Decided.cons {stage : JoinStage} (h : Decided steps j c k t stage) (s : Step μ) :
    Decided (s :: steps) j c k t stage := by
  have mono : ∀ {p : Step μ → Prop}, (∃ s ∈ steps, p s) → ∃ s' ∈ s :: steps, p s' :=
    fun ⟨s', hs', h⟩ => ⟨s', .tail _ hs', h⟩
  cases stage with
  | discarding => exact mono h
  | finished result =>
    cases result with
    | ok status => exact mono h
    | error e => exact ⟨h.1, mono h.2⟩
  | crashed => exact h
  | _ => trivial

/-- A join ends after a look that finds the child ended, or finds the join invalid. -/
theorem Run.decided {stage : JoinStage} (h : Run μ .orderly config range steps x)
    (hj : x.operations[j]? = some ⟨.join ⟨c, k, t, stage⟩, b⟩) : Decided steps j c k t stage := by
  induction h generalizing stage b with
  | start => cases hj
  | @act steps x y a effects h hp ha ih =>
    have hx := h.consistent .rfl
    rcases hx.act_at hp ha hj with hj₀ | hc | ⟨o, stimulus, k', permits, e, rfl, ho, -, ht, hy⟩
    · exact (ih hj₀).cons _
    · cases hc
      trivial
    · -- The look says more than the case of the turn.
      have hcheck : o = ⟨.join ⟨c, k, t, .checking⟩, b⟩ →
          Decided (⟨x, .turn j stimulus, effects, y⟩ :: steps) j c k t stage := by
        rintro rfl
        obtain ⟨rfl, hcheck⟩ := hx.check ho (turn_of_act ho ha)
        cases hcheck with
        | @collected r status hr hpar hs hk hj' =>
          rw [hj] at hj'
          cases hj'
          exact ⟨_, .head _, rfl, b, r, ho, hr, hpar, hs, hk, hj⟩
        | rejected hn hk hj' =>
          rw [hj] at hj'
          cases hj'
          exact ⟨rfl, _, .head _, rfl, b, ho, hn, hk, hj⟩
        | waits _ _ _ _ hj' =>
          rw [hj] at hj'
          cases hj'
          trivial
      cases ht with
      | quiet hm =>
        cases hm with
        | joined =>
          obtain ⟨s, hs, hcol⟩ := ih ho
          exact ⟨s, .tail _ hs, hcol⟩
      | unjoined => exact hcheck rfl
      | waited => exact hcheck rfl
      | collected => exact hcheck rfl
      | woken => trivial

/-- A look that finds the process ended collects it, if it is a child of the caller, and rejects the
join, if it is not. -/
theorem Consistent.look_exited {r : Record} (hx : s.before.Consistent)
    (ha : s.before.act s.action = some (s.effects, s.after)) (hact : s.action = .turn j .advance)
    (hj : s.before.operations[j]? = some ⟨.join ⟨c, k, t, .checking⟩, b⟩)
    (hr : s.before.kernel.table.get? k = some r) (hs : r.state = .exited status) :
    (r.parent = some c → s.Collects j c k t status) ∧
      (r.parent ≠ some c → s.Rejects j c k t) := by
  rw [hact] at ha
  cases (hx.check hj (turn_of_act hj ha)).2 with
  | collected hr' hp hs' hk hj' =>
    obtain rfl := Option.some.inj (hr.symm.trans hr')
    obtain rfl := ProcessState.exited.inj (hs.symm.trans hs')
    exact ⟨fun _ => ⟨hact, b, r, hj, hr, hp, hs, hk, hj'⟩, fun ne => absurd hp ne⟩
  | rejected hn hk hj' =>
    refine ⟨fun hp => ?_, fun _ => ⟨hact, b, hj, hn, hk, hj'⟩⟩
    -- A child that has ended has no waiter.
    rcases hn with hn | ⟨r', other, hr', -, hw, -⟩
    · exact absurd ⟨r, hr, hp⟩ hn
    · obtain rfl := Option.some.inj (hr.symm.trans hr')
      have hex : r.isExited = true := by rw [Record.isExited, hs]; rfl
      rw [(hx.sound.forest.exited hr hex).2.2.1] at hw
      cases hw
  | waits hr' _ hrun =>
    obtain rfl := Option.some.inj (hr.symm.trans hr')
    rw [hs] at hrun
    cases hrun

/-- Operation `j`, a join of `k` by the task `t` of `c`, has looked at `k` for the last time. -/
def Resolved (x : Traffic) (j : Nat) (c k : Pid) (t : TaskId) : Prop :=
  ∃ stage b, x.operations[j]? = some ⟨.join ⟨c, k, t, stage⟩, b⟩ ∧
    stage ≠ .checking ∧ stage ≠ .sleeping

/-- A turn of a join that has looked for the last time. -/
theorem Turn.resolved_self {stage : JoinStage}
    (h : Turn x i ⟨.join ⟨c, k, t, stage⟩, b⟩ k' o' permits e) (hc : stage ≠ .checking)
    (hs : stage ≠ .sleeping) :
    ∃ stage', o' = ⟨.join ⟨c, k, t, stage'⟩, b⟩ ∧ stage' ≠ .checking ∧ stage' ≠ .sleeping := by
  cases h with
  | quiet hm =>
    cases hm with
    | joined => exact ⟨_, rfl, nofun, nofun⟩
  | unjoined => exact absurd rfl hc
  | waited => exact absurd rfl hc
  | collected => exact absurd rfl hc
  | woken => exact absurd rfl hs

/-- A join that has looked for the last time does not look or sleep again. -/
theorem Run.resolved (h : Run μ .orderly config range (later ++ s :: earlier) x)
    (hs : s.after.Resolved j c k t) : x.Resolved j c k t := by
  refine h.since (I := fun x => x.Resolved j c k t) .rfl hs ?_ ?_
  · exact fun x call ⟨stage, b, hj, hst⟩ _ => ⟨stage, b, get_add hj, hst⟩
  · intro x i o k' o' permits e _ ⟨stage, b, hj, hc, hsl⟩ hi ht
    rcases get_put_cases k' o' permits e hi hj with ⟨rfl, rfl, hj'⟩ | ⟨-, hj'⟩
    · obtain ⟨stage', rfl, hst⟩ := ht.resolved_self hc hsl
      exact ⟨stage', b, hj', hst⟩
    · exact ⟨stage, b, hj', hc, hsl⟩

omit [UserMemory μ] in
theorem Step.Collects.resolved (h : s.Collects j c k t status) : s.after.Resolved j c k t := by
  obtain ⟨-, b, r, -, -, -, -, -, hj⟩ := h
  exact ⟨_, b, hj, nofun, nofun⟩

omit [UserMemory μ] in
theorem Step.Rejects.resolved (h : s.Rejects j c k t) : s.after.Resolved j c k t := by
  obtain ⟨-, b, -, -, -, hj⟩ := h
  exact ⟨_, b, hj, nofun, nofun⟩

/-! ## Leaving wakeups out -/

/-- The same table and history, and the same results of the same operations. -/
structure Agrees (x y : Traffic) : Prop where
  kernel : y.kernel = x.kernel
  history : y.history = x.history
  results : ∀ i : Nat,
    (y.operations[i]?).map (·.call.ended?) = (x.operations[i]?).map (·.call.ended?)

/-- The same action with the same effects, between systems that agree. -/
structure Step.Same (s s' : Step μ) : Prop where
  action : s'.action = s.action
  effects : s'.effects = s.effects
  before : s.before.Agrees s'.before
  after : s.after.Agrees s'.after

/-- `Thins steps kept woken`: `kept` is the log `steps` without some wakeups of sleeping joins and
the looks after them that sent the joins to sleep again. Of the joins in `woken` the wakeup was
left out, and the look is yet to come. -/
inductive Thins : List (Step μ) → List (Step μ) → List Nat → Prop
  | nil : Thins [] [] []
  | keep {steps kept : List (Step μ)} {woken : List Nat} {s : Step μ} : Thins steps kept woken →
      (∀ i ∈ woken, ∀ stimulus, s.action ≠ .turn i stimulus) → Thins (s :: steps) (s :: kept) woken
  | wakeup {steps kept : List (Step μ)} {woken : List Nat} {s : Step μ} {i : Nat} :
      Thins steps kept woken → s.action = .turn i .wake ∨ s.action = .turn i .rouse →
      Thins (s :: steps) kept (i :: woken)
  | recheck {steps kept : List (Step μ)} {woken : List Nat} {s : Step μ} {i : Nat} {c k : Pid}
      {t : TaskId} : Thins steps kept woken → i ∈ woken → s.Sleeps i c k t →
      Thins (s :: steps) kept (woken.filter (· ≠ i))

/-- `y` is `x`, but the joins in `woken` still sleep in it. -/
structure Alike (woken : List Nat) (x y : Traffic) : Prop where
  kernel : y.kernel = x.kernel
  history : y.history = x.history
  permits : ∀ t, x.permits t = true → y.permits t = true
  length : y.operations.length = x.operations.length
  steady : ∀ i : Nat, i ∉ woken → y.operations[i]? = x.operations[i]?
  asleep : ∀ i ∈ woken, ∃ c k t b,
    x.operations[i]? = some ⟨.join ⟨c, k, t, .checking⟩, b⟩ ∧
      y.operations[i]? = some ⟨.join ⟨c, k, t, .sleeping⟩, b⟩

theorem foldl_grant_mono {permits permits' : TaskId → Bool}
    (h : ∀ t, permits t = true → permits' t = true) (effects : List Effect) :
    ∀ t, effects.foldl grant permits t = true → effects.foldl grant permits' t = true := by
  induction effects generalizing permits permits' with
  | nil => exact h
  | cons effect rest ih =>
    refine ih fun t ht => ?_
    cases effect with
    | wake task =>
      simp only [grant, Bool.or_eq_true] at ht ⊢
      exact ht.imp_right (h t)
    | _ => exact h t ht

namespace Alike

variable {woken : List Nat} {x' : Traffic} {permits' : TaskId → Bool}

theorem agrees (h : Alike woken x y) : x.Agrees y where
  kernel := h.kernel
  history := h.history
  results i := by
    by_cases hi : i ∈ woken
    · obtain ⟨c, k, t, b, hx, hy⟩ := h.asleep i hi
      rw [hx, hy]
      rfl
    · rw [h.steady i hi]

/-- What a sleeping join and a join that looks at the child have in common is held in `x` if it is
held in `y`. -/
theorem holds {α : Type} {f : Operation → Option α} {p : α} (h : Alike woken x y)
    (hf : ∀ c k t b, f ⟨.join ⟨c, k, t, .checking⟩, b⟩ = f ⟨.join ⟨c, k, t, .sleeping⟩, b⟩)
    (hy : ∃ o ∈ y.operations, f o = some p) : ∃ o ∈ x.operations, f o = some p := by
  obtain ⟨o, hm, ho⟩ := hy
  obtain ⟨i, hi⟩ := List.mem_iff_getElem?.1 hm
  by_cases hw : i ∈ woken
  · obtain ⟨c, k, t, b, hx, hy⟩ := h.asleep i hw
    obtain rfl := Option.some.inj (hi.symm.trans hy)
    exact ⟨_, List.mem_of_getElem? hx, (hf c k t b).trans ho⟩
  · rw [h.steady i hw] at hi
    exact ⟨o, List.mem_of_getElem? hi, ho⟩

theorem permitted (h : Alike woken x y) (hw : ∀ i ∈ woken, ∀ stimulus, a ≠ .turn i stimulus)
    (hp : Discipline.orderly.Permits x a) : Discipline.orderly.Permits y a := by
  cases a with
  | invoke invocation =>
    intro call hcall p hpc
    rw [h.kernel] at hcall
    exact fun hy => hp call hcall p hpc (h.holds (fun _ _ _ _ => rfl) hy)
  | turn i stimulus =>
    intro o ho p hpo
    rw [h.steady i fun hi => hw i hi stimulus rfl] at ho
    exact fun hy => hp o ho p hpo (h.holds (fun _ _ _ _ => rfl) hy)

theorem add (h : Alike woken x y) (o : Operation) : Alike woken (x.add o) (y.add o) where
  kernel := h.kernel
  history := h.history
  permits := h.permits
  length := by simp [Traffic.add, h.length]
  steady i hi := by
    simp only [Traffic.add, List.getElem?_append, h.length, h.steady i hi]
  asleep i hi := by
    obtain ⟨c, k, t, b, hx, hy⟩ := h.asleep i hi
    exact ⟨c, k, t, b, get_add hx, get_add hy⟩

theorem put (h : Alike woken x y) (hi : i ∉ woken) (k' : Kernel) (o' : Operation)
    (e : Option Event) (hperm : ∀ t, permits t = true → permits' t = true) :
    Alike woken ((x.put i k' o' e).withPermits permits)
      ((y.put i k' o' e).withPermits permits') where
  kernel := rfl
  history := congrArg (e.toList ++ ·) h.history
  permits := hperm
  length := by simp [Traffic.put, Traffic.withPermits, h.length]
  steady j hj := by
    simp only [Traffic.put, Traffic.withPermits, List.getElem?_set, h.length, h.steady j hj]
  asleep j hj := by
    have ne : j ≠ i := fun eq => hi (eq ▸ hj)
    obtain ⟨c, k, t, b, hx, hy⟩ := h.asleep j hj
    exact ⟨c, k, t, b, (get_put_ne ne).trans hx, (get_put_ne ne).trans hy⟩

/-- A turn of an operation that is the same in both. -/
theorem turn (h : Alike woken x y) (hi : i ∉ woken)
    (hx : x.turn i o stimulus = some (effects, x')) :
    ∃ y', y.turn i o stimulus = some (effects, y') ∧ Alike woken x' y' := by
  cases turn_iff.1 hx with
  | advance hs =>
    have heff : (x.advance i o).1 = (y.advance i o).1 := by simp only [advance, h.kernel]
    rw [heff]
    refine ⟨_, turn_iff.2 (.advance hs), ?_⟩
    simp only [advance, h.kernel, h.history]
    exact h.put hi _ _ _ (foldl_grant_mono h.permits _)
  | load answer =>
    rw [← h.kernel]
    exact ⟨_, turn_iff.2 (.load answer), h.put hi _ _ _ h.permits⟩
  | start =>
    rw [← h.kernel]
    exact ⟨_, turn_iff.2 .start, h.put hi _ _ _ h.permits⟩
  | spawn hb =>
    rw [← h.kernel, ← h.history]
    exact ⟨_, turn_iff.2 (.spawn hb), h.put hi _ _ _ h.permits⟩
  | wake hp =>
    rw [← h.kernel]
    refine ⟨_, turn_iff.2 (.wake (h.permits _ hp)), h.put hi _ _ _ fun t ht => ?_⟩
    simp only [Bool.and_eq_true] at ht ⊢
    exact ⟨ht.1, h.permits t ht.2⟩
  | rouse =>
    rw [← h.kernel]
    exact ⟨_, turn_iff.2 .rouse, h.put hi _ _ _ h.permits⟩

/-- A wakeup is left out: the join sleeps on. -/
theorem wakeup (h : Alike woken x y) (hs : stimulus = .wake ∨ stimulus = .rouse)
    (hi : x.operations[i]? = some o) (hx : x.turn i o stimulus = some (effects, x')) :
    Alike (i :: woken) x' y := by
  obtain ⟨c, k, t, b, rfl, hx'⟩ : ∃ c k t b, o = ⟨.join ⟨c, k, t, .sleeping⟩, b⟩ ∧
      ∃ permits, x' = (x.put i x.kernel ⟨.join ⟨c, k, t, .checking⟩, b⟩ none).withPermits permits ∧
        ∀ t, permits t = true → x.permits t = true := by
    rcases hs with rfl | rfl
    · cases turn_iff.1 hx with
      | wake => exact ⟨_, _, _, _, rfl, _, rfl, fun t ht => (Bool.and_eq_true_iff.1 ht).2⟩
    · cases turn_iff.1 hx with
      | rouse => exact ⟨_, _, _, _, rfl, x.permits, rfl, fun _ ht => ht⟩
  obtain ⟨permits, rfl, hperm⟩ := hx'
  have hw : i ∉ woken := by
    intro hw
    obtain ⟨_, _, _, _, hx, -⟩ := h.asleep i hw
    rw [hi] at hx
    cases hx
  refine ⟨h.kernel, h.history, fun t ht => h.permits t (hperm t ht), ?_, fun j hj => ?_,
    fun j hj => ?_⟩
  · rw [h.length]
    exact List.length_set.symm
  · obtain ⟨ne, hj⟩ := not_or.1 (mt List.mem_cons.2 hj)
    exact (h.steady j hj).trans (get_put_ne ne).symm
  · by_cases eq : j = i
    · subst eq
      exact ⟨c, k, t, b, get_put_self hi, (h.steady j hw).trans hi⟩
    · obtain ⟨c, k, t, b, hx, hy⟩ := h.asleep j ((List.mem_cons.1 hj).resolve_left eq)
      exact ⟨c, k, t, b, (get_put_ne eq).trans hx, hy⟩

/-- The look after a wakeup is left out. The task is enlisted, for it still sleeps in `y`. -/
theorem recheck (h : Alike woken x y) (hw : i ∈ woken) (hc : x.Consistent)
    (hy : ∀ c k t b, y.operations[i]? = some ⟨.join ⟨c, k, t, .sleeping⟩, b⟩ →
      y.kernel.table.Enlisted c k t)
    (hi : x.operations[i]? = some o) (hx : x.turn i o stimulus = some (effects, x'))
    (hx' : x'.operations[i]? = some ⟨.join ⟨c, k, t, .sleeping⟩, b⟩) :
    Alike (woken.filter (· ≠ i)) x' y := by
  obtain ⟨c₁, k₁, t₁, b₁, hxi, hyi⟩ := h.asleep i hw
  obtain rfl := Option.some.inj (hi.symm.trans hxi)
  obtain ⟨k', o', permits, e, ht, rfl⟩ := hc.turn hi hx
  rw [get_put_self hi] at hx'
  obtain rfl := Option.some.inj hx'
  have hen := hy _ _ _ _ hyi
  rw [h.kernel] at hen
  cases ht with
  | quiet hm => cases hm
  | waited hr hp hs =>
    refine ⟨?_, h.history, h.permits, ?_, fun j hj => ?_, fun j hj => ?_⟩
    · show y.kernel = ({ x.kernel with table := x.kernel.table.adjust k _ } : Kernel)
      rw [hen.adjust_waiter hr hp hs, h.kernel]
    · rw [h.length]
      exact List.length_set.symm
    · by_cases eq : j = i
      · subst eq
        exact hyi.trans (get_put_self hi).symm
      · have hj : j ∉ woken := fun hm => hj (List.mem_filter.2 ⟨hm, decide_eq_true eq⟩)
        exact (h.steady j hj).trans (get_put_ne eq).symm
    · obtain ⟨hm, hne⟩ := List.mem_filter.1 hj
      obtain ⟨c, k, t, b, hx, hy⟩ := h.asleep j hm
      exact ⟨c, k, t, b, (get_put_ne (of_decide_eq_true hne)).trans hx, hy⟩

theorem act (h : Alike woken x y) (hw : ∀ i ∈ woken, ∀ stimulus, a ≠ .turn i stimulus)
    (hx : x.act a = some (effects, x')) :
    ∃ y', y.act a = some (effects, y') ∧ Alike woken x' y' := by
  cases a with
  | invoke invocation =>
    simp only [Traffic.act, h.kernel] at hx ⊢
    split at hx
    · cases hx
      exact ⟨y, rfl, h⟩
    · cases hx
      exact ⟨_, rfl, h.add _⟩
  | turn i stimulus =>
    have hi : i ∉ woken := fun hi => hw i hi stimulus rfl
    obtain ⟨o, ho, ht⟩ := Option.bind_eq_some_iff.1 hx
    obtain ⟨y', hy, h'⟩ := h.turn hi ht
    refine ⟨y', ?_, h'⟩
    simp only [Traffic.act, h.steady i hi, ho, Option.bind_some, hy]

end Alike

theorem alike_new (config : Config) (range : PidRange) :
    Alike [] (new config range) (new config range) where
  kernel := rfl
  history := rfl
  permits := fun _ h => h
  length := rfl
  steady := fun _ _ => rfl
  asleep := fun _ h => nomatch h

/-- Without some of the wakeups after which a join sleeps again a run is still a run. -/
theorem Run.thin {kept : List (Step μ)} {woken : List Nat}
    (h : Run μ .orderly config range steps x) (ht : Thins steps kept woken) :
    ∃ steps' y, Run μ .orderly config range steps' y ∧ List.Forall₂ Step.Same kept steps' ∧
      Alike woken x y := by
  induction h generalizing kept woken with
  | start =>
    cases ht
    exact ⟨[], _, .start, .nil, alike_new config range⟩
  | @act steps x x' a effects h hp ha ih =>
    cases ht with
    | keep ht hw =>
      obtain ⟨steps', y, hy, hsame, hlike⟩ := ih ht
      obtain ⟨y', hact, hlike'⟩ := hlike.act hw ha
      exact ⟨_, y', hy.act (hlike.permitted hw hp) hact,
        .cons ⟨rfl, rfl, hlike.agrees, hlike'.agrees⟩ hsame, hlike'⟩
    | wakeup ht hs =>
      obtain ⟨steps', y, hy, hsame, hlike⟩ := ih ht
      refine ⟨steps', y, hy, hsame, ?_⟩
      rcases hs with rfl | rfl
      · obtain ⟨o, ho, hturn⟩ := Option.bind_eq_some_iff.1 ha
        exact hlike.wakeup (.inl rfl) ho hturn
      · obtain ⟨o, ho, hturn⟩ := Option.bind_eq_some_iff.1 ha
        exact hlike.wakeup (.inr rfl) ho hturn
    | recheck ht hw hs =>
      obtain ⟨steps', y, hy, hsame, hlike⟩ := ih ht
      obtain ⟨rfl, b, -, hx'⟩ := hs
      obtain ⟨o, ho, hturn⟩ := Option.bind_eq_some_iff.1 ha
      exact ⟨steps', y, hy, hsame, hlike.recheck hw (h.consistent .rfl)
        (fun _ _ _ _ hyi => hy.reachable.enlisted hyi) ho hturn hx'⟩

/-- In orderly traffic wakeups without cause do no harm. A join that looks again while its child
runs, and whose caller was not ended since it first went to sleep, leaves the kernel as it is and
sleeps again. A run without some of the wakeups after which a join sleeps again is a run with the
same results and the same tables. A join ends after a look that finds the child ended, with the
status it finds and without the record, or finds the join invalid. A look that finds the process
ended collects it, if it is a child of the caller, or finds the join invalid, if it is not; in
either case the join does not sleep any more. -/
theorem Run.spurious_wakeups (h : Run μ .orderly config range steps x) :
    (∀ later s mid s₀ earlier j c k t b r, steps = later ++ s :: (mid ++ s₀ :: earlier) →
      s₀.Sleeps j c k t → (∀ s' ∈ mid, ¬ s'.Ends c) → s.action = .turn j .advance →
      s.before.operations[j]? = some ⟨.join ⟨c, k, t, .checking⟩, b⟩ →
      s.before.kernel.table.get? k = some r → r.state = .running →
      s.after.kernel = s.before.kernel ∧ s.Sleeps j c k t) ∧
    (∀ kept woken, Thins steps kept woken → ∃ steps' y, Run μ .orderly config range steps' y ∧
      List.Forall₂ Step.Same kept steps' ∧ x.Agrees y) ∧
    (∀ j c k t stage b, x.operations[j]? = some ⟨.join ⟨c, k, t, stage⟩, b⟩ →
      Decided steps j c k t stage) ∧
    (∀ later s earlier j c k t b r status, steps = later ++ s :: earlier →
      s.action = .turn j .advance →
      s.before.operations[j]? = some ⟨.join ⟨c, k, t, .checking⟩, b⟩ →
      s.before.kernel.table.get? k = some r → r.state = .exited status →
      (r.parent = some c → s.Collects j c k t status) ∧
      (r.parent ≠ some c → s.Rejects j c k t) ∧
      ∀ b, x.operations[j]? ≠ some ⟨.join ⟨c, k, t, .sleeping⟩, b⟩) := by
  refine ⟨?_, ?_, ?_, ?_⟩
  · rintro later s mid s₀ earlier j c k t b r rfl hs hend hact hj hr hrun
    obtain ⟨-, -, -, hrun'⟩ := h.split
    obtain ⟨hk, hj'⟩ := hrun'.recheck_unmoved hs hend hact hj hr hrun
    exact ⟨hk, hact, b, hj, hj'⟩
  · intro kept woken ht
    obtain ⟨steps', y, hy, hsame, hlike⟩ := h.thin ht
    exact ⟨steps', y, hy, hsame, hlike.agrees⟩
  · intro j c k t stage b hj
    exact h.decided hj
  · rintro later s earlier j c k t b r status rfl hact hj hr hs
    obtain ⟨hb, -, ha, -⟩ := h.split
    obtain ⟨hcol, hrej⟩ := (hb.consistent .rfl).look_exited ha hact hj hr hs
    refine ⟨hcol, hrej, fun b hsleep => ?_⟩
    have hres : s.after.Resolved j c k t := by
      by_cases hp : r.parent = some c
      · exact (hcol hp).resolved
      · exact (hrej hp).resolved
    obtain ⟨stage, b', hj', -, hne⟩ := h.resolved hres
    rw [hj'] at hsleep
    cases hsleep
    exact hne rfl

omit [UserMemory μ] in
/-- The later part of the log is kept. -/
theorem Thins.append {kept : List (Step μ)} {woken : List Nat} (h : Thins steps kept woken)
    (hw : woken = []) (more : List (Step μ)) : Thins (more ++ steps) (more ++ kept) [] := by
  subst hw
  induction more with
  | nil => exact h
  | cons s more ih => exact .keep ih fun _ h => nomatch h

/-- The root process sleeps in a join of its child. -/
def rootSleeps : Traffic :=
  (new { suffix := none } .standard).after .orderly (μ := Bytes)
    (List.flatten [[.invoke (.boot "init"), .turn 0 .advance], launching 0,
      [.invoke (.exec .root "child" 0)], launching 1,
      [.invoke (.join .root ⟨1⟩ ⟨5⟩), .turn 2 .advance]])

/-- The child is killed, and the root process collects it. -/
def childEnds : List (Action Bytes) :=
  [.invoke (.kill ⟨1⟩), .turn 3 .advance, .turn 3 .advance, .turn 3 .advance, .turn 3 .advance,
    .turn 2 .wake, .turn 2 .advance, .turn 2 .advance]

/-- The sleep ends for no reason before the child is killed. This wakeup, with the look after it,
makes no difference. -/
theorem rootSleeps_spurious_wakeup : ∃ steps kept x,
    Run Bytes .orderly { suffix := none } .standard steps x ∧ steps.length = kept.length + 2 ∧
    (x.operations[2]?).map (·.call.ended?) = some (some (.joined ⟨1⟩ (.ok .abnormal))) ∧
    ∃ steps' y, Run Bytes .orderly { suffix := none } .standard steps' y ∧
      List.Forall₂ Step.Same kept steps' ∧ x.Agrees y := by
  obtain ⟨first, h₁⟩ : ∃ steps, Run Bytes .orderly { suffix := none } .standard steps rootSleeps :=
    ⟨_, Run.start.after _⟩
  obtain ⟨x₁, ha₁, hp, effects, x₂, ha₂, hj₁, hj₂, hend⟩ : ∃ x₁,
      rootSleeps.act (.turn 2 .rouse : Action Bytes) = some ([], x₁) ∧
      Discipline.orderly.Permits x₁ (.turn 2 .advance : Action Bytes) ∧ ∃ effects x₂,
      x₁.act (.turn 2 .advance : Action Bytes) = some (effects, x₂) ∧
      x₁.operations[2]? = some ⟨.join ⟨.root, ⟨1⟩, ⟨5⟩, .checking⟩, false⟩ ∧
      x₂.operations[2]? = some ⟨.join ⟨.root, ⟨1⟩, ⟨5⟩, .sleeping⟩, false⟩ ∧
      ((x₂.after .orderly childEnds).operations[2]?).map (·.call.ended?) =
        some (some (.joined ⟨1⟩ (.ok .abnormal))) :=
    ⟨_, rfl, by decide, _, _, rfl, rfl, rfl, rfl⟩
  have h₃ := ((h₁.act (by decide) ha₁).act hp ha₂).after childEnds
  have ht : Thins (⟨x₁, .turn 2 .advance, effects, x₂⟩ :: ⟨rootSleeps, .turn 2 .rouse, [], x₁⟩ ::
      (first ++ [])) (first ++ []) ([2].filter (· ≠ 2)) :=
    .recheck (.wakeup (Thins.nil.append rfl first) (.inr rfl)) (.head _) ⟨rfl, false, hj₁, hj₂⟩
  rw [List.append_nil] at ht
  refine ⟨_, _, _, h₃, ?_, hend, h₃.spurious_wakeups.2.1 _ _ (ht.append rfl _)⟩
  simp only [List.length_append, List.length_cons]
  omega

end Traffic

end Lifecycle
