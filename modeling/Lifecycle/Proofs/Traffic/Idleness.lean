import Lifecycle.Memory.Bytes
import Lifecycle.Proofs.Traffic.Consistency

/-!
# The machine does not go idle silently

The last running process leaves the table in one of two critical sections. A termination sees that
nobody runs any more, and halts the machine as its last step. The roll-back of a launch does not
look: it is the last one only if the record of the launch has no parent, because the caller of the
launch was ended meanwhile, or because the launch is that of the root process.

* `Table.Idle`: no process runs.
* `Trace x trace z`: a run from `x` to `z` with the effects of its actions.
* `Halts μ x i`: operation `i` has halted the machine whenever it has ended.
* `Forsaken x i`: operation `i` is about to take back a record without a parent.
* `Reachable.halts_when_idle`: the operation whose turn ends the last running process halts, or it
  is a forsaken launch.
* `forsakenLaunch_silent`: such a launch leaves the machine idle, and running.
-/

namespace Lifecycle

namespace Table

variable {t : Table}

/-- No process runs. -/
def Idle (t : Table) : Prop := ∀ k r, t.get? k = some r → r.isExited = true

theorem Counted.idle_iff (h : t.Counted) : t.Idle ↔ t.running = 0 := by
  rw [h, PidMap.tally, List.countP_eq_zero]
  constructor
  · intro hi r hr
    obtain ⟨⟨k, _⟩, he, rfl⟩ := List.mem_map.1 hr
    simp [hi k _ (PidMap.get?_eq_some_iff.2 he)]
  · intro hn k r hr
    simpa using hn r (List.mem_map.2 ⟨(k, r), PidMap.get?_eq_some_iff.1 hr, rfl⟩)

theorem Idle.not_running {k : Pid} {r : Record} (h : t.Idle) (hr : t.get? k = some r)
    (hs : r.state = .running) : False := by
  have := h k r hr
  simp [Record.isExited, hs] at this

theorem Inner.running_kept {f : Record → Record} {pid k : Pid} {r : Record} (hf : Inner f)
    (hr : t.get? k = some r) (hs : r.state = .running) :
    ∃ r', (t.adjust pid f).get? k = some r' ∧ r'.state = .running := by
  rw [get?_adjust]
  split
  · exact ⟨f r, by rw [hr]; rfl, (hf.state r).trans hs⟩
  · exact ⟨r, hr, hs⟩

theorem running_kept_withdraw {pid k : Pid} {r : Record} (q : Record) (ne : pid ≠ k)
    (hr : t.get? k = some r) (hs : r.state = .running) :
    ∃ r', (t.withdraw pid q).get? k = some r' ∧ r'.state = .running := by
  refine ⟨relink q.parent (·.remove pid) k r, ?_, relink_state.trans hs⟩
  rw [get?_withdraw, if_neg ne, hr]
  rfl

end Table

/-- The critical section of the termination has found that no process runs any more. -/
def TerminationStage.idle : TerminationStage → Bool
  | releasing departure => departure.idle
  | waking _ idle => idle
  | closing idle => idle
  | _ => false

namespace Traffic

variable {x y z : Traffic} {i : Nat} {o o' : Operation} {k : Pid} {k' : Kernel} {r : Record}
  {permits : TaskId → Bool} {e : Option Event} {effects : List Effect}
  {μ : Type} [UserMemory μ] {a : Action μ}

/-! ## Runs with their effects -/

/-- A run from one state to another: its actions in order, each with its effects. -/
inductive Trace : Traffic → List (Action μ × List Effect) → Traffic → Prop
  | nil {x : Traffic} : Trace x [] x
  | cons {x y z : Traffic} {a : Action μ} {effects : List Effect}
      {rest : List (Action μ × List Effect)} : x.act a = some (effects, y) → Trace y rest z →
      Trace x ((a, effects) :: rest) z

variable (μ) in
/-- Every run from `x` in which operation `i` ends has a turn of it that halts the machine. -/
def Halts (x : Traffic) (i : Nat) : Prop :=
  ∀ (trace : List (Action μ × List Effect)) (z : Traffic) (o : Operation), Trace x trace z →
    z.operations[i]? = some o → o.call.ended?.isSome = true →
    ∃ stimulus effects, (.turn i stimulus, effects) ∈ trace ∧ .halt ∈ effects

/-- Operation `i` is a launch about to take back its record, which has no parent. -/
def Forsaken (x : Traffic) (i : Nat) : Prop :=
  ∃ order pid cause b r, x.operations[i]? = some ⟨.launch (.undoing order pid cause), b⟩ ∧
    x.kernel.table.get? pid = some r ∧ r.parent = none

/-! ## A termination that ends the last running process -/

/-- Operation `i` is a termination that still has to halt the machine. -/
def Closing (x : Traffic) (i : Nat) : Prop :=
  ∃ pid status stage b, x.operations[i]? = some ⟨.terminate ⟨pid, status, stage⟩, b⟩ ∧
    stage.idle = true

theorem config_step (kernel : Kernel) (c : Call) : (c.step kernel).1.config = kernel.config := by
  cases c with
  | launch l => cases l <;> simp only [Call.step, Launch.step] <;> split <;> rfl
  | join j =>
    obtain ⟨_, _, _, stage⟩ := j
    cases stage <;> simp only [Call.step, Join.step]
    split <;> rfl
  | terminate e =>
    obtain ⟨_, _, stage⟩ := e
    cases stage <;> simp only [Call.step, Termination.step]
    split <;> rfl
  | halt h => rfl

/-- A turn changes one operation, and never the configuration. -/
theorem turn_put {stimulus : Stimulus} (h : x.turn i o stimulus = some (effects, y)) :
    ∃ k' o' permits e, y = (x.put i k' o' e).withPermits permits ∧
      k'.config = x.kernel.config := by
  cases turn_iff.1 h with
  | advance => exact ⟨_, _, _, _, rfl, config_step _ _⟩
  | _ => exact ⟨_, _, _, _, rfl, rfl⟩

theorem act_config (h : x.act a = some (effects, y)) : y.kernel.config = x.kernel.config := by
  cases a with
  | invoke invocation =>
    simp only [act] at h
    split at h <;> cases h <;> rfl
  | turn j stimulus =>
    obtain ⟨q, -, hq⟩ := Option.bind_eq_some_iff.1 h
    obtain ⟨_, _, _, _, rfl, hc⟩ := turn_put hq
    exact hc

/-- An action leaves the operations alone whose turn it is not. -/
theorem act_cases (h : x.act a = some (effects, y)) (hi : x.operations[i]? = some o) :
    y.operations[i]? = some o ∨
      ∃ stimulus, a = .turn i stimulus ∧ x.turn i o stimulus = some (effects, y) := by
  cases a with
  | invoke invocation =>
    simp only [act] at h
    split at h
    · cases h; exact .inl hi
    · cases h; exact .inl (get_add hi)
  | turn j stimulus =>
    obtain ⟨q, hj, hq⟩ := Option.bind_eq_some_iff.1 h
    obtain ⟨k', o', permits, e, rfl, -⟩ := turn_put hq
    by_cases eq : i = j
    · subst eq
      obtain rfl : o = q := Option.some.inj (hi.symm.trans hj)
      exact .inr ⟨stimulus, rfl, hq⟩
    · exact .inl ((get_put_ne eq).trans hi)

/-- A turn of a termination is its next step. -/
theorem turn_termination {t : Termination} {b : Bool} {stimulus : Stimulus}
    (h : x.turn i ⟨.terminate t, b⟩ stimulus = some (effects, y)) :
    x.advance i ⟨.terminate t, b⟩ = (effects, y) := by
  cases turn_iff.1 h with
  | advance => rfl

/-- A termination that has to halt the machine still has to after its next step, or that is the
step in which it does. -/
theorem Closing.act (hc : x.Closing i) (hh : x.kernel.config.haltWhenIdle = true)
    (h : x.act a = some (effects, y)) :
    y.Closing i ∨ ∃ stimulus, a = .turn i stimulus ∧ .halt ∈ effects := by
  obtain ⟨pid, status, stage, b, hi, hs⟩ := hc
  rcases act_cases h hi with hi' | ⟨stimulus, rfl, ht⟩
  · exact .inl ⟨pid, status, stage, b, hi', hs⟩
  · have hadv := turn_termination ht
    cases stage with
    | releasing departure =>
      cases hadv
      exact .inl ⟨pid, status, .waking departure.waiter departure.idle, b, get_put_self hi, hs⟩
    | waking waiter idle =>
      cases hadv
      exact .inl ⟨pid, status, .closing idle, b, get_put_self hi, hs⟩
    | closing idle =>
      cases hadv
      obtain rfl : idle = true := hs
      refine .inr ⟨stimulus, rfl, ?_⟩
      simp [Termination.idleEffects, hh]
    | _ => cases hs

theorem Closing.halts (hc : x.Closing i) (hh : x.kernel.config.haltWhenIdle = true) :
    x.Halts μ i := by
  intro trace z o ht
  induction ht with
  | nil =>
    obtain ⟨pid, status, stage, b, hi, hs⟩ := hc
    intro ho he
    obtain rfl := Option.some.inj (hi.symm.trans ho)
    cases stage with
    | finished | crashed => cases hs
    | _ => cases he
  | @cons x y z a effects rest ha _ ih =>
    intro ho he
    rcases hc.act hh ha with hc' | ⟨stimulus, rfl, hm⟩
    · obtain ⟨stimulus, effects, hmem, hm⟩ := ih hc' (act_config ha ▸ hh) ho he
      exact ⟨stimulus, effects, List.mem_cons_of_mem _ hmem, hm⟩
    · exact ⟨stimulus, effects, List.mem_cons_self, hm⟩

/-! ## A launch that takes its record back -/

theorem act_advance (hi : x.operations[i]? = some o) (hs : o.call.stepsLeft ≠ 0) :
    x.act (.turn i .advance : Action μ) = some (x.advance i o) := by
  simp only [act, hi, Option.bind_some, turn, if_neg hs]

/-- A launch does not halt the machine after it has taken its record back. -/
theorem not_halts_of_discarding {order : Order} {cause : ProcessError} {b : Bool}
    (hi : x.operations[i]? = some ⟨.launch (.discarding order r cause), b⟩) : ¬ x.Halts μ i := by
  intro hh
  have h₁ := act_advance (μ := μ) hi (fun h => nomatch h)
  have hi₁ : (x.advance i ⟨.launch (.discarding order r cause), b⟩).2.operations[i]? =
      some ⟨.launch (.abandon order cause), b⟩ := get_put_self hi
  rcases Launch.abandon_eq order cause with ⟨-, ha⟩ | ⟨-, ha⟩ <;> rw [ha] at hi₁
  · have h₂ := act_advance (μ := μ) hi₁ (fun h => nomatch h)
    obtain ⟨_, effects, hm, hhalt⟩ := hh _ _ _ (.cons h₁ (.cons h₂ .nil)) (get_put_self hi₁) rfl
    rcases List.mem_cons.1 hm with h | hm
    · cases h
      simp [Effect.releaseOf, Effect.releaseAll] at hhalt
    · cases List.mem_singleton.1 hm
      cases hhalt
  · obtain ⟨_, effects, hm, hhalt⟩ := hh _ _ _ (.cons h₁ .nil) hi₁ rfl
    cases List.mem_singleton.1 hm
    simp [Effect.releaseOf, Effect.releaseAll] at hhalt

/-- A forsaken launch does not halt the machine when it takes its record back. -/
theorem Forsaken.not_halts {stimulus : Stimulus} (hf : x.Forsaken i) (hx : x.Consistent)
    (h : x.act (.turn i stimulus : Action μ) = some (effects, y)) : ¬ y.Halts μ i := by
  obtain ⟨order, pid, cause, b, r, hi, hr, -⟩ := hf
  obtain ⟨⟨_, hr', -, -, hw, -⟩, -⟩ := hx.unstarted i _ pid hi rfl
  obtain rfl := Option.some.inj (hr.symm.trans hr')
  cases turn_iff.1 (turn_of_act hi h) with
  | advance =>
    simp only [advance, Call.step, Launch.step, Table.rollback_eq hx.sound.counted hr hw]
    exact not_halts_of_discarding (get_put_self hi)

/-! ## The turn after which no process runs -/

/-- A running process runs on, unless the turn is that of its termination, or takes back the record
of its launch. -/
theorem Turn.running_kept (h : Turn x i o k' o' permits e) (hx : x.Consistent)
    (hr : x.kernel.table.get? k = some r) (hs : r.state = .running) :
    (∃ r', k'.table.get? k = some r' ∧ r'.state = .running) ∨
      (∃ status b, o = ⟨.terminate ⟨k, status, .departing⟩, b⟩) ∨
      ∃ order cause b, o = ⟨.launch (.undoing order k cause), b⟩ := by
  cases h with
  | @reserved order b pid pids hal hp =>
    have hself := hx.sound.allotted.parent_ne hal hp
    have ne : pid ≠ k := by
      intro eq
      rw [← eq, hx.sound.allotted.alloc hal] at hr
      cases hr
    refine .inl ⟨Table.relink order.parent (·.add pid) k r, ?_, Table.relink_state.trans hs⟩
    refine (Table.get?_admitted _ pids k hself).trans ?_
    show (if pid = k then _ else _) = _
    rw [if_neg ne, hr]
    rfl
  | stored => exact .inl ((Table.inner_space _).running_kept hr hs)
  | waited => exact .inl ((Table.inner_waiter _).running_kept hr hs)
  | @undone order pid cause b q hq =>
    by_cases eq : pid = k
    · subst eq
      exact .inr (.inr ⟨order, cause, b, rfl⟩)
    · exact .inl (Table.running_kept_withdraw q eq hr hs)
  | @collected caller child task b q status hq _ hex =>
    have ne : child ≠ k := by
      intro eq
      rw [← eq, hq] at hr
      cases hr
      rw [hs] at hex
      cases hex
    exact .inl (Table.running_kept_withdraw q ne hr hs)
  | @departed pid status b q t hd =>
    by_cases eq : pid = k
    · subst eq
      exact .inr (.inl ⟨status, b, rfl⟩)
    · refine .inl ?_
      rw [hd.get?, if_neg eq, hr]
      split
      · exact ⟨_, Record.orphaned_eq_some_iff.2 ⟨hs, rfl⟩, hs⟩
      · exact ⟨r, rfl, hs⟩
  | _ => exact .inl ⟨r, hr, hs⟩

/-- The turn after which no process runs is that of a termination, or takes back a record without a
parent. -/
theorem Turn.idle_cases (h : Turn x i o k' o' permits e) (hx : x.Consistent)
    (hi : x.operations[i]? = some o) (hr : x.kernel.table.get? k = some r)
    (hs : r.state = .running) (hd : k'.table.Idle) :
    (∃ pid status b r, o = ⟨.terminate ⟨pid, status, .departing⟩, b⟩ ∧
      x.kernel.table.running? pid = some r) ∨ x.Forsaken i := by
  rcases h.running_kept hx hr hs with ⟨r', hr', hs'⟩ | ⟨status, b, rfl⟩ | ⟨order, cause, b, rfl⟩
  · exact (hd.not_running hr' hs').elim
  · exact .inl ⟨k, status, b, r, rfl, Table.running?_eq_some_iff.2 ⟨hr, hs⟩⟩
  · refine .inr ⟨order, k, cause, b, r, hi, hr, ?_⟩
    -- A parent of the record would run on.
    cases hp : r.parent with
    | none => rfl
    | some p =>
      have hpar : x.kernel.table.HasParent k p := ⟨r, hr, hp⟩
      obtain ⟨q, hq, hqs⟩ := hx.sound.forest.parent_running hpar
      rcases h.running_kept hx hq hqs with ⟨q', hq', hqs'⟩ | ⟨_, _, ho⟩ | ⟨_, _, _, ho⟩
      · exact (hd.not_running hq' hqs').elim
      · cases ho
      · cases ho
        exact absurd rfl (hx.sound.forest.parent_ne hpar)

/-- A termination after which no process runs has to halt the machine. -/
theorem Consistent.closing {pid : Pid} {status : ExitStatus} {b : Bool} {stimulus : Stimulus}
    (hx : x.Consistent) (hi : x.operations[i]? = some ⟨.terminate ⟨pid, status, .departing⟩, b⟩)
    (hr : x.kernel.table.running? pid = some r)
    (h : x.turn i ⟨.terminate ⟨pid, status, .departing⟩, b⟩ stimulus = some (effects, y))
    (hd : y.kernel.table.Idle) : y.Closing i := by
  obtain ⟨t, ht, hdep⟩ := Table.depart_eq status hx.sound hr
  have hadv := turn_termination h
  simp only [advance, Call.step, Termination.step, ht] at hadv
  cases hadv
  refine ⟨pid, status, _, b, get_put_self hi, ?_⟩
  exact decide_eq_true (hdep.counted.idle_iff.1 hd)

variable {config : Config} {range : PidRange}

theorem Reachable.config_eq {d : Discipline} (h : Reachable μ d config range x) :
    x.kernel.config = config := by
  induction h with
  | start => rfl
  | act _ _ ha ih => exact (act_config ha).trans ih

/-- In orderly traffic of a machine that halts when it is idle, an action that leaves none of the
running processes is a turn of an operation that halts the machine before it ends, exactly if it
does not take back a record without a parent. -/
theorem Reachable.halts_when_idle (h : Reachable μ .orderly config range x)
    (hh : config.haltWhenIdle = true) (hp : Discipline.orderly.Permits x a)
    (ha : x.act a = some (effects, y)) (hr : x.kernel.table.get? k = some r)
    (hs : r.state = .running) (hd : y.kernel.table.Idle) :
    ∃ i stimulus, a = .turn i stimulus ∧ (y.Halts μ i ↔ ¬ x.Forsaken i) := by
  have hx := h.consistent .rfl
  cases a with
  | invoke invocation =>
    simp only [Traffic.act] at ha
    split at ha <;> cases ha <;> exact (hd.not_running hr hs).elim
  | turn i stimulus =>
    refine ⟨i, stimulus, rfl, fun hy hf => hf.not_halts hx ha hy, fun hf => ?_⟩
    have hy := (h.act hp ha).config_eq
    obtain ⟨o, hi, ho⟩ := Option.bind_eq_some_iff.1 ha
    obtain ⟨k', o', permits, e, ht, rfl⟩ := hx.turn hi ho
    obtain ⟨pid, status, b, q, rfl, hq⟩ := (ht.idle_cases hx hi hr hs hd).resolve_right hf
    exact (hx.closing hi hq ho hd).halts (hy ▸ hh)

/-- The root process has ended, and its orphan is about to end. -/
def lastOrphan : Traffic :=
  (new { suffix := none } .standard).after .orderly (μ := Bytes)
    (List.flatten [[.invoke (.boot "init"), .turn 0 .advance], launching 0,
      [.invoke (.exec .root "child" 0)], launching 1,
      [.invoke (.exit .root 0), .turn 2 .advance, .turn 2 .advance, .turn 2 .advance,
        .turn 2 .advance, .invoke (.kill ⟨1⟩)]])

theorem lastOrphan_halts : ∃ effects y,
    lastOrphan.act (.turn 3 .advance : Action Bytes) = some (effects, y) ∧
    y.kernel.table.count = 0 ∧ ¬ lastOrphan.Forsaken 3 ∧ y.Halts Bytes 3 := by
  have step : ∃ effects y, lastOrphan.act (.turn 3 .advance : Action Bytes) = some (effects, y) ∧
      y.kernel.table.count = 0 ∧ ∀ k, y.kernel.table.get? k = none :=
    ⟨_, _, rfl, by decide, fun _ => rfl⟩
  obtain ⟨effects, y, ha, hcount, hnone⟩ := step
  have hf : ¬ lastOrphan.Forsaken 3 := fun ⟨_, _, _, _, _, hi, _⟩ => nomatch hi
  have reach : Reachable Bytes .orderly _ _ lastOrphan := Reachable.start.after _
  obtain ⟨i, _, hi, hiff⟩ := reach.halts_when_idle (k := ⟨1⟩) (r := _) rfl (by decide) ha rfl rfl
    fun k r hr => nomatch (hnone k).symm.trans hr
  cases hi
  exact ⟨effects, y, ha, hcount, hf, hiff.2 hf⟩

/-- The root process is killed while the image of its child is loaded, and cannot be. -/
def forsakenLaunch : Traffic :=
  (new { suffix := none } .standard).after .orderly (μ := Bytes)
    (List.flatten [[.invoke (.boot "init"), .turn 0 .advance], launching 0,
      [.invoke (.exec .root "child" 0), .turn 1 .advance, .invoke (.kill .root), .turn 2 .advance,
        .turn 2 .advance, .turn 2 .advance, .turn 2 .advance,
        .turn 1 (.load (.error (.malformed "")))]])

/-- Its record is the last one, and neither the launch halts the machine when it takes the record
back nor does another operation, for they all have ended. -/
theorem forsakenLaunch_silent :
    Reachable Bytes .orderly { suffix := none } .standard forsakenLaunch ∧
    forsakenLaunch.kernel.table.running = 1 ∧
    ∃ effects y, forsakenLaunch.act (.turn 1 .advance : Action Bytes) = some (effects, y) ∧
      y.kernel.table.running = 0 ∧ y.kernel.table.Idle ∧
      y.operations.map (·.call.ended?.isSome) = [true, false, true] ∧ ¬ y.Halts Bytes 1 :=
  ⟨Reachable.start.after _, rfl, _, _, rfl, rfl, fun _ _ h => (nomatch h), rfl,
    not_halts_of_discarding (i := 1) rfl⟩

end Traffic

end Lifecycle
