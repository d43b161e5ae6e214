import Lifecycle.Proofs.Machine.Tracking
import Lifecycle.Proofs.Traffic.Finality

/-!
# The end of a machine

After the boot of the root process some process runs, or the machine has halted, or a termination
still has to halt it (`Founded`): the last running process is ended by its own task. So a machine
that has no task any more, and that halts when it is idle, has halted, and there is nothing in its
table and in the hands of its calls (`Tracked.nothing_left`).
-/

namespace Lifecycle

theorem Table.runs_of_not_idle {t : Table} (h : ¬ t.Idle) : ∃ pid, t.Runs pid := by
  simp only [Idle, not_forall, Bool.not_eq_true] at h
  obtain ⟨pid, r, hr, hex⟩ := h
  exact ⟨pid, r, hr, ProcessState.isExited_eq_false_iff.1 hex⟩

namespace Traffic

variable {x : Traffic} {i : Nat} {o o' : Operation} {k' : Kernel} {permits : TaskId → Bool}
  {ev : Option Event} {pid : Pid}

/-- A launch answers a PID when the scheduler has created the task. -/
theorem Turn.of_answer (h : Turn x i o k' o' permits ev)
    (ho : o'.call = .launch (.finished (.ok pid))) :
    ∃ order image, o.call = .launch (.spawning order pid image) := by
  cases h with
  | quiet hm =>
    cases hm with
    | @refused order b err =>
      rcases Launch.abandon_eq order err with ⟨-, ha⟩ | ⟨-, ha⟩ <;> rw [ha] at ho <;> cases ho
    | @abandoned order r err b =>
      rcases Launch.abandon_eq order err with ⟨-, ha⟩ | ⟨-, ha⟩ <;> rw [ha] at ho <;> cases ho
    | _ => cases ho
  | launched =>
    cases ho
    exact ⟨_, _, rfl⟩
  | _ => cases ho

end Traffic

namespace Machine

/-- The root process was launched, and there is somebody who halts the machine when it gets idle. -/
structure Founded (x : Traffic) (m : Machine) : Prop where
  booted : x.kernel.booted = true
  boots : ∀ (i : Nat) (o : Operation), x.operations[i]? = some o → o.boots = false
  busy : x.kernel.config.haltWhenIdle = true →
    (∃ pid, x.kernel.table.Runs pid) ∨ m.halted = true ∨ ∃ i, x.Closing i

variable {m m' n : Machine} {a : Actor} {e : Errand} {c c' : Call} {pid : Pid}
  {stimulus : Stimulus} {x x' : Traffic} {ix : Actor → Nat} {k' : Kernel} {effects : List Effect}
  {permits : TaskId → Bool} {ev : Option Event} {origin : Origin}
  {config : Config} {registry : Registry} {pages : Nat}

namespace Turning

variable (t : Turning x ix m a e stimulus n k' effects c' permits ev) (hs : Staffed x m)
include t hs

/-- The call of an actor is a launch of its process, if it is a launch. -/
theorem not_forsaken (hf : Founded x m) (hidle : k'.table.Idle) : ¬ x.Forsaken (ix a) := by
  rintro ⟨order, pid, cause, b, r, hi, -, -⟩
  obtain hcall := congrArg Operation.call (Option.some.inj (t.operation.symm.trans hi))
  have hserves := hs.serves a _ t.call
  rw [show e.call = _ from hcall] at hserves
  obtain ⟨hparent, -⟩ := hserves order rfl
  cases hp : order.parent with
  | none =>
    have hboots := hf.boots _ _ hi
    simp [Operation.boots, Launch.boots, Launch.order?, hp] at hboots
  | some p =>
    -- The process that launches runs on.
    have hspares : e.call.spares = true := by rw [show e.call = _ from hcall]; rfl
    obtain ⟨s, rfl, hl⟩ := lives_of_client? t.call (hparent.symm.trans hp) hspares
    have hself : c'.spares = true := by
      rw [show c'.spares = _ from t.turn.spares, show e.call = _ from hcall]
      rfl
    obtain ⟨q, hq, hrun⟩ := t.runs_on hs hl fun _ => hself
    exact hidle.not_running hq hrun

/-- There is still somebody who halts the machine after a turn. -/
theorem busy (hf : Founded x m)
    (hact : x.act (.turn (ix a) stimulus : Action Bytes) = some (effects, x'))
    (hx' : x'.kernel = k') (hh : x.kernel.config.haltWhenIdle = true) :
    (∃ pid, k'.table.Runs pid) ∨ (m.halted || effects.any Effect.halts) = true ∨
      ∃ i, x'.Closing i := by
  rcases hf.busy hh with ⟨pid, r, hr, hrun⟩ | hhalted | ⟨i, hclosing⟩
  · by_cases hidle : k'.table.Idle
    · obtain ⟨q, status, b, r', ho, hr'⟩ :=
        (t.turn.idle_cases t.consistent t.operation hr hrun hidle).resolve_right
          (t.not_forsaken hs hf hidle)
      have hi := t.operation
      rw [ho] at hi
      exact .inr (.inr ⟨_, t.consistent.closing hi hr' (Traffic.turn_of_act hi hact) (hx' ▸ hidle)⟩)
    · exact .inl (Table.runs_of_not_idle hidle)
  · exact .inr (.inl (by rw [hhalted]; rfl))
  · rcases hclosing.act hh hact with hclosing | ⟨_, _, hhalt⟩
    · exact .inr (.inr ⟨i, hclosing⟩)
    · refine .inr (.inl ?_)
      have hany : effects.any Effect.halts = true := List.any_eq_true.2 ⟨_, hhalt, rfl⟩
      rw [hany, Bool.or_true]

theorem founded (hf : Founded x m)
    (hx' : x' = (x.put (ix a) k' ⟨c', false⟩ ev).withPermits permits)
    (hact : x.act (.turn (ix a) stimulus : Action Bytes) = some (effects, x')) :
    Founded x' (n.turned a k' effects ⟨c', origin, false⟩) where
  booted := by
    rw [hx']
    exact t.turn.booted (hf.boots _ _ t.operation) hf.booted
  boots i o hi := by
    rw [hx'] at hi
    rcases Traffic.put_cases t.operation hi with ⟨rfl, rfl⟩ | ⟨-, hi⟩
    · refine Bool.eq_false_iff.2 fun hb => ?_
      rcases t.turn.boots hb with hb | hb
      · rw [hf.boots _ _ t.operation] at hb
        cases hb
      · rw [hf.booted] at hb
        cases hb
    · exact hf.boots i o hi
  busy hh := by
    have hk : x'.kernel = k' := by rw [hx']; rfl
    rw [Traffic.act_config hact] at hh
    rw [halted_turned, t.prepares.halted, hk]
    exact t.busy hs hf hact hk hh

/-- The root process is launched. -/
theorem founds (hhost : a = .host) (hc' : c' = .launch (.finished (.ok pid)))
    (hx' : x' = (x.put (ix a) k' ⟨c', false⟩ ev).withPermits permits) : Founded x' m' := by
  obtain ⟨order, image, hcall⟩ := t.turn.of_answer hc'
  have hcreates := t.creates ⟨order, image, hcall⟩ hc'
  obtain ⟨hk, -, -⟩ := t.reserved?_of_creates hcreates
  have hboots : (⟨e.call, false⟩ : Operation).boots = true := by
    have hserves := hs.serves a _ t.call
    rw [show e.call = _ from hcall] at hserves ⊢
    obtain ⟨hparent, -⟩ := hserves order rfl
    simp [Operation.boots, Launch.boots, Launch.order?, hparent, hhost, client?]
  refine ⟨?_, fun i o hi => ?_, fun _ => .inl ⟨pid, ?_⟩⟩
  · rw [hx']
    show k'.booted = true
    rw [hk, ← t.mirror.kernel]
    exact (t.consistent.booting _ _ t.operation hboots).booted
  · rw [hx'] at hi
    rcases Traffic.put_cases t.operation hi with ⟨rfl, rfl⟩ | ⟨hne, hi⟩
    · rw [hc']
      rfl
    · refine Bool.eq_false_iff.2 fun hb => hne ?_
      exact t.consistent.single _ _ _ _ hi t.operation hb hboots
  · rw [hx']
    exact (t.manned_new hcreates).1

end Turning

section followed

variable (h : Followed x ix m a x' m')
include h

theorem Followed.founded (hs : Staffed x m) (hf : Founded x m) : Founded x' m' := by
  cases h with
  | steady hst hx' =>
    rcases hx' with rfl | ⟨c, hc, rfl⟩
    · exact ⟨hf.booted, hf.boots, hst.halted ▸ hf.busy⟩
    · refine ⟨hf.booted, fun i o hi => ?_, fun hh => ?_⟩
      · rcases Traffic.add_cases hi with hi | ⟨-, rfl⟩
        · exact hf.boots i o hi
        · exact hc.views.2.1
      · rw [hst.halted]
        refine (hf.busy hh).imp_right (Or.imp_right fun ⟨i, pid, status, stage, b, hi, hidle⟩ => ?_)
        exact ⟨i, pid, status, stage, b, Traffic.get_add hi, hidle⟩
  | turned t hx' hact hm' =>
    subst hm'
    exact t.founded hs hf hx' hact

/-- A move with which the root process is launched. -/
theorem Followed.founds (hs : Staffed x m) (hl : m'.Launched) : m.Launched ∨ Founded x' m' := by
  cases h with
  | steady hst hx' => exact .inl (hst.launched hl)
  | @turned e stimulus n k' effects c' permits ev t hx' hact hm' =>
    subst hm'
    obtain ⟨pid, hl⟩ := hl
    cases a with
    | host =>
      have hcall := hl.resolve_left nofun
      rw [t.call?_turned, if_pos rfl] at hcall
      exact .inr (t.founds hs rfl (Option.some.inj hcall) hx')
    | task serial =>
      refine .inl ⟨pid, hl.imp (fun hl => ?_) fun hl => ?_⟩
      · rw [host_turned, t.prepares.host] at hl
        exact hl
      · rw [t.call?_turned, if_neg nofun] at hl
        exact hl

end followed

/-! ## Nothing is left -/

theorem reserved?_of_ended {o : Operation} (h : o.call.ended?.isSome = true) :
    o.reserved? = none := by
  obtain ⟨call, b⟩ := o
  cases call with
  | launch l => cases l <;> first | rfl | cases h
  | _ => rfl

/-- The host of a machine whose root process was launched holds nothing. -/
theorem holds_nothing {p : String → Prop} (hs : c.Serves none p)
    (hb : (⟨c, false⟩ : Operation).boots = false) :
    (⟨c, false⟩ : Operation).reserved? = none ∧ (⟨c, false⟩ : Operation).unstored = [] ∧
      (⟨c, false⟩ : Operation).undropped = [] ∧ c.ends = false := by
  cases c with
  | launch l =>
    cases l with
    | booting | finished | crashed => exact ⟨rfl, rfl, rfl, rfl⟩
    | clearing => cases hb
    | _ =>
      obtain ⟨hparent, -⟩ := hs _ rfl
      simp [Operation.boots, Launch.boots, Launch.order?, hparent] at hb
  | halt r => cases hs
  | _ => cases hs

section left

variable (h : Tracked config registry pages x ix m) (hf : Founded x m) (hlive : m.live = 0)
include h hf hlive

/-- Every operation has ended, or it is a call of the host that holds nothing. -/
theorem Tracked.holds_nothing (i : Nat) (o : Operation) (hi : x.operations[i]? = some o) :
    o.reserved? = none ∧ o.unstored = [] ∧ o.undropped = [] ∧
      (o.call.ended? = none → o.call.ends = false) := by
  cases ho : o.call.ended? with
  | some ended =>
    have hended : o.call.ended?.isSome = true := by rw [ho]; rfl
    obtain ⟨hunstored, hundropped⟩ := Operation.ended_holds_nothing hended
    exact ⟨reserved?_of_ended hended, hunstored, hundropped, nofun⟩
  | none =>
    obtain ⟨a, hc, -, hbegun⟩ := h.mirror.unended i o hi ho
    obtain ⟨call, b⟩ := o
    cases hbegun
    have ha : a = .host := by
      cases a with
      | host => rfl
      | task serial => simp [call?, errand?, h.placed.post?_eq_none hlive] at hc
    subst ha
    obtain ⟨hres, hunstored, hundropped, hends⟩ :=
      Machine.holds_nothing (h.staffed.serves _ _ hc) (hf.boots i _ hi)
    exact ⟨hres, hunstored, hundropped, fun _ => hends⟩

/-- A machine without a task has nothing left. -/
theorem Tracked.nothing_left : (∀ pid, m.kernel.table.get? pid = none) ∧ m.residentPages = 0 ∧
    (config.haltWhenIdle = true → m.halted = true) := by
  have hnothing := h.holds_nothing hf hlive
  have hstill : ∀ pid, ¬ x.kernel.table.Runs pid := by
    intro pid hr
    rcases h.staffed.kept pid (h.mirror.kernel ▸ hr) with ⟨o, ho, hres⟩ | ⟨serial, act, hact, -⟩
    · obtain ⟨i, hi⟩ := List.mem_iff_getElem?.1 ho
      rw [(hnothing i o hi).1] at hres
      cases hres
    · rw [h.placed.post?_eq_none hlive] at hact
      cases hact
  have hidle : x.kernel.table.Idle := Classical.byContradiction fun hn =>
    (Table.runs_of_not_idle hn).elim hstill
  have hempty := h.consistent.sound.empty_of_idle hidle
  refine ⟨h.mirror.kernel ▸ hempty, ?_, fun hh => ?_⟩
  · have hheld : x.held = [] :=
      gather_eq_nil fun i o hi => by rw [(hnothing i o hi).2.1]; rfl
    have htaken : x.taken = [] :=
      gather_eq_nil fun i o hi => by rw [(hnothing i o hi).2.2.1]; rfl
    rw [residentPages, h.used, Traffic.pagesHeld, hheld, htaken, List.nil_append, List.append_nil,
      Traffic.pages_stored, PidMap.values, PidMap.entries_eq_nil hempty]
    rfl
  · rw [← h.reachable.config_eq] at hh
    rcases hf.busy hh with ⟨pid, hr⟩ | hhalted | ⟨i, pid, status, stage, b, hi, hs⟩
    · exact (hstill pid hr).elim
    · exact hhalted
    · have hunended : (Call.terminate ⟨pid, status, stage⟩).ended? = none := by
        cases stage <;> first | rfl | cases hs
      cases (hnothing i _ hi).2.2.2 hunended

end left

end Machine

end Lifecycle
