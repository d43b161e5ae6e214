import Lifecycle.Proofs.Machine.Mirror
import Lifecycle.Proofs.Traffic.Idleness
import Lifecycle.Proofs.Traffic.History

/-!
# Processes and their tasks

Each running process has a task, and each task that has not ended its process has one that runs
(`Staffed`). Between them stands only a launch that may still fail: its process runs, and has no
task yet. A program makes one call at a time, and only for its own process, so the traffic of a
machine is orderly: nobody makes a process a parent, or ends one, whose launch may still fail.

* `Steady.follow`: the traffic after a move that is no turn.
* `Turning`: a turn of the call of an actor, and of its operation.
* `Turning.lives_on`: a task lives on, or ends its process by the turn.
* `Turning.staffed`: a turn keeps the processes and their tasks together.
-/

namespace Lifecycle

/-- The process `pid` runs. -/
def Table.Runs (t : Table) (pid : Pid) : Prop := ∃ r, t.get? pid = some r ∧ r.state = .running

theorem Table.runs_iff {t : Table} {pid : Pid} : (t.running? pid).isSome = true ↔ t.Runs pid := by
  rw [Option.isSome_iff_exists]
  exact exists_congr fun r => running?_eq_some_iff

/-- The scheduler creates the task of the process `pid` for the call. -/
def Call.Creates (c : Call) (stimulus : Stimulus) (pid : Pid) : Prop :=
  stimulus = .spawn (.ok ()) ∧ ∃ order image, c = .launch (.spawning order pid image)

namespace Traffic

variable {x : Traffic} {i : Nat} {o o' : Operation} {k' : Kernel} {permits : TaskId → Bool}
  {ev : Option Event} {pid : Pid} {client? : Option Pid} {p : String → Prop}

section turn

variable (h : Turn x i o k' o' permits ev)
include h

/-- A call is for the same process all the time. -/
theorem Turn.serves (hs : o.call.Serves client? p) : o'.call.Serves client? p := by
  cases h with
  | quiet hm =>
    cases hm with
    | @refused order b err =>
      rcases Launch.abandon_eq order err with ⟨-, ha⟩ | ⟨-, ha⟩ <;> rw [ha] <;> exact nofun
    | @abandoned order r err b =>
      rcases Launch.abandon_eq order err with ⟨-, ha⟩ | ⟨-, ha⟩ <;> rw [ha] <;> exact nofun
    | _ => first | exact hs | exact nofun
  | claimed =>
    rintro order ho
    cases ho
    exact ⟨hs.1.symm, hs.2⟩
  | _ => first | exact hs | exact nofun

/-- Only the critical section of a termination ends the process of its call. -/
theorem Turn.spares : o'.call.spares = (o.call.spares && o.target?.isNone) := by
  cases h with
  | quiet hm => cases hm <;> rfl
  | _ => rfl

/-- A launch keeps the PID it has reserved until its process runs, or its record is taken back. -/
theorem Turn.reserved_kept (ho : o.reserved? = some pid) (hb : o'.begun = false) :
    o'.reserved? = some pid ∨ ¬ k'.table.Runs pid ∨
      ∃ order image, o.call = .launch (.spawning order pid image) ∧
        o'.call = .launch (.finished (.ok pid)) := by
  cases h with
  | quiet hm =>
    cases hm with
    | loaded | unloaded | unspawned => exact .inl ho
    | _ => cases ho
  | stored =>
    cases hb
    exact .inl ho
  | undone =>
    cases ho
    refine .inr (.inl fun ⟨q, hq, _⟩ => ?_)
    rw [Table.get?_rolledBack, Table.get?_withdraw, if_pos rfl] at hq
    cases hq
  | created => cases hb
  | launched =>
    cases hb
    cases ho
    exact .inr (.inr ⟨_, _, rfl, rfl⟩)
  | _ => cases ho

/-- A process that runs after a turn ran before it, or its record was registered in it. -/
theorem Turn.running_back (hx : x.Consistent) (hr : k'.table.Runs pid) :
    x.kernel.table.Runs pid ∨ ev = some (.reserved i pid) := by
  obtain ⟨r, hr, hs⟩ := hr
  cases h.origin hx hr with
  | reserved he => exact .inr he
  | ended _ _ _ hex =>
    rw [hs] at hex
    cases hex
  | kept hq _ hst => exact .inl ⟨_, hq, hst.symm.trans hs⟩

end turn

end Traffic

namespace Machine

/-- The tasks whose process has not been ended are those of the running processes, except for the
processes whose launch may still fail. No two of them have the same process. -/
structure Staffed (x : Traffic) (m : Machine) : Prop where
  serves : ∀ a c, m.call? a = some c → c.Serves (m.client? a) m.loader.registry.Nameable
  manned : ∀ serial pid, m.Lives serial pid → m.kernel.table.Runs pid ∧ ¬ x.Reserved pid
  distinct : ∀ s s' pid, m.Lives s pid → m.Lives s' pid → s = s'
  kept : ∀ pid, m.kernel.table.Runs pid → x.Reserved pid ∨ ∃ serial, m.Lives serial pid

variable {m m' n : Machine} {a b : Actor} {e : Errand} {c c' : Call} {serial s : Nat} {pid : Pid}
  {stimulus : Stimulus} {x : Traffic} {ix : Actor → Nat} {k' : Kernel} {effects : List Effect}
  {permits : TaskId → Bool} {ev : Option Event} {origin : Origin}

/-- The process that an actor is about to end. -/
def target? (m : Machine) (a : Actor) : Option Pid :=
  (m.call? a).bind fun c => (⟨c, false⟩ : Operation).target?

/-! ## Orderly calls -/

/-- The actor of a call for a process is its task, and lives if the call spares it. -/
theorem lives_of_client? (hc : m.call? a = some c) (hclient : m.client? a = some pid)
    (hs : c.spares = true) : ∃ serial, a = .task serial ∧ m.Lives serial pid := by
  obtain ⟨e, he, rfl⟩ := Option.map_eq_some_iff.1 hc
  cases a with
  | host => cases hclient
  | task serial =>
    obtain ⟨p, hp⟩ := post?_of_errand? he
    obtain rfl : p = pid := by simpa [client?, hp] using hclient
    exact ⟨serial, rfl, _, hp, hs⟩

/-- What the next step of a call makes a parent, or ends, is the process of its actor. -/
theorem client?_of_subject? (hs : c.Serves (m.client? a) m.loader.registry.Nameable)
    (h : (⟨c, false⟩ : Operation).subject? = some pid) :
    m.client? a = some pid ∧ c.spares = true := by
  cases c with
  | launch l =>
    cases l with
    | reserving order => exact ⟨(hs order rfl).1.symm.trans h, rfl⟩
    | _ => cases h
  | terminate t =>
    obtain ⟨q, status, stage⟩ := t
    cases stage with
    | departing => cases h; exact ⟨hs, rfl⟩
    | _ => cases h
  | _ => cases h

/-- So is the process that a call is for. -/
theorem client?_of_client? {o : Operation}
    (hs : o.call.Serves (m.client? a) m.loader.registry.Nameable) (h : o.client? = some pid) :
    m.client? a = some pid ∧ o.call.spares = true := by
  obtain ⟨call, b⟩ := o
  cases call with
  | launch l =>
    obtain ⟨order, ho, hp⟩ := Option.bind_eq_some_iff.1 h
    cases l with
    | booting name => cases ho
    | _ => exact ⟨(hs order ho).1.symm.trans hp, rfl⟩
  | join j =>
    simp only [Operation.client?] at h
    split at h
    · cases h; exact ⟨hs, rfl⟩
    · cases h
  | _ => cases h

theorem call_of_target? (h : (⟨c, false⟩ : Operation).target? = some pid) :
    ∃ status, c = .terminate ⟨pid, status, .departing⟩ := by
  simp only [Operation.target?] at h
  split at h
  · cases h
    exact ⟨_, rfl⟩
  · cases h

theorem ended?_of_client? {o : Operation} (h : o.client? = some pid) : o.call.ended? = none := by
  obtain ⟨call, b⟩ := o
  cases call with
  | launch l => cases l <;> first | rfl | cases h
  | join j =>
    obtain ⟨_, _, _, stage⟩ := j
    cases stage <;> first | rfl | cases h
  | _ => cases h

/-- The next step of a call is orderly. -/
theorem Staffed.allows (hs : Staffed x m) (hc : m.call? a = some c) :
    Discipline.orderly.allows x ⟨c, false⟩ := by
  intro p hp hres
  obtain ⟨hclient, hspares⟩ := client?_of_subject? (hs.serves a c hc) hp
  obtain ⟨serial, -, hl⟩ := lives_of_client? hc hclient hspares
  exact (hs.manned serial p hl).2 hres

/-- A task has one call at a time. -/
theorem Staffed.admits (hs : Staffed x m) (h : Mirror x ix m) (hst : Steady m a m')
    (hnone : m.call? a = none) (hown : m'.call? a = some c)
    (hserves : c.Serves (m.client? a) m.loader.registry.Nameable) :
    Discipline.orderly.admits x ⟨c, false⟩ := by
  rintro p hp ⟨o, ho, hop⟩
  obtain ⟨hclient, hspares⟩ := client?_of_client? (o := ⟨c, false⟩) hserves hp
  have hclient' := (hst.clients (by rw [hown]; rfl)).trans hclient
  obtain ⟨serial, rfl, hl⟩ := lives_of_client? hown hclient' hspares
  -- The process of the other call has a task of its own.
  obtain ⟨i, hi⟩ := List.mem_iff_getElem?.1 ho
  obtain ⟨b, hb, -, -⟩ := h.unended i o hi (ended?_of_client? hop)
  obtain ⟨hclient_b, hspares_b⟩ := client?_of_client? (hs.serves b _ hb) hop
  obtain ⟨serial', rfl, hl'⟩ := lives_of_client? hb hclient_b hspares_b
  obtain rfl := hs.distinct _ _ p ((hst.lives _ _).1 hl) hl'
  rw [hnone] at hb
  cases hb

/-! ## Steady moves -/

theorem reserved_add (hc : Traffic.Started c) :
    (x.add ⟨c, false⟩).Reserved pid ↔ x.Reserved pid := by
  constructor
  · rintro ⟨o, ho, hres⟩
    rcases List.mem_append.1 ho with ho | ho
    · exact ⟨o, ho, hres⟩
    · obtain rfl := List.mem_singleton.1 ho
      rw [hc.views.1] at hres
      cases hres
  · rintro ⟨o, ho, hres⟩
    exact ⟨o, List.mem_append_left _ ho, hres⟩

theorem Staffed.steady {x' : Traffic} (hs : Staffed x m) (hst : Steady m a m')
    (hres : ∀ pid, x'.Reserved pid ↔ x.Reserved pid)
    (hown : ∀ c, m'.call? a = some c → m.call? a = some c ∨
      c.Serves (m.client? a) m.loader.registry.Nameable) : Staffed x' m' where
  serves b c hc := by
    rw [hst.clients (by rw [hc]; rfl), hst.loader]
    by_cases hb : b = a
    · subst hb
      rcases hown c hc with hold | hnew
      · exact hs.serves b c hold
      · exact hnew
    · exact hs.serves b c (hst.others b hb ▸ hc)
  manned s p hl := by
    rw [hst.kernel, hres]
    exact hs.manned s p ((hst.lives s p).1 hl)
  distinct s s' p hl hl' := hs.distinct s s' p ((hst.lives s p).1 hl) ((hst.lives s' p).1 hl')
  kept p hr := by
    rw [hst.kernel] at hr
    rw [hres]
    exact (hs.kept p hr).imp_right fun ⟨s, hl⟩ => ⟨s, (hst.lives s p).2 hl⟩

variable {config : Config}

/-- After a steady move the traffic is the same, or a call has started. -/
theorem Steady.follow (hst : Steady m a m') (h : Mirror x ix m) (hs : Staffed x m)
    (hreach : Traffic.Reachable Bytes .orderly config .standard x) : ∃ x' ix',
      Mirror x' ix' m' ∧ Staffed x' m' ∧ Traffic.Reachable Bytes .orderly config .standard x' ∧
        (x' = x ∨ ∃ c, Traffic.Started c ∧ x' = x.add ⟨c, false⟩) := by
  have hcalls (hown : m'.call? a = m.call? a) : m'.call? = m.call? := by
    funext b
    by_cases hb : b = a
    · rw [hb, hown]
    · exact hst.others b hb
  rcases hc : m.call? a with _ | c <;> rcases hc' : m'.call? a with _ | c'
  all_goals
    have hch := hst.own
    rw [hc, hc'] at hch
  · refine ⟨x, ix, h.congr hst.kernel (hcalls (hc'.trans hc.symm)),
      hs.steady hst (fun _ => .rfl) fun c hown => ?_, hreach, .inl rfl⟩
    rw [hc'] at hown
    cases hown
  · cases hch with
    | @starts invocation effects c hen hserves =>
      have hstart : Traffic.Started c' := Traffic.started_entry (by rw [hen]; rfl)
      refine ⟨_, _, h.add hst.kernel hc hc' hst.others,
        hs.steady hst (fun _ => reserved_add hstart) fun c hown => ?_, ?_, .inr ⟨c', hstart, rfl⟩⟩
      · obtain rfl := Option.some.inj (hc'.symm.trans hown)
        exact .inr hserves
      · have hadm := hs.admits h hst hc hc' hserves
        have hperm : Discipline.orderly.Permits x (.invoke invocation) := by
          intro q hq
          rw [h.kernel, hen] at hq
          cases hq
          exact hadm
        have hact : x.act (.invoke invocation) = some (effects, x.add ⟨c', false⟩) := by
          simp only [Traffic.act, h.kernel, hen]
        exact .act hreach hperm hact
  · cases hch with
    | ends hended =>
      refine ⟨x, ix, h.dismiss hst.kernel hc hended hc' hst.others,
        hs.steady hst (fun _ => .rfl) fun c hown => ?_, hreach, .inl rfl⟩
      rw [hc'] at hown
      cases hown
  · cases hch with
    | stays =>
      exact ⟨x, ix, h.congr hst.kernel (hcalls (hc'.trans hc.symm)),
        hs.steady hst (fun _ => .rfl) fun c hown => .inl (hc.trans (hc'.symm.trans hown)), hreach,
        .inl rfl⟩

/-! ## Turns -/

section prepares

variable (hp : Prepares m a e stimulus n)
include hp

theorem Prepares.halted : n.halted = m.halted := by cases hp <;> rfl

theorem Prepares.host : n.host = m.host := by cases hp <;> rfl

theorem Prepares.registry : n.loader.registry = m.loader.registry := by
  cases hp with
  | @loads order pid answer loader hcall hl =>
    rw [← m.loader.registry_load order.name, hl]
    rfl
  | _ => rfl

/-- The tasks are those of before, and the task of the process that the call launches. -/
theorem Prepares.post? (hfresh : m.post? m.nextTask = none) :
    (n.post? = m.post? ∧ ∀ pid, ¬ e.call.Creates stimulus pid) ∨
    ∃ pid p, e.call.Creates stimulus pid ∧
      ∀ s, n.post? s = if s = m.nextTask then some (pid, .running p) else m.post? s := by
  cases hp with
  | @starts order pid image p hc hcall =>
    refine .inr ⟨pid, p, ⟨rfl, order, image, hcall⟩, fun s => ?_⟩
    rw [post?_enroll (by rw [post?_numbered]; exact hfresh)]
    rfl
  | rouses => exact .inl ⟨post?_withPermit, nofun⟩
  | _ => exact .inl ⟨rfl, nofun⟩

theorem Prepares.errand? (hfresh : m.post? m.nextTask = none) : n.errand? = m.errand? := by
  cases hp with
  | starts =>
    exact (errand?_enroll (by rw [post?_numbered]; exact hfresh) rfl).trans errand?_numbered
  | rouses => exact errand?_withPermit
  | _ => exact errand?_congr rfl rfl

end prepares

/-- A turn of the call of the errand `e`, and of its operation. -/
structure Turning (x : Traffic) (ix : Actor → Nat) (m : Machine) (a : Actor) (e : Errand)
    (stimulus : Stimulus) (n : Machine) (k' : Kernel) (effects : List Effect) (c' : Call)
    (permits : TaskId → Bool) (ev : Option Event) : Prop where
  mirror : Mirror x ix m
  consistent : x.Consistent
  fresh : m.post? m.nextTask = none
  errand : m.errand? a = some e
  awaits : e.call.Awaits stimulus
  prepares : Prepares m a e stimulus n
  react : e.call.react m.kernel stimulus = (k', effects, c')
  turn : Traffic.Turn x (ix a) ⟨e.call, false⟩ k' ⟨c', false⟩ permits ev

/-- A turn of the call of an actor is one of its operation. -/
theorem Mirror.turn (h : Mirror x ix m) (hx : x.Consistent) (hc : m.call? a = some c)
    (haw : c.Awaits stimulus) (hreact : c.react m.kernel stimulus = (k', effects, c')) :
    ∃ permits ev, Traffic.Turn x (ix a) ⟨c, false⟩ k' ⟨c', false⟩ permits ev ∧
      x.act (.turn (ix a) stimulus : Action Bytes) =
        some (effects, (x.put (ix a) k' ⟨c', false⟩ ev).withPermits permits) := by
  have hi := h.under a c hc
  obtain ⟨permits₀, ev₀, hturn⟩ := turn_react x (ix a) haw
  rw [h.kernel, hreact] at hturn
  obtain ⟨k, o', permits, ev, ht, hy⟩ := hx.turn hi hturn
  obtain rfl : k' = k := congrArg Traffic.kernel hy
  have ho : ((x.put (ix a) k' o' ev).withPermits permits).operations[ix a]? = some o' :=
    Traffic.get_put_self hi
  rw [← hy, Traffic.get_put_self hi] at ho
  obtain rfl := Option.some.inj ho
  refine ⟨permits, ev, ht, ?_⟩
  rw [← hy]
  simp only [Traffic.act, hi, Option.bind_some]
  exact hturn

namespace Turning

variable {e' : Errand} (t : Turning x ix m a e stimulus n k' effects c' permits ev)
include t

theorem call : m.call? a = some e.call := call?_of_errand? t.errand

theorem operation : x.operations[ix a]? = some ⟨e.call, false⟩ := t.mirror.under a _ t.call

theorem ne_fresh (hb : (m.call? b).isSome = true) : b ≠ .task m.nextTask := by
  rintro rfl
  simp [call?, errand?, t.fresh] at hb

theorem call?_turned :
    (n.turned a k' effects e').call? b = if b = a then some e'.call else m.call? b := by
  have hn := t.prepares.errand? t.fresh
  rw [call?, errand?_turned (by rw [hn, t.errand]; rfl), hn]
  split <;> rfl

theorem post?_of_old (hs : s ≠ m.nextTask) : n.post? s = m.post? s := by
  rcases t.prepares.post? t.fresh with ⟨hn, -⟩ | ⟨pid, p, -, hn⟩
  · rw [hn]
  · rw [hn, if_neg hs]

theorem client?_turned (hb : b ≠ .task m.nextTask) :
    (n.turned a k' effects e').client? b = m.client? b := by
  cases b with
  | host => rfl
  | task s =>
    have hn := t.post?_of_old (s := s) fun hs => hb (by rw [hs])
    simp only [client?, post?_turned, hn]
    split <;> simp [Function.comp_def]

/-- The tasks whose process has not been ended are those of before, but for the task of the turn,
and the task that the turn creates. -/
theorem lives_turned : (n.turned a k' effects e').Lives s pid ↔
    (if a = .task s then m.client? a = some pid ∧ e'.call.spares = true else m.Lives s pid) ∨
      s = m.nextTask ∧ e.call.Creates stimulus pid := by
  by_cases ha : a = .task s
  · have hs : s ≠ m.nextTask := fun hs => t.ne_fresh (by rw [t.call]; rfl) (hs ▸ ha)
    subst ha
    obtain ⟨q, hq⟩ := post?_of_errand? t.errand
    have hpost : (n.turned (.task s) k' effects e').post? s = some (q, .inKernel e') := by
      rw [post?_turned, if_pos rfl, t.post?_of_old hs, hq]
      rfl
    have hclient : m.client? (.task s) = some q := by simp [client?, hq]
    rw [lives_of_post? hpost, if_pos rfl, hclient, Option.some_inj, eq_comm]
    exact ⟨.inl, fun h => h.resolve_right fun h => hs h.1⟩
  · rw [if_neg ha]
    have hpost : (n.turned a k' effects e').post? s = n.post? s := by
      rw [post?_turned, if_neg ha]
    rcases t.prepares.post? t.fresh with ⟨hsame, hnot⟩ | ⟨q, p, hcreates, hnew⟩
    · have hl : (n.turned a k' effects e').Lives s pid ↔ m.Lives s pid := by
        rw [Lives, hpost, hsame]
        rfl
      exact hl.trans ⟨.inl, fun h => h.resolve_right fun h => hnot pid h.2⟩
    · by_cases hs : s = m.nextTask
      · subst hs
        rw [lives_of_post? (hpost.trans ((hnew _).trans (if_pos rfl)))]
        have hnone : ¬ m.Lives m.nextTask pid := by
          rintro ⟨act, hact, -⟩
          rw [t.fresh] at hact
          cases hact
        refine ⟨fun h => .inr ⟨rfl, h.1 ▸ hcreates⟩, fun h => ⟨?_, rfl⟩⟩
        obtain ⟨-, -, order, image, hcall⟩ := h.resolve_left hnone
        obtain ⟨-, order', image', hcall'⟩ := hcreates
        rw [hcall] at hcall'
        cases hcall'
        rfl
      · have hl : (n.turned a k' effects e').Lives s pid ↔ m.Lives s pid := by
          rw [Lives, hpost, t.post?_of_old hs]
          rfl
        exact hl.trans ⟨.inl, fun h => h.resolve_right fun h => hs h.1⟩

/-- A task that lives after a turn lived before it, or is new. -/
theorem lives_before (hl : (n.turned a k' effects ⟨c', origin, false⟩).Lives s pid) :
    (m.Lives s pid ∧ (a = .task s → c'.spares = true)) ∨
      s = m.nextTask ∧ e.call.Creates stimulus pid := by
  rw [t.lives_turned] at hl
  refine hl.imp_left fun hl => ?_
  split at hl
  · next ha =>
    have hsp := t.turn.spares
    rw [hl.2, eq_comm, Bool.and_eq_true] at hsp
    obtain ⟨s', hs', hlive⟩ := lives_of_client? t.call hl.1 hsp.1
    rw [ha] at hs'
    cases hs'
    exact ⟨hlive, fun _ => hl.2⟩
  · next ha => exact ⟨hl, fun ha' => absurd ha' ha⟩

/-- The launch whose task is created has done its part. -/
theorem reserved?_of_creates (hcr : e.call.Creates stimulus pid) :
    k' = m.kernel ∧ (⟨e.call, false⟩ : Operation).reserved? = some pid ∧
      (⟨c', false⟩ : Operation).reserved? = none := by
  obtain ⟨rfl, order, image, hcall⟩ := hcr
  have hreact := t.react
  rw [hcall] at hreact ⊢
  simp only [Call.react, Call.spawned, Launch.spawned] at hreact
  split at hreact <;> (cases hreact; exact ⟨rfl, rfl, rfl⟩)

theorem creates (hc : ∃ order image, e.call = .launch (.spawning order pid image))
    (hc' : c' = .launch (.finished (.ok pid))) : e.call.Creates stimulus pid := by
  obtain ⟨order, image, hcall⟩ := hc
  refine ⟨?_, order, image, hcall⟩
  have hreact := t.react
  have haw := t.awaits
  rw [hcall] at hreact haw
  cases stimulus with
  | advance => exact absurd rfl haw
  | load answer => obtain ⟨_, _, h⟩ := haw; cases h
  | spawn answer =>
    cases answer with
    | ok u => rfl
    | error err => rw [hc'] at hreact; cases hreact
  | rouse => cases haw
  | start | wake => exact haw.elim

/-- The critical section of a termination ends the process. -/
theorem departs {status : ExitStatus} (hcall : e.call = .terminate ⟨pid, status, .departing⟩)
    (hr : m.kernel.table.Runs pid) : ¬ k'.table.Runs pid := by
  have hreact := t.react
  have haw := t.awaits
  rw [hcall] at hreact haw
  cases stimulus with
  | advance =>
    obtain ⟨r, hr⟩ := Option.isSome_iff_exists.1 (Table.runs_iff.2 hr)
    obtain ⟨t', ht', hd⟩ := Table.depart_eq status (t.mirror.kernel ▸ t.consistent.sound) hr
    simp only [Call.react, Call.step, Termination.step, ht'] at hreact
    cases hreact
    rintro ⟨q, hq, hrun⟩
    rw [hd.get?, if_pos rfl] at hq
    obtain ⟨_, -, rfl⟩ := Option.map_eq_some_iff.1 hq
    cases hrun
  | load answer => obtain ⟨_, _, h⟩ := haw; cases h
  | spawn answer => obtain ⟨_, _, _, h⟩ := haw; cases h
  | rouse => cases haw
  | start | wake => exact haw.elim

variable (hs : Staffed x m)
include hs

/-- A process runs on while its task lives. -/
theorem runs_on (hl : m.Lives s pid) (hself : a = .task s → c'.spares = true) :
    k'.table.Runs pid := by
  obtain ⟨⟨r, hr, hrun⟩, hres⟩ := hs.manned s pid hl
  rcases t.turn.running_kept t.consistent (t.mirror.kernel ▸ hr) hrun with
    hk | ⟨status, b, ho⟩ | ⟨order, cause, b, ho⟩
  · exact hk
  · -- Only its own task ends it.
    have hcall : e.call = .terminate ⟨pid, status, .departing⟩ := congrArg Operation.call ho
    have hserves := hs.serves a _ t.call
    rw [hcall] at hserves
    obtain ⟨s', rfl, hl'⟩ := lives_of_client? t.call hserves (by rw [hcall]; rfl)
    obtain rfl := hs.distinct _ _ pid hl hl'
    have hsp := t.turn.spares
    rw [hself rfl, ho] at hsp
    cases hsp
  · have hcall : e.call = .launch (.undoing order pid cause) := congrArg Operation.call ho
    refine absurd (Traffic.Reserved.of_get t.operation ?_) hres
    rw [hcall]
    rfl

/-- The PID of a launch that may still fail is that of no task. -/
theorem not_reserved (hl : m.Lives s pid) :
    ¬ ((x.put (ix a) k' ⟨c', false⟩ ev).withPermits permits).Reserved pid := by
  obtain ⟨⟨r, hr, -⟩, hres⟩ := hs.manned s pid hl
  rintro ⟨o, ho, hop⟩
  obtain ⟨j, hj⟩ := List.mem_iff_getElem?.1 ho
  rcases Traffic.put_cases t.operation hj with ⟨rfl, rfl⟩ | ⟨-, hj⟩
  · rcases t.turn.reserved? hop with ⟨hold, -⟩ | hev
    · exact hres (.of_get t.operation hold)
    · obtain ⟨-, -, -, -, hnone⟩ := t.turn.of_reserved t.consistent hev
      rw [t.mirror.kernel, hr] at hnone
      cases hnone
  · exact hres (.of_get hj hop)

omit hs in
/-- The process of a new task runs, and its launch cannot fail any more. -/
theorem manned_new (hcr : e.call.Creates stimulus pid) : k'.table.Runs pid ∧
    ¬ ((x.put (ix a) k' ⟨c', false⟩ ev).withPermits permits).Reserved pid := by
  obtain ⟨rfl, hres, hnone⟩ := t.reserved?_of_creates hcr
  obtain ⟨⟨r, hr, hrun, -⟩, hl⟩ := t.consistent.unstarted _ _ _ t.operation hres
  refine ⟨⟨r, t.mirror.kernel ▸ hr, hrun⟩, ?_⟩
  rintro ⟨o, ho, hop⟩
  obtain ⟨j, hj⟩ := List.mem_iff_getElem?.1 ho
  rcases Traffic.put_cases t.operation hj with ⟨rfl, rfl⟩ | ⟨hne, hj⟩
  · rw [hnone] at hop
    cases hop
  · have hl' := (t.consistent.unstarted _ _ _ hj hop).2
    rw [hl] at hl'
    exact hne (Option.some.inj hl').symm

/-- The process of the task of the turn is spared, or it is ended. -/
theorem spares_or_ended (ha : a = .task s) (hl : m.Lives s pid) :
    c'.spares = true ∨ m.target? a = some pid ∧ ¬ k'.table.Runs pid := by
  subst ha
  obtain ⟨q, hq⟩ := post?_of_errand? t.errand
  obtain ⟨rfl, halive⟩ := (lives_of_post? hq).1 hl
  have hsp : c'.spares = _ := t.turn.spares
  rw [show e.call.spares = true from halive, Bool.true_and] at hsp
  cases htarget : (⟨e.call, false⟩ : Operation).target? with
  | none => exact .inl (by rw [hsp, htarget]; rfl)
  | some target =>
    obtain ⟨status, hcall⟩ := call_of_target? htarget
    have hserves := hs.serves _ _ t.call
    have hclient : m.client? (.task s) = some pid := by simp [client?, hq]
    rw [hcall] at hserves
    obtain rfl : target = pid := Option.some.inj (hserves.symm.trans hclient)
    refine .inr ⟨?_, t.departs hcall (hs.manned s _ hl).1⟩
    rw [target?, t.call]
    exact htarget

/-- A task lives on, or it ends its process by the turn. -/
theorem lives_on (hl : m.Lives s pid) :
    (n.turned a k' effects ⟨c', origin, false⟩).Lives s pid ∨
      a = .task s ∧ m.target? a = some pid ∧ ¬ k'.table.Runs pid := by
  rw [t.lives_turned]
  by_cases ha : a = .task s
  · refine (t.spares_or_ended hs ha hl).imp (fun hsp => .inl ?_) fun hended => ⟨ha, hended⟩
    rw [if_pos ha, ha]
    obtain ⟨act, hact, -⟩ := hl
    exact ⟨by simp [client?, hact], hsp⟩
  · rw [if_neg ha]
    exact .inl (.inl hl)

/-- A process that runs on keeps its task, and its launch keeps its record. -/
theorem kept (hr : k'.table.Runs pid) (hold : m.kernel.table.Runs pid) :
    ((x.put (ix a) k' ⟨c', false⟩ ev).withPermits permits).Reserved pid ∨
      ∃ s, (n.turned a k' effects ⟨c', origin, false⟩).Lives s pid := by
  rcases hs.kept pid hold with ⟨o, ho, hop⟩ | ⟨s, hl⟩
  · obtain ⟨j, hj⟩ := List.mem_iff_getElem?.1 ho
    rcases Traffic.get_put_cases k' ⟨c', false⟩ permits ev t.operation hj with
      ⟨rfl, rfl, hj'⟩ | ⟨-, hj'⟩
    · rcases t.turn.reserved_kept hop rfl with hop' | hgone | ⟨order, image, hcall, hcall'⟩
      · exact .inl (.of_get hj' hop')
      · exact absurd hr hgone
      · exact .inr ⟨_, t.lives_turned.2 (.inr ⟨rfl, t.creates ⟨order, image, hcall⟩ hcall'⟩)⟩
    · exact .inl (.of_get hj' hop)
  · exact .inr ⟨s, (t.lives_on hs hl).resolve_right fun ⟨_, _, hended⟩ => hended hr⟩

/-- A turn keeps the processes and their tasks together. -/
theorem staffed (origin : Origin) :
    Staffed ((x.put (ix a) k' ⟨c', false⟩ ev).withPermits permits)
      (n.turned a k' effects ⟨c', origin, false⟩) where
  serves b c hc := by
    rw [t.call?_turned] at hc
    have hb : b ≠ .task m.nextTask := by
      refine t.ne_fresh ?_
      split at hc
      · next hb => rw [hb, t.call]; rfl
      · rw [hc]; rfl
    rw [registry_turned, t.prepares.registry, t.client?_turned hb]
    split at hc
    · next hb =>
      cases hc
      rw [hb]
      exact t.turn.serves (hs.serves a _ t.call)
    · exact hs.serves b c hc
  manned s pid hl := by
    rw [kernel_turned]
    rcases t.lives_before hl with ⟨hl, hself⟩ | ⟨-, hcr⟩
    · exact ⟨t.runs_on hs hl hself, t.not_reserved hs hl⟩
    · exact t.manned_new hcr
  distinct s s' pid hl hl' := by
    have hnew {s : Nat} (hl : m.Lives s pid) : ¬ e.call.Creates stimulus pid := fun hcr =>
      (hs.manned s pid hl).2 (.of_get t.operation (t.reserved?_of_creates hcr).2.1)
    rcases t.lives_before hl with ⟨hl, -⟩ | ⟨rfl, hcr⟩ <;>
      rcases t.lives_before hl' with ⟨hl', -⟩ | ⟨rfl, hcr'⟩
    · exact hs.distinct s s' pid hl hl'
    · exact absurd hcr' (hnew hl)
    · exact absurd hcr (hnew hl')
    · rfl
  kept pid hr := by
    rw [kernel_turned] at hr
    rcases t.turn.running_back t.consistent hr with hold | hev
    · exact t.kept hs hr (t.mirror.kernel ▸ hold)
    · obtain ⟨-, -, -, hres, -⟩ := t.turn.of_reserved t.consistent hev
      exact .inl (.of_get (Traffic.get_put_self t.operation) hres)

end Turning

end Machine

end Lifecycle
