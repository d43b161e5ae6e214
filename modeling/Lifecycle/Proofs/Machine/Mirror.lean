import Lifecycle.Proofs.Machine.Moves
import Lifecycle.Proofs.Traffic.Consistency

/-!
# The calls of a machine as traffic

The calls that the actors of a machine have under way are operations of orderly traffic over the
kernel of the machine (`Mirror`). Every other operation of that traffic has ended. A move of the
machine is a turn of the call of its actor, or it is `Steady`: it starts a call, or takes note of
the end of one, or neither.

* `Machine.call?`: the call that an actor has under way.
* `Machine.Lives`: a task whose process has not been ended yet.
* `Moved.cases`: a move is a turn, or steady.
* `Mirror.add`, `Mirror.put`, `Mirror.dismiss`: the traffic when a call starts, goes on or has
  ended.
* `turn_react`: what the traffic makes of a turn the call makes of it.
-/

namespace Lifecycle

/-- The process that makes the call has not been ended by it. -/
def Call.spares : Call → Bool
  | terminate ⟨_, _, .departing⟩ => true
  | terminate _ => false
  | _ => true

theorem Call.eq_of_launched {c : Call} {result : Except ProcessError Pid}
    (h : c.ended? = some (.launched result)) : c = .launch (.finished result) := by
  cases c with
  | launch l => cases l <;> cases h; rfl
  | join j => obtain ⟨_, _, _, s⟩ := j; cases s <;> cases h
  | terminate e => obtain ⟨_, _, s⟩ := e; cases s <;> cases h
  | halt r => cases r <;> cases h

/-- The process of the task has not been ended. -/
def Activity.alive : Activity → Bool
  | running _ => true
  | inKernel e => e.call.spares
  | retiring => false

namespace Machine

/-- The call that an actor has under way. -/
def call? (m : Machine) (a : Actor) : Option Call := (m.errand? a).map (·.call)

/-- The task `serial` runs the process `pid`, which has not been ended. -/
def Lives (m : Machine) (serial : Nat) (pid : Pid) : Prop :=
  ∃ act, m.post? serial = some (pid, act) ∧ act.alive = true

/-- How the call of an actor changes without a turn. -/
inductive Change (m : Machine) (a : Actor) : Option Call → Option Call → Prop where
  | stays {c : Option Call} : Change m a c c
  | starts {invocation : Invocation Bytes} {effects : List Effect} {c : Call} :
      invocation.entry m.kernel = (effects, .started c) →
      c.Serves (m.client? a) m.loader.registry.Nameable → Change m a none (some c)
  | ends {c : Call} : c.ended?.isSome = true → Change m a (some c) none

/-- The host has booted the root process. -/
def Launched (m : Machine) : Prop :=
  ∃ pid, m.host = .booted (.launched (.ok pid)) ∨
    m.call? .host = some (.launch (.finished (.ok pid)))

/-- A move of the actor `a` that is no turn of its call. -/
structure Steady (m : Machine) (a : Actor) (m' : Machine) : Prop where
  kernel : m'.kernel = m.kernel
  loader : m'.loader = m.loader
  halted : m'.halted = m.halted
  nextTask : m'.nextTask = m.nextTask
  launched : m'.Launched → m.Launched
  /-- A task keeps its process until it is finished. -/
  tasks : ∀ serial, m'.client? (.task serial) = m.client? (.task serial) ∨
    m'.client? (.task serial) = none ∧ ∀ pid, ¬ m.Lives serial pid
  lives : ∀ serial pid, m'.Lives serial pid ↔ m.Lives serial pid
  others : ∀ b ≠ a, m'.call? b = m.call? b
  own : Change m a (m.call? a) (m'.call? a)

variable {m m' n : Machine} {a b : Actor} {e : Errand} {c : Call} {serial : Nat} {pid : Pid}
  {stimulus : Stimulus}

theorem call?_of_errand? (h : m.errand? a = some e) : m.call? a = some e.call := by
  simp [call?, h]

theorem lives_of_post? {act : Activity} (h : m.post? serial = some (pid, act)) {p : Pid} :
    m.Lives serial p ↔ p = pid ∧ act.alive = true := by
  unfold Lives
  rw [h]
  constructor
  · rintro ⟨act', hact, ha⟩
    cases hact
    exact ⟨rfl, ha⟩
  · rintro ⟨rfl, ha⟩
    exact ⟨act, rfl, ha⟩

/-- A task goes on to another activity, and is alive if it was. -/
theorem Steady.of_proceed {act act' : Activity} (hp : m.post? serial = some (pid, act))
    (halive : act'.alive = act.alive)
    (hown : Change m (.task serial) (act.errand?.map (·.call)) (act'.errand?.map (·.call))) :
    Steady m (.task serial) (m.proceed serial act') where
  kernel := rfl
  loader := rfl
  halted := rfl
  nextTask := rfl
  launched := id
  tasks s := by
    refine .inl ?_
    simp only [client?, post?_proceed]
    split <;> simp [Function.comp_def]
  lives s p := by
    by_cases hs : s = serial
    · subst hs
      have hp' : (m.proceed s act').post? s = some (pid, act') := by simp [hp]
      rw [lives_of_post? hp', lives_of_post? hp, halive]
    · simp [Lives, hs]
  others b hb := by
    simp only [call?, errand?_proceed (by rw [hp]; rfl), if_neg hb]
  own := by
    rw [call?, call?, errand?_proceed (by rw [hp]; rfl), if_pos rfl]
    simpa [errand?, hp] using hown

/-- The host goes on. -/
theorem Steady.of_host (host : Host)
    (hown : Change m .host (m.host.errand?.map (·.call)) (host.errand?.map (·.call)))
    (hl : ({ m with host := host } : Machine).Launched → m.Launched) :
    Steady m .host { m with host := host } where
  kernel := rfl
  loader := rfl
  halted := rfl
  nextTask := rfl
  launched := hl
  tasks _ := .inl rfl
  lives _ _ := .rfl
  others b hb := by
    cases b with
    | host => exact absurd rfl hb
    | task serial => rfl
  own := hown

theorem Steady.of_finish {t : Task} (ht : m.task? t.serial = some t)
    (hact : t.activity = .retiring) : Steady m (.task t.serial) (m.finish t) := by
  have hcall : (m.finish t).call? = m.call? := by
    funext b
    rw [call?, call?, errand?_finish ht (by rw [hact]; rfl)]
  have hpost : m.post? t.serial = some (t.pid, .retiring) := hact ▸ post?_of_task? ht
  refine ⟨rfl, rfl, rfl, rfl, ?_, fun s => ?_, fun s pid => ?_, fun b _ => by rw [hcall],
    hcall ▸ .stays⟩
  · rintro ⟨pid, hl⟩
    exact ⟨pid, hcall ▸ hl⟩
  · simp only [client?, post?_finish]
    split
    · next hs =>
      refine .inr ⟨rfl, fun pid hl => ?_⟩
      rw [hs, lives_of_post? hpost] at hl
      cases hl.2
    · exact .inl rfl
  · by_cases hs : s = t.serial
    · subst hs
      rw [lives_of_post? hpost]
      simp [Lives, post?_finish, Activity.alive]
    · simp [Lives, post?_finish, hs]

/-- A call that has ended has ended the process of its task, if that is what it is for. -/
theorem spares_of_ended {ended : Ended} (h : c.ended? = some ended) : c.spares = !c.ends := by
  cases c with
  | terminate e =>
    obtain ⟨_, _, s⟩ := e
    cases s <;> first | rfl | cases h
  | _ => rfl

theorem spares_of_started (h : Traffic.Started c) : c.spares = true := by cases h <;> rfl

theorem post?_of_errand? (h : m.errand? (.task serial) = some e) :
    ∃ pid, m.post? serial = some (pid, .inKernel e) := by
  obtain ⟨⟨pid, act⟩, hp, he⟩ := Option.bind_eq_some_iff.1 h
  cases act <;> cases he
  exact ⟨pid, hp⟩

/-- An actor with a call keeps its process. -/
theorem Steady.clients (h : Steady m a m') (hb : (m'.call? b).isSome = true) :
    m'.client? b = m.client? b := by
  cases b with
  | host => rfl
  | task serial =>
    refine (h.tasks serial).resolve_right fun ⟨hn, _⟩ => ?_
    obtain ⟨e, he⟩ := Option.isSome_iff_exists.1 (Option.isSome_map ▸ hb)
    obtain ⟨pid, hp⟩ := post?_of_errand? he
    simp [client?, hp] at hn

/-- A move is a turn of the call of its actor, or steady. -/
theorem Moved.cases (h : Moved m a m') : Steady m a m' ∨ ∃ e stimulus n,
    m.errand? a = some e ∧ e.call.Awaits stimulus ∧ Prepares m a e stimulus n ∧
      m' = n.turned a (e.call.react m.kernel stimulus).1 (e.call.react m.kernel stimulus).2.1
        ⟨(e.call.react m.kernel stimulus).2.2, e.origin, false⟩ := by
  cases h with
  | @thinks serial pid p p' written semaphores hp =>
    have hs : Steady m (.task serial) (m.proceed serial (.running p')) :=
      .of_proceed hp rfl .stays
    exact .inl { hs with }
  | @enters serial pid p invocation c origin effects hp hen hserves =>
    have hclient : m.client? (.task serial) = some pid := by simp [client?, hp]
    have hstart : Traffic.Started c := Traffic.started_entry (by rw [hen]; rfl)
    exact .inl (.of_proceed hp (spares_of_started hstart) (.starts hen (hclient ▸ hserves)))
  | @claims a e he =>
    refine .inl ?_
    cases a with
    | host =>
      have hs := Steady.of_host (m := m) (.booting { e with claimed := true })
        (by rw [show m.host.errand? = some e from he]; exact .stays) fun ⟨pid, hl⟩ =>
          ⟨pid, .inr ((call?_of_errand? he).trans (hl.resolve_left nofun))⟩
      exact { hs with }
    | task serial =>
      obtain ⟨pid, hp⟩ := post?_of_errand? he
      have hs : Steady m (.task serial)
          (m.proceed serial (.inKernel { e with claimed := true })) := .of_proceed hp rfl .stays
      exact { hs with }
  | turns he haw hp => exact .inr ⟨_, _, _, he, haw, hp, rfl⟩
  | @leaves serial pid e ended act hp hended hleft =>
    have hspares := spares_of_ended hended
    refine .inl (.of_proceed hp ?_ ?_)
    · cases hleft with
      | returns hc | retires hc => simp [Activity.alive, hspares, hc]
    · have hdone : e.call.ended?.isSome = true := by rw [hended]; rfl
      cases hleft <;> exact .ends hdone
  | @reports e ended he hended =>
    have hdone : e.call.ended?.isSome = true := by rw [hended]; rfl
    refine .inl (.of_host (.booted ended) ?_ fun ⟨pid, hl⟩ => ?_)
    · rw [show m.host.errand? = some e from he]
      exact .ends hdone
    · have hreport := hl.resolve_right nofun
      cases hreport
      exact ⟨pid, .inr ((call?_of_errand? he).trans (congrArg some (Call.eq_of_launched hended)))⟩
  | finishes ht hact => exact .inl (.of_finish ht hact)

/-! ## The traffic -/

/-- The operations of `x` that have not ended are the calls of the machine: that of the actor `a`
is operation `ix a`. -/
structure Mirror (x : Traffic) (ix : Actor → Nat) (m : Machine) : Prop where
  kernel : x.kernel = m.kernel
  under : ∀ a c, m.call? a = some c → x.operations[ix a]? = some ⟨c, false⟩
  unended : ∀ i o, x.operations[i]? = some o → o.call.ended? = none →
    ∃ a, m.call? a = some o.call ∧ ix a = i ∧ o.begun = false
  apart : ∀ a b, (m.call? a).isSome = true → (m.call? b).isSome = true → ix a = ix b → a = b

namespace Mirror

variable {x : Traffic} {ix : Actor → Nat} (h : Mirror x ix m)
include h

/-- No call has started, or gone on, or ended. -/
theorem congr (hk : m'.kernel = m.kernel) (hcall : m'.call? = m.call?) : Mirror x ix m' where
  kernel := h.kernel.trans hk.symm
  under := hcall ▸ h.under
  unended := hcall ▸ h.unended
  apart := hcall ▸ h.apart

/-- The end of the call of the actor `a` is taken note of. -/
theorem dismiss (hk : m'.kernel = m.kernel) (hc : m.call? a = some c)
    (hended : c.ended?.isSome = true) (hown : m'.call? a = none)
    (hothers : ∀ b ≠ a, m'.call? b = m.call? b) : Mirror x ix m' := by
  have hsub : ∀ b c', m'.call? b = some c' → m.call? b = some c' := by
    intro b c' hb
    by_cases hba : b = a
    · rw [hba, hown] at hb
      cases hb
    · exact hothers b hba ▸ hb
  have hsome : ∀ b, (m'.call? b).isSome = true → (m.call? b).isSome = true := by
    intro b hb
    obtain ⟨c', hc'⟩ := Option.isSome_iff_exists.1 hb
    rw [hsub b c' hc']
    rfl
  refine ⟨h.kernel.trans hk.symm, fun b c' hb => h.under b c' (hsub b c' hb), fun i o hi ho => ?_,
    fun b b' hb hb' => h.apart b b' (hsome b hb) (hsome b' hb')⟩
  obtain ⟨b, hb, hix, hbegun⟩ := h.unended i o hi ho
  refine ⟨b, ?_, hix, hbegun⟩
  have hba : b ≠ a := by
    rintro rfl
    obtain rfl := Option.some.inj (hc.symm.trans hb)
    rw [ho] at hended
    cases hended
  rw [hothers b hba, hb]

/-- The actor `a` starts a call. -/
theorem add (hk : m'.kernel = m.kernel) (hnone : m.call? a = none) (hown : m'.call? a = some c)
    (hothers : ∀ b ≠ a, m'.call? b = m.call? b) :
    Mirror (x.add ⟨c, false⟩) (Function.update ix a x.operations.length) m' := by
  have hlt : ∀ b, (m.call? b).isSome = true → ix b < x.operations.length := by
    intro b hb
    obtain ⟨c', hc'⟩ := Option.isSome_iff_exists.1 hb
    exact (List.getElem?_eq_some_iff.1 (h.under b c' hc')).1
  refine ⟨h.kernel.trans hk.symm, fun b c' hb => ?_, fun i o hi ho => ?_, fun b b' hb hb' hix => ?_⟩
  · by_cases hba : b = a
    · subst hba
      obtain rfl := Option.some.inj (hown.symm.trans hb)
      rw [Function.update_self]
      exact List.getElem?_concat_length
    · rw [Function.update_of_ne hba]
      exact Traffic.get_add (h.under b c' (hothers b hba ▸ hb))
  · rcases Traffic.add_cases hi with hi | ⟨rfl, rfl⟩
    · obtain ⟨b, hb, rfl, hbegun⟩ := h.unended i o hi ho
      have hba : b ≠ a := by
        rintro rfl
        rw [hnone] at hb
        cases hb
      exact ⟨b, (hothers b hba).trans hb, Function.update_of_ne hba .., hbegun⟩
    · exact ⟨a, hown, Function.update_self .., rfl⟩
  · by_cases hba : b = a <;> by_cases hba' : b' = a
    · rw [hba, hba']
    · rw [hba, Function.update_self, Function.update_of_ne hba'] at hix
      have := hlt b' (hothers b' hba' ▸ hb')
      omega
    · rw [hba', Function.update_self, Function.update_of_ne hba] at hix
      have := hlt b (hothers b hba ▸ hb)
      omega
    · rw [Function.update_of_ne hba, Function.update_of_ne hba'] at hix
      exact h.apart b b' (hothers b hba ▸ hb) (hothers b' hba' ▸ hb') hix

/-- The call of the actor `a` takes a turn. -/
theorem put {k : Kernel} {c' : Call} {permits : TaskId → Bool} {ev : Option Event}
    (hk : m'.kernel = k) (hc : m.call? a = some c) (hown : m'.call? a = some c')
    (hothers : ∀ b ≠ a, m'.call? b = m.call? b) :
    Mirror ((x.put (ix a) k ⟨c', false⟩ ev).withPermits permits) ix m' := by
  have hi := h.under a c hc
  have hsome : ∀ b, (m'.call? b).isSome = true → (m.call? b).isSome = true := by
    intro b hb
    by_cases hba : b = a
    · rw [hba, hc]
      rfl
    · exact hothers b hba ▸ hb
  refine ⟨hk.symm, fun b c'' hb => ?_, fun i o hj ho => ?_,
    fun b b' hb hb' => h.apart b b' (hsome b hb) (hsome b' hb')⟩
  · by_cases hba : b = a
    · subst hba
      obtain rfl := Option.some.inj (hown.symm.trans hb)
      exact Traffic.get_put_self hi
    · have hne : ix b ≠ ix a := fun hix => hba (h.apart b a (hsome b (by rw [hb]; rfl))
        (by rw [hc]; rfl) hix)
      rw [Traffic.get_put_ne hne]
      exact h.under b c'' (hothers b hba ▸ hb)
  · rcases Traffic.put_cases hi hj with ⟨rfl, rfl⟩ | ⟨hne, hj⟩
    · exact ⟨a, hown, rfl, rfl⟩
    · obtain ⟨b, hb, rfl, hbegun⟩ := h.unended i o hj ho
      have hba : b ≠ a := by
        rintro rfl
        exact hne rfl
      exact ⟨b, (hothers b hba).trans hb, rfl, hbegun⟩

end Mirror

/-! ## Turns -/

/-- What happens to an operation happens to the call it has. -/
theorem turn_react (x : Traffic) (i : Nat) (h : c.Awaits stimulus) : ∃ permits ev,
    x.turn i ⟨c, false⟩ stimulus = some ((c.react x.kernel stimulus).2.1,
      (x.put i (c.react x.kernel stimulus).1
        ⟨(c.react x.kernel stimulus).2.2, false⟩ ev).withPermits permits) := by
  cases stimulus with
  | advance =>
    have hs : c.stepsLeft ≠ 0 := h
    exact ⟨_, _, if_neg hs⟩
  | load answer =>
    obtain ⟨order, pid, rfl⟩ := h
    exact ⟨x.permits, none, rfl⟩
  | spawn answer =>
    obtain ⟨order, pid, image, rfl⟩ := h
    exact ⟨x.permits, _, rfl⟩
  | rouse =>
    have hr : c.request? = some .sleep := h
    cases c with
    | join j =>
      obtain ⟨caller, child, task, s⟩ := j
      cases s <;> simp [Call.request?] at hr
      exact ⟨x.permits, none, rfl⟩
    | launch l => cases l <;> cases hr
    | _ => cases hr
  | start | wake => exact h.elim

end Machine

end Lifecycle
