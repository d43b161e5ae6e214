import Lifecycle.Memory.Bytes
import Lifecycle.Proofs.Traffic.Idleness
import Lifecycle.Proofs.Traffic.Runs

/-!
# The root process is created once

Any number of launches of the root process may run side by side, with any other operations. All
that is asked of those is that they are made by processes, and end processes, whose task the
scheduler has created (`Discipline.spawned`). Nothing else is: processes may be ended in the middle
of their own launches, and one process may launch and join in several tasks at once.

A run has two phases.

* `Unfounded`: no task was ever created. Every operation has failed or is the launch of a root
  process, the flag `Kernel.booted` is the claim of one of these, and the table has no record but
  the one it may have reserved.
* `FoundedBy j`: the task of the root process was created for the launch `j`, which succeeds. The
  flag is never taken back, and every other launch of a root process is refused.

`Run.phase` says that there are no others; `Run.root_once` is what follows for the answers.
-/

namespace Lifecycle

/-! ## What is asked of the other operations -/

/-- The process of a launch whose task the scheduler has created. From then on it cannot answer that
it failed. -/
def Operation.spawned? (o : Operation) : Option Pid :=
  match o.call with
  | .launch (.spawning _ pid _) => if o.begun then some pid else none
  | .launch (.finished (.ok pid)) => some pid
  | _ => none

/-- The scheduler has created a task for a process with the number `p`. -/
def Traffic.Spawned (x : Traffic) (p : Pid) : Prop := ∃ o ∈ x.operations, o.spawned? = some p

instance (x : Traffic) (p : Pid) : Decidable (x.Spawned p) :=
  inferInstanceAs (Decidable (∃ o ∈ x.operations, o.spawned? = some p))

/-- The callers of launches and joins, and the processes that are ended, have a task. -/
def Discipline.spawned : Discipline where
  admits x o := (∀ p ∈ o.client?, x.Spawned p) ∧ ∀ p ∈ o.target?, x.Spawned p
  allows _ _ := True
  decAdmits _ _ := inferInstance
  decAllows _ _ := inferInstance

/-- The first PID is that of the root process. -/
theorem Table.Vacant.alloc {t : Table} (h : t.Vacant) :
    ∃ pids, t.pids.alloc = some (.root, pids) := by
  have hle : t.pids.next ≤ t.pids.range.largest := by
    rw [h.next]
    exact UInt32.le_iff_toNat_le.2 (Nat.zero_le _)
  refine ⟨{ t.pids with next := t.pids.next + 1 }, ?_⟩
  rw [PidAllocator.alloc, if_pos hle, h.next]
  rfl

namespace Traffic

variable {x y : Traffic} {i j : Nat} {o o' q : Operation} {l : Launch} {k' : Kernel}
  {permits : TaskId → Bool} {e : Option Event} {c : Call} {stimulus : Stimulus}
  {effects : List Effect} {μ : Type} {a : Action μ} {steps : List (Step μ)} {s : Step μ}
  {config : Config} {range : PidRange}

/-- Operation `i` was started as the launch of a root process. -/
def BootCall (steps : List (Step μ)) (i : Nat) : Prop :=
  ∃ s ∈ steps, ∃ name, s.action = .invoke (.boot name) ∧ s.before.operations.length = i

/-- Operation `i` is the launch of a root process that holds the flag. -/
def Rooting (x : Traffic) (i : Nat) : Prop := ∃ o, x.operations[i]? = some o ∧ o.boots = true

/-- Operation `i` is a launch that has ended with `result`. -/
def Answered (x : Traffic) (i : Nat) (result : Except ProcessError Pid) : Prop :=
  ∃ o, x.operations[i]? = some o ∧ o.call.ended? = some (.launched result)

/-! ## The calls of the two phases -/

/-- A launch of a root process that does not hold the flag: it has not asked for it yet, or it has
failed. -/
inductive Apart : Call → Prop where
  | booting {name : String} : Apart (.launch (.booting name))
  | failed {e : ProcessError} : Apart (.launch (.finished (.error e)))

/-- A launch of a root process that asks for the flag, or holds it. -/
def Asks (o : Operation) : Prop := o.boots = true ∨ ∃ name, o.call = .launch (.booting name)

/-- What the calls are while no task was ever created. -/
inductive Aloof : Call → Prop where
  | apart {c : Call} : Apart c → Aloof c
  | holding {l : Launch} : l.boots = true → Aloof (.launch l)
  | halt {h : HaltRequest} : Aloof (.halt h)

/-- The launch that creates the root process, from the time when its task exists. -/
inductive Founds : Operation → Prop where
  | spawning {order : Order} {image : LoadedImage} : order.parent = none →
      Founds ⟨.launch (.spawning order .root image), true⟩
  | finished {b : Bool} : Founds ⟨.launch (.finished (.ok .root)), b⟩

theorem Apart.not_launched (h : Apart c) (p : Pid) : c.ended? ≠ some (.launched (.ok p)) := by
  cases h <;> nofun

theorem ended?_of_boots (h : o.boots = true) : o.call.ended? = none := by
  obtain ⟨c, b⟩ := o
  cases c with
  | launch l =>
    cases l with
    | finished result => cases h
    | crashed fault => cases h
    | _ => rfl
  | _ => cases h

theorem Aloof.client? (h : Aloof c) (b : Bool) : Operation.client? ⟨c, b⟩ = none := by
  cases h with
  | apart h => cases h <;> rfl
  | holding hl => exact client?_of_boots hl
  | halt => rfl

theorem Aloof.subject? (h : Aloof c) (b : Bool) : Operation.subject? ⟨c, b⟩ = none := by
  cases h with
  | apart h => cases h <;> rfl
  | @holding l hl =>
    cases l with
    | reserving order => exact Option.isNone_iff_eq_none.1 hl
    | _ => rfl
  | halt => rfl

theorem Aloof.spawned? (h : Aloof c) : Operation.spawned? ⟨c, false⟩ = none := by
  cases h with
  | apart h => cases h <;> rfl
  | @holding l hl =>
    cases l with
    | finished result => cases hl
    | _ => rfl
  | halt => rfl

/-- Without a process there is nobody to start anything else. -/
theorem Started.aloof (hc : Started c) (hn : ∀ p, ¬ x.Spawned p)
    (ha : Discipline.spawned.admits x ⟨c, false⟩) : Aloof c := by
  cases hc with
  | unfit => exact .apart .failed
  | boot => exact .apart .booting
  | exec => exact absurd (ha.1 _ rfl) (hn _)
  | join => exact absurd (ha.1 _ rfl) (hn _)
  | terminate => exact absurd (ha.2 _ rfl) (hn _)
  | halt => exact .halt

theorem Aloof.boots (h : Aloof (.launch l)) (hn : ¬ Apart (.launch l)) : l.boots = true := by
  cases h with
  | apart h => exact absurd h hn
  | holding hl => exact hl

theorem aloof_of_boots (h : o.boots = true) : Aloof o.call := by
  obtain ⟨c, b⟩ := o
  cases c with
  | launch l => exact .holding h
  | _ => cases h

/-! ## No task yet -/

/-- No task was ever created (module doc). -/
structure Unfounded (steps : List (Step μ)) (x : Traffic) : Prop where
  consistent : x.Consistent
  aloof : ∀ (i : Nat) (o : Operation), x.operations[i]? = some o →
    o.begun = false ∧ Aloof o.call
  held : x.kernel.booted = true → ∃ i, x.Rooting i
  called : ∀ (i : Nat) (o : Operation), x.operations[i]? = some o → Asks o → BootCall steps i
  boot : ∀ (i : Nat), BootCall steps i →
    ∃ o, x.operations[i]? = some o ∧ (Apart o.call ∨ o.boots = true)

/-- The task of the root process was created for operation `j` (module doc). -/
structure FoundedBy (steps : List (Step μ)) (x : Traffic) (j : Nat) : Prop where
  booted : x.kernel.booted = true
  call : BootCall steps j
  founder : ∃ o, x.operations[j]? = some o ∧ Founds o
  others : ∀ (i : Nat) (o : Operation), x.operations[i]? = some o → o.boots = true → i = j
  apart : ∀ (i : Nat), BootCall steps i → i ≠ j → ∃ o, x.operations[i]? = some o ∧ Apart o.call

theorem bootCall_cons :
    BootCall (s :: steps) i ↔
      (∃ name, s.action = .invoke (.boot name) ∧ s.before.operations.length = i) ∨
        BootCall steps i := by
  simp only [BootCall, List.mem_cons, exists_eq_or_imp]

theorem bootCall_rest (hs : ∀ name, s.action ≠ .invoke (.boot name)) :
    BootCall (s :: steps) i ↔ BootCall steps i :=
  bootCall_cons.trans (or_iff_right fun ⟨name, h, _⟩ => hs name h)

theorem unfounded_new (config : Config) (range : PidRange) :
    Unfounded ([] : List (Step μ)) (new config range) where
  consistent := consistent_new config range
  aloof := fun _ _ h => nomatch h
  held := fun h => nomatch h
  called := fun _ _ h => nomatch h
  boot := fun _ ⟨_, h, _⟩ => nomatch h

namespace Unfounded

variable (hx : Unfounded steps x)
include hx

theorem not_spawned (p : Pid) : ¬ x.Spawned p := by
  rintro ⟨o, hm, ho⟩
  obtain ⟨i, hi⟩ := List.mem_iff_getElem?.1 hm
  obtain ⟨hb, ha⟩ := hx.aloof i o hi
  obtain ⟨c, b⟩ := o
  obtain rfl : b = false := hb
  rw [ha.spawned?] at ho
  cases ho

theorem allows (hi : x.operations[i]? = some o) : Discipline.orderly.allows x o := by
  intro p hp
  rw [(hx.aloof i o hi).2.subject? o.begun] at hp
  cases hp

theorem rest (hs : ∀ name, s.action ≠ .invoke (.boot name)) : Unfounded (s :: steps) x where
  consistent := hx.consistent
  aloof := hx.aloof
  held := hx.held
  called i o hi ho := (bootCall_rest hs).2 (hx.called i o hi ho)
  boot i hc := hx.boot i ((bootCall_rest hs).1 hc)

/-- A new operation that is a launch of a root process exactly if it was called as one. -/
theorem add (hc : Started c) (ha : Discipline.spawned.admits x ⟨c, false⟩) (hs : s.before = x)
    (hboot : (∃ name, c = .launch (.booting name)) → ∃ name, s.action = .invoke (.boot name))
    (hapart : (∃ name, s.action = .invoke (.boot name)) → Apart c) :
    Unfounded (s :: steps) (x.add ⟨c, false⟩) := by
  have hal := hc.aloof hx.not_spawned ha
  have hnew : (x.add ⟨c, false⟩).operations[x.operations.length]? = some ⟨c, false⟩ :=
    List.getElem?_concat_length
  refine ⟨hx.consistent.add hc ?_, fun i o hi => ?_, fun hb => ?_, fun i o hi ho => ?_,
    fun i hi => ?_⟩
  · intro p hp
    rw [hal.client?] at hp
    cases hp
  · rcases add_cases hi with hi | ⟨-, rfl⟩
    · exact hx.aloof i o hi
    · exact ⟨rfl, hal⟩
  · obtain ⟨i, o, hi, ho⟩ := hx.held hb
    exact ⟨i, o, get_add hi, ho⟩
  · rcases add_cases hi with hi | ⟨rfl, rfl⟩
    · exact bootCall_cons.2 (.inr (hx.called i o hi ho))
    · rcases ho with ho | ho
      · rw [hc.views.2.1] at ho
        cases ho
      · obtain ⟨name, hn⟩ := hboot ho
        exact bootCall_cons.2 (.inl ⟨name, hn, by rw [hs]⟩)
  · rcases bootCall_cons.1 hi with ⟨name, hn, rfl⟩ | hi
    · rw [hs]
      exact ⟨_, hnew, .inl (hapart ⟨name, hn⟩)⟩
    · obtain ⟨o, ho, h⟩ := hx.boot i hi
      exact ⟨o, get_add ho, h⟩

/-- A turn in which no task is created. -/
theorem put (hi : x.operations[i]? = some o) (ht : Turn x i o k' o' permits e)
    (hs : ∀ name, s.action ≠ .invoke (.boot name)) (hb : o'.begun = false) (hal : Aloof o'.call)
    (hheld : k'.booted = true → o'.boots = true ∨ (x.kernel.booted = true ∧ o.boots = false))
    (hcalled : Asks o' → Asks o)
    (hboot : Apart o.call ∨ o.boots = true → Apart o'.call ∨ o'.boots = true) :
    Unfounded (s :: steps) ((x.put i k' o' e).withPermits permits) := by
  have hself : ((x.put i k' o' e).withPermits permits).operations[i]? = some o' := get_put_self hi
  refine ⟨hx.consistent.put hi (hx.allows hi) ht, fun j q hj => ?_, fun hk => ?_,
    fun j q hj hq => ?_, fun j hj => ?_⟩
  · rcases put_cases hi hj with ⟨-, rfl⟩ | ⟨-, hj⟩
    · exact ⟨hb, hal⟩
    · exact hx.aloof j q hj
  · rcases hheld hk with ho | ⟨hk, ho⟩
    · exact ⟨i, o', hself, ho⟩
    · obtain ⟨j, q, hj, hq⟩ := hx.held hk
      refine ⟨j, q, (get_put_ne fun eq => ?_).trans hj, hq⟩
      subst eq
      rw [hi] at hj
      cases hj
      rw [ho] at hq
      cases hq
  · rcases put_cases hi hj with ⟨rfl, rfl⟩ | ⟨-, hj⟩
    · exact (bootCall_rest hs).2 (hx.called j o hi (hcalled hq))
    · exact (bootCall_rest hs).2 (hx.called j q hj hq)
  · obtain ⟨q, hq, h⟩ := hx.boot j ((bootCall_rest hs).1 hj)
    rcases get_put_cases k' o' permits e hi hq with ⟨rfl, rfl, hj'⟩ | ⟨-, hj'⟩
    · exact ⟨o', hj', hboot h⟩
    · exact ⟨q, hj', h⟩

/-- The turn in which the task of the root process is created. -/
theorem found (hi : x.operations[i]? = some o) (hs : ∀ name, s.action ≠ .invoke (.boot name))
    (ho : o.boots = true) (hf : Founds o') :
    FoundedBy (s :: steps) ((x.put i x.kernel o' e).withPermits permits) i := by
  have hcall := hx.called i o hi (.inl ho)
  refine ⟨(hx.consistent.booting i o hi ho).booted, (bootCall_rest hs).2 hcall,
    ⟨o', get_put_self hi, hf⟩, fun j q hj hq => ?_, fun j hj ne => ?_⟩
  · rcases put_cases hi hj with ⟨rfl, -⟩ | ⟨-, hj⟩
    · rfl
    · exact hx.consistent.single j i q o hj hi hq ho
  · obtain ⟨q, hq, h⟩ := hx.boot j ((bootCall_rest hs).1 hj)
    refine ⟨q, (get_put_ne ne).trans hq, h.resolve_right fun hb => ?_⟩
    exact ne (hx.consistent.single j i q o hq hi hb ho)

/-- A turn with which a launch of a root process takes the flag, or after which it still has
it. -/
theorem holds (hi : x.operations[i]? = some o) (ht : Turn x i o k' o' permits e)
    (hs : ∀ name, s.action ≠ .invoke (.boot name)) (hb : o'.begun = false) (ho : Asks o)
    (ho' : o'.boots = true) : Unfounded (s :: steps) ((x.put i k' o' e).withPermits permits) :=
  hx.put hi ht hs hb (aloof_of_boots ho') (fun _ => .inl ho') (fun _ => ho) fun _ => .inr ho'

/-- A turn with which a launch of a root process fails. It has given the flag back if it had
it. -/
theorem fails {b : Bool} {cause : ProcessError} (hi : x.operations[i]? = some o)
    (ht : Turn x i o k' ⟨.launch (.finished (.error cause)), b⟩ permits e)
    (hs : ∀ name, s.action ≠ .invoke (.boot name)) (hb : b = false)
    (hk : k'.booted = true → x.kernel.booted = true ∧ o.boots = false) :
    Unfounded (s :: steps)
      ((x.put i k' ⟨.launch (.finished (.error cause)), b⟩ e).withPermits permits) :=
  hx.put hi ht hs hb (.apart .failed) (fun h => .inr (hk h))
    (fun h => h.elim (fun h => nomatch h) fun ⟨_, h⟩ => nomatch h) fun _ => .inl .failed

/-- A turn: no task was created, or the one of the root process. -/
theorem turn (hi : x.operations[i]? = some o) (ht : Turn x i o k' o' permits e)
    (hs : ∀ name, s.action ≠ .invoke (.boot name)) :
    Unfounded (s :: steps) ((x.put i k' o' e).withPermits permits) ∨
      FoundedBy (s :: steps) ((x.put i k' o' e).withPermits permits) i := by
  obtain ⟨hb, hal⟩ := hx.aloof i o hi
  have ht₀ := ht
  cases ht with
  | quiet hm =>
    cases hm with
    | declined => exact .inl (hx.fails hi ht₀ hs hb fun h => ⟨h, rfl⟩)
    | @refused order b cause =>
      have ho := hal.boots nofun
      exact .inl (hx.holds hi ht₀ hs hb (.inl ho) ((views_abandon order cause b).2.2.2.1.trans ho))
    | @abandoned order r cause b =>
      have ho := hal.boots nofun
      exact .inl (hx.holds hi ht₀ hs hb (.inl ho) ((views_abandon order cause b).2.2.2.1.trans ho))
    | loaded | unloaded | unspawned =>
      have ho := hal.boots nofun
      exact .inl (hx.holds hi ht₀ hs hb (.inl ho) ho)
    | halted =>
      exact .inl (hx.put hi ht₀ hs hb .halt (fun h => .inr ⟨h, rfl⟩)
        (fun h => h.elim (fun h => nomatch h) fun ⟨_, h⟩ => nomatch h)
        fun h => h.elim (fun h => nomatch h) fun h => nomatch h)
    | _ => cases hal with | apart h => cases h
  | claimed => exact .inl (hx.holds hi ht₀ hs hb (.inr ⟨_, rfl⟩) rfl)
  | cleared => exact .inl (hx.fails hi ht₀ hs hb fun h => nomatch h)
  | reserved | stored | undone =>
    have ho := hal.boots nofun
    exact .inl (hx.holds hi ht₀ hs hb (.inl ho) ho)
  | created =>
    have ho := hal.boots nofun
    obtain rfl := (hx.consistent.booting i _ hi ho).root _ rfl
    exact .inr (hx.found hi hs ho (.spawning (Option.isNone_iff_eq_none.1 ho)))
  | launched =>
    have ho := hal.boots nofun
    obtain rfl := (hx.consistent.booting i _ hi ho).root _ rfl
    exact .inr (hx.found hi hs ho .finished)
  | _ => cases hal with | apart h => cases h

end Unfounded

/-! ## The root process exists -/

/-- How a launch of a root process ends that finds the flag set. -/
def refusal : Except ProcessError Pid := .error (.invalidArgument "root process already exists")

/-- While the flag is set no other operation takes it or gives it back. -/
theorem booted_step {kernel : Kernel} (hb : kernel.booted = true) (ho : o.boots = false) :
    (o.call.step kernel).1.booted = true ∧
      Operation.boots { o with call := (o.call.step kernel).2.2 } = false := by
  obtain ⟨c, b⟩ := o
  cases c with
  | launch l =>
    have habandon : ∀ order : Order, order.parent.isNone = false → ∀ cause,
        Operation.boots ⟨.launch (.abandon order cause), b⟩ = false :=
      fun order h cause => (views_abandon order cause b).2.2.2.1.trans h
    cases l with
    | booting name =>
      simp only [Call.step, Launch.step, if_pos hb]
      exact ⟨hb, rfl⟩
    | reserving order =>
      simp only [Call.step, Launch.step]
      split
      · exact ⟨hb, ho⟩
      · exact ⟨hb, habandon order ho _⟩
      · exact ⟨hb, rfl⟩
    | storing order pid image =>
      simp only [Call.step, Launch.step]
      split
      · exact ⟨hb, rfl⟩
      · exact ⟨hb, ho⟩
    | undoing order pid cause =>
      simp only [Call.step, Launch.step]
      split
      · exact ⟨hb, rfl⟩
      · exact ⟨hb, ho⟩
      · exact ⟨hb, rfl⟩
    | discarding order r cause => exact ⟨hb, habandon order ho cause⟩
    | clearing cause => cases ho
    | _ => exact ⟨hb, ho⟩
  | join j =>
    obtain ⟨caller, child, task, stage⟩ := j
    cases stage with
    | checking =>
      simp only [Call.step, Join.step]
      split <;> exact ⟨hb, rfl⟩
    | _ => exact ⟨hb, rfl⟩
  | terminate t =>
    obtain ⟨pid, status, stage⟩ := t
    cases stage with
    | departing =>
      simp only [Call.step, Termination.step]
      split <;> exact ⟨hb, rfl⟩
    | _ => exact ⟨hb, rfl⟩
  | halt h => exact ⟨hb, rfl⟩

theorem turn_booted (h : x.turn i o stimulus = some (effects, y)) (hb : x.kernel.booted = true)
    (ho : o.boots = false) :
    ∃ k' o' permits e, y = (x.put i k' o' e).withPermits permits ∧ k'.booted = true ∧
      o'.boots = false := by
  cases turn_iff.1 h with
  | advance =>
    obtain ⟨hk, ho'⟩ := booted_step hb ho
    exact ⟨_, _, _, _, rfl, hk, ho'⟩
  | load answer =>
    refine ⟨_, _, _, _, rfl, hb, ?_⟩
    cases answer <;> exact ho
  | start => exact ⟨_, _, _, _, rfl, hb, ho⟩
  | @spawn order _ _ _ answer =>
    refine ⟨_, _, _, _, rfl, hb, ?_⟩
    cases answer with
    | error e => exact ho
    | ok _ =>
      have hp : order.parent.isNone = false := ho
      simp [Launch.spawned, hp, Operation.boots, Launch.boots, Launch.order?]
  | wake | rouse => exact ⟨_, _, _, _, rfl, hb, rfl⟩

theorem advance_booting {name : String} {b : Bool} (i : Nat) (hb : x.kernel.booted = true) :
    x.advance i ⟨.launch (.booting name), b⟩ =
      ([], x.put i x.kernel ⟨.launch (.finished refusal), b⟩ none) := by
  simp only [advance, Call.step, Launch.step, if_pos hb]
  rfl

/-- While the flag is set, the only turn of a launch that has not asked for it is its refusal. -/
theorem turn_booting {name : String} {b : Bool} (hb : x.kernel.booted = true)
    (h : x.turn i ⟨.launch (.booting name), b⟩ stimulus = some (effects, y)) :
    stimulus = .advance ∧ effects = [] ∧
      y = x.put i x.kernel ⟨.launch (.finished refusal), b⟩ none := by
  cases turn_iff.1 h with
  | advance =>
    rw [advance_booting i hb]
    exact ⟨rfl, rfl, rfl⟩

theorem turn_apart (ho : Apart o.call) (hb : x.kernel.booted = true)
    (h : x.turn i o stimulus = some (effects, y)) :
    ∃ o', Apart o'.call ∧ y = x.put i x.kernel o' none := by
  obtain ⟨c, b⟩ := o
  cases ho with
  | booting => exact ⟨_, .failed, (turn_booting hb h).2.2⟩
  | failed => cases stimulus <;> cases h

/-- The launch whose task exists succeeds. -/
theorem turn_founds (ho : Founds o) (h : x.turn i o stimulus = some (effects, y)) :
    ∃ o' e, Founds o' ∧ y = x.put i x.kernel o' e := by
  cases ho with
  | @spawning order image hp =>
    cases turn_iff.1 h with
    | advance hs => exact absurd rfl hs
    | start => exact ⟨_, _, .spawning hp, rfl⟩
    | @spawn _ _ _ _ answer hok =>
      cases answer with
      | error e => cases hok
      | ok _ =>
        simp only [Launch.spawned, hp]
        exact ⟨_, _, .finished, rfl⟩
  | finished => cases stimulus <;> cases h

namespace FoundedBy

variable (hx : FoundedBy steps x j)
include hx

theorem rest (hs : ∀ name, s.action ≠ .invoke (.boot name)) : FoundedBy (s :: steps) x j where
  booted := hx.booted
  call := (bootCall_rest hs).2 hx.call
  founder := hx.founder
  others := hx.others
  apart i hi ne := hx.apart i ((bootCall_rest hs).1 hi) ne

theorem add (hc : Started c) (hs : s.before = x)
    (hapart : (∃ name, s.action = .invoke (.boot name)) → Apart c) :
    FoundedBy (s :: steps) (x.add ⟨c, false⟩) j where
  booted := hx.booted
  call := bootCall_cons.2 (.inr hx.call)
  founder :=
    have ⟨o, ho, hf⟩ := hx.founder
    ⟨o, get_add ho, hf⟩
  others i o hi ho := by
    rcases add_cases hi with hi | ⟨-, rfl⟩
    · exact hx.others i o hi ho
    · rw [hc.views.2.1] at ho
      cases ho
  apart i hi ne := by
    rcases bootCall_cons.1 hi with ⟨name, hn, rfl⟩ | hi
    · rw [hs]
      exact ⟨_, List.getElem?_concat_length, hapart ⟨name, hn⟩⟩
    · obtain ⟨o, ho, h⟩ := hx.apart i hi ne
      exact ⟨o, get_add ho, h⟩

theorem put (hi : x.operations[i]? = some o) (hs : ∀ name, s.action ≠ .invoke (.boot name))
    (hk : k'.booted = true) (hself : i = j → Founds o') (hother : i ≠ j → o'.boots = false)
    (hapart : i ≠ j → Apart o.call → Apart o'.call) :
    FoundedBy (s :: steps) ((x.put i k' o' e).withPermits permits) j where
  booted := hk
  call := (bootCall_rest hs).2 hx.call
  founder := by
    obtain ⟨q, hq, hf⟩ := hx.founder
    rcases get_put_cases k' o' permits e hi hq with ⟨rfl, -, hj⟩ | ⟨-, hj⟩
    · exact ⟨o', hj, hself rfl⟩
    · exact ⟨q, hj, hf⟩
  others l q hl hq := by
    rcases put_cases hi hl with ⟨rfl, rfl⟩ | ⟨-, hl⟩
    · refine Classical.byContradiction fun ne => ?_
      rw [hother ne] at hq
      cases hq
    · exact hx.others l q hl hq
  apart l hl ne := by
    obtain ⟨q, hq, h⟩ := hx.apart l ((bootCall_rest hs).1 hl) ne
    rcases get_put_cases k' o' permits e hi hq with ⟨rfl, rfl, hl'⟩ | ⟨-, hl'⟩
    · exact ⟨o', hl', hapart ne h⟩
    · exact ⟨q, hl', h⟩

theorem turn (hi : x.operations[i]? = some o) (hs : ∀ name, s.action ≠ .invoke (.boot name))
    (h : x.turn i o stimulus = some (effects, y)) : FoundedBy (s :: steps) y j := by
  by_cases eq : i = j
  · subst eq
    obtain ⟨q, hq, hf⟩ := hx.founder
    obtain rfl := Option.some.inj (hi.symm.trans hq)
    obtain ⟨o', e, hf', rfl⟩ := turn_founds hf h
    exact hx.put hi hs hx.booted (fun _ => hf') (absurd rfl) (absurd rfl)
  · have hb : o.boots = false := Bool.eq_false_iff.2 fun hb => eq (hx.others i o hi hb)
    obtain ⟨k', o', permits, e, rfl, hk, ho'⟩ := turn_booted h hx.booted hb
    refine hx.put hi hs hk (fun h => absurd h eq) (fun _ => ho') fun _ ha => ?_
    obtain ⟨o₁, ha₁, h₁⟩ := turn_apart ha hx.booted h
    have hget : ((x.put i k' o' e).withPermits permits).operations[i]? = some o₁ := by
      rw [h₁]
      exact get_put_self hi
    obtain rfl := Option.some.inj (hget.symm.trans (get_put_self hi))
    exact ha₁

end FoundedBy

/-! ## Every run -/

theorem Unfounded.not_answered {p : Pid} (hx : Unfounded steps x) (hi : BootCall steps i) :
    ¬ x.Answered i (.ok p) := by
  rintro ⟨o, ho, he⟩
  obtain ⟨q, hq, h⟩ := hx.boot i hi
  obtain rfl := Option.some.inj (ho.symm.trans hq)
  rcases h with h | h
  · exact h.not_launched p he
  · rw [ended?_of_boots h] at he
    cases he

theorem FoundedBy.answered {p : Pid} (hx : FoundedBy steps x j) (hi : BootCall steps i)
    (ha : x.Answered i (.ok p)) : i = j ∧ p = .root := by
  obtain ⟨o, ho, he⟩ := ha
  have eq : i = j := by
    refine Classical.byContradiction fun ne => ?_
    obtain ⟨q, hq, h⟩ := hx.apart i hi ne
    obtain rfl := Option.some.inj (ho.symm.trans hq)
    exact h.not_launched p he
  subst eq
  obtain ⟨q, hq, hf⟩ := hx.founder
  obtain rfl := Option.some.inj (ho.symm.trans hq)
  cases hf with
  | spawning => cases he
  | finished => cases he; exact ⟨rfl, rfl⟩

/-- An entry point other than `boot`. -/
theorem not_boot {invocation : Invocation μ} (hn : ∀ name, invocation ≠ .boot name)
    (name : String) : Action.invoke invocation ≠ .invoke (.boot name) :=
  fun h => hn name (by cases h; rfl)

variable [UserMemory μ]

/-- Nothing but a call for it starts the launch of a root process. -/
theorem entry_booting {invocation : Invocation μ} {kernel : Kernel} {name : String}
    (h : (invocation.entry kernel).2.call? = some (.launch (.booting name))) :
    ∃ n, invocation = .boot n := by
  have hexec : ∀ caller n argc, Call.exec kernel caller n argc ≠ .launch (.booting name) := by
    intro caller n argc
    unfold Call.exec Launch.exec
    split
    · nofun
    · split <;> nofun
  cases invocation with
  | boot n => exact ⟨n, rfl⟩
  | exec caller n argc => exact absurd (Option.some.inj h) (hexec caller n argc)
  | trap caller task r memory =>
    simp only [Invocation.entry, Kernel.enter] at h
    split at h
    · cases h
    · next call _ =>
      cases call with
      | exec =>
        simp only [Kernel.call] at h
        split at h
        · cases h
        · exact absurd (Option.some.inj h) (hexec _ _ _)
      | join =>
        simp only [Kernel.call] at h
        split at h <;> cases h
      | _ => cases h
  | _ => cases h

theorem apart_boot (kernel : Kernel) (name : String) : Apart (.boot kernel name) := by
  unfold Call.boot Launch.boot
  split
  · exact .failed
  · exact .booting

theorem Unfounded.act (hx : Unfounded steps x) (hp : Discipline.spawned.Permits x a)
    (ha : x.act a = some (effects, y)) :
    Unfounded (⟨x, a, effects, y⟩ :: steps) y ∨
      ∃ j, FoundedBy (⟨x, a, effects, y⟩ :: steps) y j := by
  cases a with
  | invoke invocation =>
    refine .inl ?_
    by_cases hb : ∃ name, invocation = .boot name
    · obtain ⟨name, rfl⟩ := hb
      cases ha
      exact hx.add (started_boot _ _) (hp _ rfl) rfl (fun _ => ⟨name, rfl⟩)
        fun _ => apart_boot _ _
    · have hn := not_boot fun name h => hb ⟨name, h⟩
      rcases (act_invoke ha).2 with rfl | ⟨c, hc, rfl⟩
      · exact hx.rest hn
      · refine hx.add (started_entry hc) (hp c hc) rfl ?_ fun ⟨name, h⟩ => absurd h (hn name)
        rintro ⟨name, rfl⟩
        exact absurd (entry_booting hc) hb
  | turn i stimulus =>
    obtain ⟨o, hi, ho⟩ := Option.bind_eq_some_iff.1 ha
    obtain ⟨k', o', permits, e, ht, rfl⟩ := hx.consistent.turn hi ho
    refine Or.imp_right (fun h => ⟨i, h⟩) (hx.turn hi ht ?_)
    exact fun _ h => nomatch h

theorem FoundedBy.act (hx : FoundedBy steps x j) (ha : x.act a = some (effects, y)) :
    FoundedBy (⟨x, a, effects, y⟩ :: steps) y j := by
  cases a with
  | invoke invocation =>
    by_cases hb : ∃ name, invocation = .boot name
    · obtain ⟨name, rfl⟩ := hb
      cases ha
      exact hx.add (started_boot _ _) rfl fun _ => apart_boot _ _
    · have hn := not_boot fun name h => hb ⟨name, h⟩
      rcases (act_invoke ha).2 with rfl | ⟨c, hc, rfl⟩
      · exact hx.rest hn
      · exact hx.add (started_entry hc) rfl fun ⟨name, h⟩ => absurd h (hn name)
  | turn i stimulus =>
    obtain ⟨o, hi, ho⟩ := Option.bind_eq_some_iff.1 ha
    exact hx.turn hi (fun _ h => nomatch h) ho

/-- A run is in one of the two phases. -/
theorem Run.phase (h : Run μ .spawned config range steps x) :
    Unfounded steps x ∨ ∃ j, FoundedBy steps x j := by
  induction h with
  | start => exact .inl (unfounded_new config range)
  | act _ hp ha ih =>
    rcases ih with hx | ⟨j, hx⟩
    · exact hx.act hp ha
    · exact .inr ⟨j, hx.act ha⟩

variable (μ) in
/-- Operation `i` has failed, or nothing can happen to it but its refusal, which leaves the kernel
as it is. -/
def Refused (x : Traffic) (i : Nat) : Prop :=
  (∃ e, x.Answered i (.error e)) ∨
    ∃ name b, x.operations[i]? = some ⟨.launch (.booting name), b⟩ ∧
      ∀ stimulus r, x.act (.turn i stimulus : Action μ) = some r ↔
        stimulus = .advance ∧ r = ([], x.put i x.kernel ⟨.launch (.finished refusal), b⟩ none)

theorem refused_of_apart (hi : x.operations[i]? = some o) (ho : Apart o.call)
    (hb : x.kernel.booted = true) : x.Refused μ i := by
  obtain ⟨c, b⟩ := o
  cases ho with
  | @booting name =>
    refine .inr ⟨name, b, hi, fun stimulus r => ⟨fun h => ?_, ?_⟩⟩
    · obtain ⟨rfl, he, hy⟩ := turn_booting hb (turn_of_act hi h)
      exact ⟨rfl, Prod.ext he hy⟩
    · rintro ⟨rfl, rfl⟩
      rw [act_advance hi (fun h => nomatch h), advance_booting i hb]
  | @failed e => exact .inl ⟨e, _, hi, rfl⟩

/-- Of the launches of a root process one at most succeeds, with the first PID. While one holds the
flag and after one has succeeded, every other one fails without a look at the table. As long as
none has succeeded and none holds the flag, the table is empty, and the first PID is the next. -/
theorem Run.root_once (h : Run μ .spawned config range steps x) :
    (∀ i j p q, BootCall steps i → BootCall steps j → x.Answered i (.ok p) →
      x.Answered j (.ok q) → i = j ∧ p = .root) ∧
    (∀ i j, BootCall steps i → BootCall steps j → i ≠ j →
      (x.Rooting j ∨ ∃ p, x.Answered j (.ok p)) → x.Refused μ i) ∧
    ((∀ j, BootCall steps j → ¬ x.Rooting j ∧ ∀ p, ¬ x.Answered j (.ok p)) →
      x.kernel.table.Vacant ∧ ∃ pids, x.kernel.table.pids.alloc = some (.root, pids)) := by
  rcases h.phase with hx | ⟨j₀, hx⟩
  · refine ⟨fun i j p q hi _ ha => absurd ha (hx.not_answered hi), fun i j hi hj ne h => ?_,
      fun hn => ?_⟩
    · obtain ⟨q, hq, hb⟩ := h.resolve_right fun ⟨p, hp⟩ => hx.not_answered hj hp
      obtain ⟨o, ho, h⟩ := hx.boot i hi
      refine refused_of_apart ho (h.resolve_right fun hb' => ?_)
        (hx.consistent.booting j q hq hb).booted
      exact ne (hx.consistent.single i j o q ho hq hb' hb)
    · have hb : x.kernel.booted = false := by
        refine Bool.eq_false_iff.2 fun hb => ?_
        obtain ⟨i, o, ho, hob⟩ := hx.held hb
        exact (hn i (hx.called i o ho (.inl hob))).1 ⟨o, ho, hob⟩
      have hv := hx.consistent.vacant hb
      exact ⟨hv, hv.alloc⟩
  · refine ⟨fun i j p q hi hj ha ha' => ?_, fun i j hi hj ne h => ?_, fun hn => ?_⟩
    · obtain ⟨rfl, rfl⟩ := hx.answered hi ha
      exact ⟨(hx.answered hj ha').1.symm, rfl⟩
    · have eq : j = j₀ := by
        rcases h with ⟨q, hq, hb⟩ | ⟨p, hp⟩
        · exact hx.others j q hq hb
        · exact (hx.answered hj hp).1
      obtain ⟨o, ho, ha⟩ := hx.apart i hi (eq ▸ ne)
      exact refused_of_apart ho ha hx.booted
    · obtain ⟨o, ho, hf⟩ := hx.founder
      obtain ⟨hr, ha⟩ := hn j₀ hx.call
      cases hf with
      | @spawning order image hp =>
        refine absurd ⟨_, ho, ?_⟩ hr
        simp [Operation.boots, Launch.boots, Launch.order?, hp]
      | finished => exact absurd ⟨_, ho, rfl⟩ (ha .root)

/-- A launch of a root process fails in the loader, and another one is refused meanwhile. -/
def failedRoot : List (Action Bytes) :=
  [.invoke (.boot "init"), .turn 0 .advance, .invoke (.boot "shell"), .turn 0 .advance,
    .turn 1 .advance, .turn 0 (.load (.error (.malformed ""))), .turn 0 .advance, .turn 0 .advance,
    .turn 0 .advance]

/-- A third one succeeds, and a fourth one has not asked for the flag yet. -/
def retriedRoot : List (Action Bytes) :=
  failedRoot ++ List.flatten [[.invoke (.boot "init"), .turn 2 .advance], launching 2,
    [.invoke (.exec .root "child" 0), .invoke (.boot "init")]]

theorem retriedRoot_once :
    let x := (new { suffix := none } .standard).after .spawned failedRoot
    let y := (new { suffix := none } .standard).after .spawned retriedRoot
    (∃ pids, x.kernel.table.pids.alloc = some (.root, pids)) ∧ y.Answered 2 (.ok .root) ∧
      (∃ name, y.operations[4]? = some ⟨.launch (.booting name), false⟩) ∧ y.Refused Bytes 4 := by
  have init : Run Bytes .spawned { suffix := none } .standard []
      (new { suffix := none } .standard) := .start
  obtain ⟨-, -, hfree⟩ := (init.after failedRoot).root_once
  obtain ⟨-, hrefused, -⟩ := (init.after retriedRoot).root_once
  -- Both calls have failed.
  have hnone : ∀ o ∈ ((new { suffix := none } .standard).after .spawned failedRoot).operations,
      ∃ e, o = ⟨.launch (.finished (.error e)), false⟩ := by
    intro o ho
    rcases ho with _ | ⟨_, _ | ⟨_, ho⟩⟩
    · exact ⟨_, rfl⟩
    · exact ⟨_, rfl⟩
    · cases ho
  refine ⟨(hfree fun j _ => ⟨?_, ?_⟩).2, ⟨_, rfl, rfl⟩, ⟨_, rfl⟩,
    hrefused 4 2 ?_ ?_ (by decide) ?_⟩
  · rintro ⟨o, ho, hb⟩
    obtain ⟨e, rfl⟩ := hnone o (List.mem_of_getElem? ho)
    cases hb
  · rintro p ⟨o, ho, ha⟩
    obtain ⟨e, rfl⟩ := hnone o (List.mem_of_getElem? ho)
    cases ha
  · exact ⟨_, .head _, _, rfl, rfl⟩
  · exact ⟨_, .tail _ (.tail _ (.tail _ (.tail _ (.tail _ (.tail _ (.tail _ (.head _))))))), _, rfl,
      rfl⟩
  · exact .inr ⟨.root, _, rfl, rfl⟩

end Traffic

end Lifecycle
