import Lifecycle.Proofs.Table.Allocation
import Lifecycle.Proofs.Table.Departure
import Lifecycle.Proofs.Table.Joining
import Lifecycle.Proofs.Traffic.System

/-!
# What a turn does

`Traffic.Response` lists who can be answered with what (`turn_iff`), in any system.

`Traffic.Consistent` is the invariant of orderly traffic. With it no operation fails one of the
kernel's checks, so a turn is one of the cases of `Turn`: the critical sections that change the
kernel, the steps that write the history or the permits, and the quiet ones (`Move`), which change
the operation alone. `Consistent.turn` says that there are no others.

* `Table.Unstarted`: the record of a launch that may still fail. Nobody knows its PID yet, so it
  runs, has no children, and nobody waits on it.
* `Table.Vacant`, `Table.Solitary`: the table before the root process exists, and while its launch
  may still fail.
-/

namespace Lifecycle

namespace Table

/-- The record of a launch for `client?` that may still fail (module doc). -/
def Unstarted (t : Table) (k : Pid) (client? : Option Pid) : Prop :=
  ∃ r, t.get? k = some r ∧ r.state = .running ∧ r.children = .empty ∧ r.waiter = none ∧
    (r.parent = none ∨ r.parent = client?)

/-- There is no record, and there never was one, or it was taken back. -/
structure Vacant (t : Table) : Prop where
  get? : ∀ k, t.get? k = none
  next : t.pids.next = 0
  recycled : t.pids.recycled = []

/-- There is no record but that of the root process, and there never was another one. -/
structure Solitary (t : Table) : Prop where
  get? : ∀ k, k ≠ Pid.root → t.get? k = none
  next : t.pids.next = 1
  recycled : t.pids.recycled = []

end Table

namespace Operation

/-- The PID of the record of a launch under way. -/
def pid? (o : Operation) : Option Pid :=
  match o.call with
  | .launch l => l.pid?
  | _ => none

/-- The launch of a root process is under way. -/
def boots (o : Operation) : Bool :=
  match o.call with
  | .launch l => l.boots
  | _ => false

/-- A check of the kernel failed. -/
def Crashed (o : Operation) : Prop := ∃ fault, o.call.ended? = some (.crashed fault)

end Operation

namespace Traffic

variable {x y : Traffic} {i j : Nat} {o o' : Operation} {k p : Pid}

/-- What holds while the launch `o` of a root process is under way. -/
structure Booting (kernel : Kernel) (o : Operation) : Prop where
  booted : kernel.booted = true
  vacant : o.pid? = none → kernel.table.Vacant
  root : ∀ k, o.pid? = some k → k = Pid.root
  solitary : o.reserved?.isSome = true → kernel.table.Solitary

/-- The invariant of orderly traffic (module doc). -/
structure Consistent (x : Traffic) : Prop where
  sound : x.kernel.table.Sound
  intact : ∀ (i : Nat) (o : Operation), x.operations[i]? = some o → ¬ o.Crashed
  unstarted : ∀ (i : Nat) (o : Operation) (k : Pid), x.operations[i]? = some o →
    o.reserved? = some k →
    x.kernel.table.Unstarted k o.client? ∧ launchOf x.history k = some i
  alone : ∀ (i j : Nat) (o o' : Operation) (p : Pid), x.operations[i]? = some o →
    x.operations[j]? = some o' → o.client? = some p → o'.client? = some p → i = j
  vacant : x.kernel.booted = false → x.kernel.table.Vacant
  booting : ∀ (i : Nat) (o : Operation), x.operations[i]? = some o → o.boots = true →
    Booting x.kernel o
  single : ∀ (i j : Nat) (o o' : Operation), x.operations[i]? = some o →
    x.operations[j]? = some o' → o.boots = true → o'.boots = true → i = j

/-! ## The cases -/

/-- A turn that changes the operation alone. -/
inductive Move : Operation → Operation → Prop where
  | declined {name : String} {b : Bool} {e : ProcessError} :
      Move ⟨.launch (.booting name), b⟩ ⟨.launch (.finished (.error e)), b⟩
  | refused {order : Order} {b : Bool} {e : ProcessError} :
      Move ⟨.launch (.reserving order), b⟩ ⟨.launch (.abandon order e), b⟩
  | loaded {order : Order} {pid : Pid} {image : LoadedImage} {b : Bool} :
      Move ⟨.launch (.loading order pid), b⟩ ⟨.launch (.storing order pid image), b⟩
  | unloaded {order : Order} {pid : Pid} {cause : ProcessError} {b : Bool} :
      Move ⟨.launch (.loading order pid), b⟩ ⟨.launch (.undoing order pid cause), b⟩
  | unspawned {order : Order} {pid : Pid} {image : LoadedImage} {cause : ProcessError} :
      Move ⟨.launch (.spawning order pid image), false⟩ ⟨.launch (.undoing order pid cause), false⟩
  | abandoned {order : Order} {r : Record} {e : ProcessError} {b : Bool} :
      Move ⟨.launch (.discarding order r e), b⟩ ⟨.launch (.abandon order e), b⟩
  | joined {caller child : Pid} {task : TaskId} {status : ExitStatus} {r : Option Record}
      {b : Bool} :
      Move ⟨.join ⟨caller, child, task, .discarding status r⟩, b⟩
        ⟨.join ⟨caller, child, task, .finished (.ok status)⟩, b⟩
  | missed {pid : Pid} {status : ExitStatus} {e : ProcessError} {b : Bool} :
      Move ⟨.terminate ⟨pid, status, .departing⟩, b⟩
        ⟨.terminate ⟨pid, status, .finished (.error e)⟩, b⟩
  | released {pid : Pid} {status : ExitStatus} {d : Table.Departure} {b : Bool} :
      Move ⟨.terminate ⟨pid, status, .releasing d⟩, b⟩
        ⟨.terminate ⟨pid, status, .waking d.waiter d.idle⟩, b⟩
  | closed {pid : Pid} {status : ExitStatus} {idle b : Bool} :
      Move ⟨.terminate ⟨pid, status, .closing idle⟩, b⟩
        ⟨.terminate ⟨pid, status, .finished (.ok ())⟩, b⟩
  | halted {caller : Pid} {result : Except ProcessError Unit} {b : Bool} :
      Move ⟨.halt (.asked caller), b⟩ ⟨.halt (.finished result), b⟩

/-- `Turn x i o k o' permits e`: a turn of operation `i` takes it from `o` to `o'`, leaves the
kernel `k` and the permits `permits`, and writes down `e`. -/
inductive Turn (x : Traffic) (i : Nat) :
    Operation → Kernel → Operation → (TaskId → Bool) → Option Event → Prop where
  | quiet {o o' : Operation} : Move o o' → Turn x i o x.kernel o' x.permits none
  | claimed {name : String} {b : Bool} : x.kernel.booted = false →
      Turn x i ⟨.launch (.booting name), b⟩ { x.kernel with booted := true }
        ⟨.launch (.reserving ⟨none, name, 0⟩), b⟩ x.permits none
  | cleared {cause : ProcessError} {b : Bool} :
      Turn x i ⟨.launch (.clearing cause), b⟩ { x.kernel with booted := false }
        ⟨.launch (.finished (.error cause)), b⟩ x.permits none
  | reserved {order : Order} {b : Bool} {pid : Pid} {pids : PidAllocator} :
      x.kernel.table.pids.alloc = some (pid, pids) →
      (∀ p, order.parent = some p → ∃ r, x.kernel.table.get? p = some r ∧ r.state = .running) →
      Turn x i ⟨.launch (.reserving order), b⟩
        { x.kernel with
          table := x.kernel.table.admitted pids (.new pid order.parent order.name) }
        ⟨.launch (.loading order pid), b⟩ x.permits (some (.reserved i pid))
  | stored {order : Order} {pid : Pid} {image : LoadedImage} {b : Bool} {r : Record} :
      x.kernel.table.get? pid = some r → r.state = .running →
      Turn x i ⟨.launch (.storing order pid image), b⟩
        { x.kernel with
          table := x.kernel.table.adjust pid fun r => { r with space := some image.space } }
        ⟨.launch (.spawning order pid image), b⟩ x.permits none
  | undone {order : Order} {pid : Pid} {cause : ProcessError} {b : Bool} {r : Record} :
      x.kernel.table.get? pid = some r → r.state = .running → r.children = .empty →
      Turn x i ⟨.launch (.undoing order pid cause), b⟩
        { x.kernel with table := x.kernel.table.rolledBack pid r }
        ⟨.launch (.discarding order r cause), b⟩ x.permits none
  | created {order : Order} {pid : Pid} {image : LoadedImage} {b : Bool} :
      Turn x i ⟨.launch (.spawning order pid image), b⟩ x.kernel
        ⟨.launch (.spawning order pid image), true⟩ x.permits none
  | launched {order : Order} {pid : Pid} {image : LoadedImage} {b : Bool} :
      Turn x i ⟨.launch (.spawning order pid image), b⟩ x.kernel
        ⟨.launch (.finished (.ok pid)), b⟩ x.permits
        (order.parent.map fun parent => .launched i parent pid)
  | unjoined {caller child : Pid} {task : TaskId} {err : ProcessError} {b : Bool} :
      x.kernel.table.Unjoinable caller child task →
      Turn x i ⟨.join ⟨caller, child, task, .checking⟩, b⟩ x.kernel
        ⟨.join ⟨caller, child, task, .finished (.error err)⟩, b⟩ x.permits none
  | waited {caller child : Pid} {task : TaskId} {b : Bool} {r : Record} :
      x.kernel.table.get? child = some r → r.parent = some caller → r.state = .running →
      (∀ other, r.waiter = some other → other = task) →
      Turn x i ⟨.join ⟨caller, child, task, .checking⟩, b⟩
        { x.kernel with
          table := x.kernel.table.adjust child fun r => { r with waiter := some task } }
        ⟨.join ⟨caller, child, task, .sleeping⟩, b⟩ x.permits none
  | woken {caller child : Pid} {task : TaskId} {b : Bool} {permits : TaskId → Bool} :
      (∀ t, t ≠ task → permits t = x.permits t) →
      Turn x i ⟨.join ⟨caller, child, task, .sleeping⟩, b⟩ x.kernel
        ⟨.join ⟨caller, child, task, .checking⟩, b⟩ permits none
  | collected {caller child : Pid} {task : TaskId} {b : Bool} {r : Record}
      {status : ExitStatus} :
      x.kernel.table.get? child = some r → r.parent = some caller →
      r.state = .exited status →
      Turn x i ⟨.join ⟨caller, child, task, .checking⟩, b⟩
        { x.kernel with table := x.kernel.table.removed child r }
        ⟨.join ⟨caller, child, task, .discarding status (some r)⟩, b⟩ x.permits
        (some (.collected i caller child (launchOf x.history child) status))
  | departed {pid : Pid} {status : ExitStatus} {b : Bool} {r : Record} {t : Table} :
      x.kernel.table.Departs pid status r t →
      Turn x i ⟨.terminate ⟨pid, status, .departing⟩, b⟩ { x.kernel with table := t }
        ⟨.terminate ⟨pid, status, .releasing ⟨r.waiter, r.space.toList, t.running = 0⟩⟩, b⟩
        x.permits
        (some (.ended i pid (launchOf x.history pid) status))
  | signalled {pid : Pid} {status : ExitStatus} {waiter : Option TaskId} {idle b : Bool}
      {permits : TaskId → Bool} :
      (∀ t, permits t = (decide (waiter = some t) || x.permits t)) →
      Turn x i ⟨.terminate ⟨pid, status, .waking waiter idle⟩, b⟩ x.kernel
        ⟨.terminate ⟨pid, status, .closing idle⟩, b⟩ permits none

/-- `y` is `x` after a turn of operation `i`, which was `o`. -/
def Turns (x : Traffic) (i : Nat) (o : Operation) (y : Traffic) : Prop :=
  ∃ k o' permits e, Turn x i o k o' permits e ∧ y = (x.put i k o' e).withPermits permits

/-! ## Who can be answered -/

/-- The turns that are possible. An operation takes its next step, unless it waits or has ended, and
what it waits for is answered. -/
inductive Response (x : Traffic) (i : Nat) :
    Operation → Stimulus → List Effect → Traffic → Prop where
  | advance {o : Operation} : o.call.stepsLeft ≠ 0 →
      Response x i o .advance (x.advance i o).1 (x.advance i o).2
  | load {order : Order} {pid : Pid} {b : Bool} (answer : Except LoadError LoadedImage) :
      Response x i ⟨.launch (.loading order pid), b⟩ (.load answer)
        ((Launch.loading order pid).loaded answer).1
        (x.put i x.kernel ⟨.launch ((Launch.loading order pid).loaded answer).2, b⟩ none)
  | start {order : Order} {pid : Pid} {image : LoadedImage} {b : Bool} :
      Response x i ⟨.launch (.spawning order pid image), b⟩ .start []
        (x.put i x.kernel ⟨.launch (.spawning order pid image), true⟩ none)
  | spawn {order : Order} {pid : Pid} {image : LoadedImage} {b : Bool}
      {answer : Except SpawnError Unit} : (b && !answer.isOk) = false →
      Response x i ⟨.launch (.spawning order pid image), b⟩ (.spawn answer)
        ((Launch.spawning order pid image).spawned answer).1
        (x.put i x.kernel ⟨.launch ((Launch.spawning order pid image).spawned answer).2, b⟩
          (Event.report? x.history i (.launch (.spawning order pid image))
            (.launch ((Launch.spawning order pid image).spawned answer).2)))
  | wake {caller child : Pid} {task : TaskId} {b : Bool} : x.permits task = true →
      Response x i ⟨.join ⟨caller, child, task, .sleeping⟩, b⟩ .wake []
        ((x.put i x.kernel ⟨.join ⟨caller, child, task, .checking⟩, b⟩ none).withPermits
          fun t => t ≠ task && x.permits t)
  | rouse {caller child : Pid} {task : TaskId} {b : Bool} :
      Response x i ⟨.join ⟨caller, child, task, .sleeping⟩, b⟩ .rouse []
        (x.put i x.kernel ⟨.join ⟨caller, child, task, .checking⟩, b⟩ none)

theorem turn_iff {stimulus : Stimulus} {effects : List Effect} :
    x.turn i o stimulus = some (effects, y) ↔ Response x i o stimulus effects y := by
  constructor
  · intro h
    obtain ⟨call, b⟩ := o
    cases stimulus with
    | advance =>
      simp only [turn, Option.ite_none_left_eq_some, Option.some.injEq] at h
      obtain ⟨hs, h⟩ := h
      rw [show effects = (x.advance i ⟨call, b⟩).1 by rw [h],
        show y = (x.advance i ⟨call, b⟩).2 by rw [h]]
      exact .advance hs
    | load answer =>
      simp only [turn] at h
      split at h
      · next e => cases e; cases h; exact .load answer
      · cases h
    | start =>
      simp only [turn] at h
      split at h
      · next e => cases e; cases h; exact .start
      · cases h
    | spawn answer =>
      simp only [turn] at h
      split at h
      · next e =>
        cases e
        split at h
        · cases h
        · next hb => cases h; exact .spawn (Bool.eq_false_iff.2 hb)
      · cases h
    | wake =>
      simp only [turn] at h
      split at h
      · next e =>
        cases e
        split at h
        · next hp => cases h; exact .wake hp
        · cases h
      · cases h
    | rouse =>
      simp only [turn] at h
      split at h
      · next e => cases e; cases h; exact .rouse
      · cases h
  · intro h
    cases h with
    | advance hs => rw [turn, if_neg hs]
    | load | start | rouse => rfl
    | spawn hb => simp only [turn, hb, Bool.false_eq_true, if_false]
    | wake hp => simp only [turn, hp, if_true]

/-! ## There are no others -/

@[simp] theorem foldl_grant_releaseAll (spaces : List AddressSpace) (permits : TaskId → Bool) :
    (Effect.releaseAll spaces).foldl grant permits = permits := by
  induction spaces with
  | nil => rfl
  | cons s rest ih => exact ih

@[simp] theorem foldl_grant_idleEffects (config : Config) (idle : Bool) (permits : TaskId → Bool) :
    (Termination.idleEffects config idle).foldl grant permits = permits := by
  unfold Termination.idleEffects
  split <;> rfl

theorem Consistent.advance_launch {l : Launch} {b : Bool} (hx : x.Consistent)
    (hi : x.operations[i]? = some ⟨.launch l, b⟩) (hs : (Call.launch l).stepsLeft ≠ 0) :
    x.Turns i ⟨.launch l, b⟩ (x.advance i ⟨.launch l, b⟩).2 := by
  cases l with
  | booting name =>
    simp only [advance, Call.step, Launch.step]
    by_cases hb : x.kernel.booted = true
    · rw [if_pos hb]
      exact ⟨_, _, _, _, .quiet .declined, rfl⟩
    · rw [if_neg hb]
      exact ⟨_, _, _, _, .claimed (Bool.eq_false_iff.2 hb), rfl⟩
  | reserving order =>
    simp only [advance, Call.step, Launch.step]
    rcases Table.allocate_eq hx.sound.allotted order.parent order.name with
      ⟨e, he⟩ | ⟨pid, pids, ha, hp, he⟩
    · rw [he]
      refine ⟨_, _, _, _, .quiet (.refused (e := e)), ?_⟩
      simp only [Launch.abandon]
      split <;> rfl
    · rw [he]
      exact ⟨_, _, _, _, .reserved ha hp, rfl⟩
  | storing order pid image =>
    obtain ⟨⟨r, hr, hrun, -⟩, -⟩ := hx.unstarted i _ pid hi rfl
    simp only [advance, Call.step, Launch.step, Table.storeSpace, hr, Option.map_some]
    exact ⟨_, _, _, _, .stored hr hrun, by simp [Event.report?]⟩
  | undoing order pid cause =>
    obtain ⟨⟨r, hr, hrun, hc, hw, -⟩, -⟩ := hx.unstarted i _ pid hi rfl
    simp only [advance, Call.step, Launch.step, Table.rollback_eq hx.sound.counted hr hw]
    exact ⟨_, _, _, _, .undone hr hrun hc, rfl⟩
  | discarding order r cause =>
    simp only [advance, Call.step, Launch.step]
    refine ⟨_, _, _, _, .quiet (.abandoned (e := cause)), ?_⟩
    simp only [Launch.abandon]
    split <;> simp [Event.report?, Effect.releaseOf, grant]
  | clearing cause => exact ⟨_, _, _, _, .cleared, rfl⟩
  | loading order pid => exact absurd rfl hs
  | spawning order pid image => exact absurd rfl hs
  | finished result => exact absurd rfl hs
  | crashed fault => exact absurd rfl hs

theorem Consistent.advance_join {a : Join} {b : Bool} (hx : x.Consistent)
    (hs : (Call.join a).stepsLeft ≠ 0) :
    x.Turns i ⟨.join a, b⟩ (x.advance i ⟨.join a, b⟩).2 := by
  obtain ⟨caller, child, task, stage⟩ := a
  cases stage with
  | checking =>
    simp only [advance, Call.step, Join.step]
    have hl := Table.checkJoin_look hx.sound caller child task
    generalize x.kernel.table.checkJoin caller child task = found at hl
    cases hl with
    | notChild hn => exact ⟨_, _, _, _, .unjoined (.inl hn), rfl⟩
    | busy hr hp _ hw ne => exact ⟨_, _, _, _, .unjoined (.inr ⟨_, _, hr, hp, hw, ne⟩), rfl⟩
    | waiting hr hp hrun hw => exact ⟨_, _, _, _, .waited hr hp hrun hw, rfl⟩
    | collected hr hp hst => exact ⟨_, _, _, _, .collected hr hp hst, rfl⟩
  | discarding status record =>
    refine ⟨_, _, _, _, .quiet .joined, ?_⟩
    cases record <;> simp [advance, Call.step, Join.step, Join.goTo, Event.report?,
      Effect.releaseOf, grant]
  | sleeping => exact absurd rfl hs
  | finished result => exact absurd rfl hs
  | crashed fault => exact absurd rfl hs

theorem Consistent.advance_termination {a : Termination} {b : Bool} (hx : x.Consistent)
    (hs : (Call.terminate a).stepsLeft ≠ 0) :
    x.Turns i ⟨.terminate a, b⟩ (x.advance i ⟨.terminate a, b⟩).2 := by
  obtain ⟨pid, status, stage⟩ := a
  cases stage with
  | departing =>
    simp only [advance, Call.step, Termination.step]
    cases hr : x.kernel.table.running? pid with
    | none =>
      rw [show x.kernel.table.depart pid status = (.notRunning, x.kernel.table) by
        simp only [Table.depart, hr]]
      exact ⟨_, _, _, _, .quiet .missed, rfl⟩
    | some r =>
      obtain ⟨t, ht, hd⟩ := Table.depart_eq status hx.sound hr
      rw [ht]
      exact ⟨_, _, _, _, .departed hd, rfl⟩
  | releasing departure =>
    refine ⟨_, _, _, _, .quiet .released, ?_⟩
    simp [advance, Call.step, Termination.step, Termination.goTo, Event.report?]
  | waking waiter idle =>
    refine ⟨_, _, _, _, .signalled fun t => ?_, rfl⟩
    cases waiter with
    | none => simp
    | some w => simp [grant, eq_comm]
  | closing idle =>
    refine ⟨_, _, _, _, .quiet .closed, ?_⟩
    simp [advance, Call.step, Termination.step, Termination.goTo, Event.report?, grant]
  | finished result => exact absurd rfl hs
  | crashed fault => exact absurd rfl hs

theorem advance_halt {a : HaltRequest} {b : Bool} (hs : (Call.halt a).stepsLeft ≠ 0) :
    x.Turns i ⟨.halt a, b⟩ (x.advance i ⟨.halt a, b⟩).2 := by
  cases a with
  | asked caller =>
    simp only [advance, Call.step, HaltRequest.step]
    split
    · exact ⟨_, _, _, _, .quiet .halted, rfl⟩
    · exact ⟨_, _, _, _, .quiet .halted, rfl⟩
  | finished result => exact absurd rfl hs

/-- The answer of the scheduler: the first process has the PID of the root. -/
theorem Consistent.turn_spawn {order : Order} {pid : Pid} {image : LoadedImage} {b : Bool}
    {answer : Except SpawnError Unit} (hx : x.Consistent)
    (hi : x.operations[i]? = some ⟨.launch (.spawning order pid image), b⟩)
    (hb : (b && !answer.isOk) = false) :
    x.Turns i ⟨.launch (.spawning order pid image), b⟩
      (x.put i x.kernel ⟨.launch ((Launch.spawning order pid image).spawned answer).2, b⟩
        (Event.report? x.history i (.launch (.spawning order pid image))
          (.launch ((Launch.spawning order pid image).spawned answer).2))) := by
  cases answer with
  | error e =>
    obtain rfl : b = false := by simpa [Except.isOk, Except.toBool] using hb
    exact ⟨_, _, _, _, .quiet .unspawned, rfl⟩
  | ok _ =>
    have hroot : ¬ (order.parent.isNone = true ∧ pid ≠ Pid.root) := fun ⟨hp, hne⟩ =>
      hne ((hx.booting i _ hi hp).root pid rfl)
    simp only [Launch.spawned, if_neg hroot]
    exact ⟨_, _, _, _, .launched, rfl⟩

/-- A turn is one of the cases of `Turn`. -/
theorem Consistent.turn {stimulus : Stimulus} {effects : List Effect} (hx : x.Consistent)
    (hi : x.operations[i]? = some o) (h : x.turn i o stimulus = some (effects, y)) :
    x.Turns i o y := by
  cases turn_iff.1 h with
  | @advance o hs =>
    obtain ⟨call, b⟩ := o
    cases call with
    | launch l => exact hx.advance_launch hi hs
    | join a => exact hx.advance_join hs
    | terminate a => exact hx.advance_termination hs
    | halt a => exact advance_halt hs
  | load answer =>
    cases answer with
    | ok image => exact ⟨_, _, _, _, .quiet .loaded, rfl⟩
    | error e => exact ⟨_, _, _, _, .quiet .unloaded, rfl⟩
  | start => exact ⟨_, _, _, _, .created, rfl⟩
  | spawn hb => exact hx.turn_spawn hi hb
  | wake => exact ⟨_, _, _, _, .woken fun t ht => by simp [ht], rfl⟩
  | rouse => exact ⟨_, _, _, _, .woken fun _ _ => rfl, rfl⟩

/-! ## Actions -/

/-- A call at its start. -/
inductive Started : Call → Prop where
  | unfit {e : ProcessError} : Started (.launch (.finished (.error e)))
  | boot {name : String} : Started (.launch (.booting name))
  | exec {caller : Pid} {name : String} {argc : UInt32} :
      Started (.launch (.reserving ⟨some caller, name, argc⟩))
  | join {caller child : Pid} {task : TaskId} : Started (.join ⟨caller, child, task, .checking⟩)
  | terminate {pid : Pid} {status : ExitStatus} : Started (.terminate ⟨pid, status, .departing⟩)
  | halt {caller : Pid} : Started (.halt (.asked caller))

theorem started_boot (k : Kernel) (name : String) : Started (.boot k name) := by
  unfold Call.boot Launch.boot
  split
  · exact .unfit
  · exact .boot

theorem started_exec (k : Kernel) (caller : Pid) (name : String) (argc : Int32) :
    Started (.exec k caller name argc) := by
  unfold Call.exec Launch.exec
  split
  · exact .unfit
  · split
    · exact .unfit
    · exact .exec

variable {μ : Type} [UserMemory μ]

/-- The call behind a system call. -/
theorem started_call {kernel : Kernel} {caller : Pid} {task : TaskId} {r : Registers} {memory : μ}
    {c : Call} (s : Syscall) (h : (kernel.call caller task r memory s).call? = some c) :
    Started c := by
  cases s with
  | halt => cases h; exact .halt
  | exit => cases h; exact .terminate
  | exec =>
    simp only [Kernel.call] at h
    split at h
    · cases h
    · cases h; exact started_exec _ _ _ _
  | join =>
    simp only [Kernel.call] at h
    split at h
    · cases h
    · cases h; exact .join

theorem started_entry {kernel : Kernel} {invocation : Invocation μ} {c : Call}
    (h : (invocation.entry kernel).2.call? = some c) : Started c := by
  cases invocation with
  | boot name => cases h; exact started_boot _ _
  | exec caller name argc => cases h; exact started_exec _ _ _ _
  | join caller child task => cases h; exact .join
  | exit pid code => cases h; exact .terminate
  | kill pid => cases h; exact .terminate
  | halt caller => cases h; exact .halt
  | trap caller task registers memory =>
    simp only [Invocation.entry, Kernel.enter] at h
    split at h
    · cases h
    · exact started_call _ h

/-- An entry point answers at once or starts an operation. -/
theorem act_invoke {invocation : Invocation μ} {effects : List Effect}
    (h : x.act (.invoke invocation) = some (effects, y)) :
    effects = (invocation.entry x.kernel).1 ∧ (y = x ∨
      ∃ c, (invocation.entry x.kernel).2.call? = some c ∧ y = x.add ⟨c, false⟩) := by
  simp only [Traffic.act] at h
  split at h
  · next he => cases h; exact ⟨by rw [he], .inl rfl⟩
  · next c he => cases h; exact ⟨by rw [he], .inr ⟨c, by rw [he]; rfl, rfl⟩⟩

/-- A turn of an operation that is known. -/
theorem turn_of_act {o : Operation} {stimulus : Stimulus} {effects : List Effect}
    (hi : x.operations[i]? = some o)
    (h : x.act (.turn i stimulus : Action μ) = some (effects, y)) :
    x.turn i o stimulus = some (effects, y) := by
  rwa [Traffic.act, hi] at h

/-- An action starts an operation or is a turn of one, or it changes nothing. -/
theorem Consistent.act {d : Discipline} {a : Action μ} {effects : List Effect} (hx : x.Consistent)
    (hp : d.Permits x a) (h : x.act a = some (effects, y)) :
    y = x ∨ (∃ c, Started c ∧ d.admits x ⟨c, false⟩ ∧ y = x.add ⟨c, false⟩) ∨
    ∃ i o, x.operations[i]? = some o ∧ d.allows x o ∧ x.Turns i o y := by
  cases a with
  | invoke invocation =>
    rcases (act_invoke h).2 with rfl | ⟨c, hc, rfl⟩
    · exact .inl rfl
    · exact .inr (.inl ⟨c, started_entry hc, hp c hc, rfl⟩)
  | turn i stimulus =>
    obtain ⟨o, hi, ho⟩ := Option.bind_eq_some_iff.1 h
    exact .inr (.inr ⟨i, o, hi, hp o hi, hx.turn hi ho⟩)

end Traffic

end Lifecycle
