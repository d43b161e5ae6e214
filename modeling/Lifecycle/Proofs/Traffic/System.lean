import Lifecycle.Syscall.Dispatch

/-!
# Operations side by side

`Traffic` is a kernel with all the operations that were ever started, the ended ones included.
Between two steps of one operation any steps of others may run, and new operations may start at
any time; a step has one critical section at most. Nothing is assumed of the answers of the loader
and of the scheduler.

* `Traffic.act`: one action, of an operation or of the machine around the kernel.
* `Discipline`: which operations may start, and which may take their next step. In
  `Discipline.orderly` a process whose launch may still fail neither launches another one nor is
  ended, and the launches and joins of one process come one after another. `Discipline.strict`
  also ends no process in the middle of its own launches and joins, and shares no task.
* `Traffic.Reachable`: the states of all runs that keep to a discipline.

**Wakeups.** The scheduler keeps one permit for each task: `Effect.wake` gives it, and the end of
a sleep takes it. A sleep may also end without one.

**History.** What the operations have done to the processes is written down, newest first
(`Event`). A PID may be handed out again, so a process is known by the launch that reserved its
record: `launchOf`. No operation reads the history.
-/

namespace Lifecycle

/-! ## Operations -/

namespace Launch

/-- What a launch under way is to create. -/
def order? : Launch → Option Order
  | reserving order => some order
  | loading order _ => some order
  | storing order _ _ => some order
  | spawning order _ _ => some order
  | undoing order _ _ => some order
  | discarding order _ _ => some order
  | _ => none

/-- The PID of the record of a launch under way. -/
def pid? : Launch → Option Pid
  | loading _ pid => some pid
  | storing _ pid _ => some pid
  | spawning _ pid _ => some pid
  | undoing _ pid _ => some pid
  | _ => none

/-- The launch of a root process is under way. -/
def boots : Launch → Bool
  | clearing _ => true
  | l => l.order?.any (·.parent.isNone)

end Launch

/-- The join has not ended. -/
def JoinStage.active : JoinStage → Bool
  | checking => true
  | sleeping => true
  | discarding _ _ => true
  | _ => false

/-- An operation, ended or not. -/
structure Operation where
  call : Call
  /-- The scheduler has created the task of the process that the operation launches. -/
  begun : Bool
deriving Inhabited

namespace Operation

/-- The process that waits for the operation: the caller of a launch or a join under way. -/
def client? (o : Operation) : Option Pid :=
  match o.call with
  | .launch l => l.order?.bind (·.parent)
  | .join j => if j.stage.active then some j.caller else none
  | _ => none

/-- The task of a join under way. -/
def task? (o : Operation) : Option TaskId :=
  match o.call with
  | .join j => if j.stage.active then some j.task else none
  | _ => none

/-- The process that a launch under way creates and that does not run yet. -/
def reserved? (o : Operation) : Option Pid :=
  match o.call with
  | .launch (.spawning _ pid _) => if o.begun then none else some pid
  | .launch l => l.pid?
  | _ => none

/-- The process that the next step ends. -/
def target? (o : Operation) : Option Pid :=
  match o.call with
  | .terminate ⟨pid, _, .departing⟩ => some pid
  | _ => none

/-- The process that the next step makes a parent, or ends. -/
def subject? (o : Operation) : Option Pid :=
  match o.call with
  | .launch (.reserving order) => order.parent
  | _ => o.target?

end Operation

/-- The call behind a system call, if it has one. -/
def Entry.call? : Entry → Option Call
  | answered _ => none
  | started c => some c

/-- An entry point of the kernel, with its arguments. -/
inductive Invocation (μ : Type) where
  | boot (name : String)
  | exec (caller : Pid) (name : String) (argc : Int32)
  | join (caller child : Pid) (task : TaskId)
  | exit (pid : Pid) (code : Int32)
  /-- The end of a process after an exception. -/
  | kill (pid : Pid)
  | halt (caller : Pid)
  /-- A system call. -/
  | trap (caller : Pid) (task : TaskId) (registers : Registers) (memory : μ)

/-- What an entry point does first. -/
def Invocation.entry {μ : Type} [UserMemory μ] (k : Kernel) : Invocation μ → List Effect × Entry
  | boot name => ([], .started (.boot k name))
  | exec caller name argc => ([], .started (.exec k caller name argc))
  | join caller child task => ([], .started (.join (.new caller child task)))
  | exit pid code => ([], .started (.terminate (.exit pid code)))
  | kill pid => ([], .started (Kernel.exception pid))
  | halt caller => ([], .started (.halt (.asked caller)))
  | trap caller task registers memory => k.enter caller task registers memory

/-! ## History -/

/-- What an operation, known by its number, has done to a process. -/
inductive Event where
  /-- A launch has reserved the record of `pid`. -/
  | reserved (launch : Nat) (pid : Pid)
  /-- A launch by the process `parent` has answered `pid`. -/
  | launched (launch : Nat) (parent pid : Pid)
  /-- A termination has ended the process `pid`, which `launch` created. -/
  | ended (operation : Nat) (pid : Pid) (launch : Option Nat) (status : ExitStatus)
  /-- A join by `caller` has taken the status of `child`, which `launch` created. -/
  | collected (operation : Nat) (caller child : Pid) (launch : Option Nat) (status : ExitStatus)
deriving DecidableEq, Inhabited

/-- The launch that reserved the record of `pid` last. -/
def launchOf : List Event → Pid → Option Nat
  | [], _ => none
  | .reserved i q :: h, p => if q = p then some i else launchOf h p
  | _ :: h, p => launchOf h p

/-- What is written down when the call of operation `i` goes from one stage to another. -/
def Event.report? (h : List Event) (i : Nat) : Call → Call → Option Event
  | .launch (.reserving _), .launch (.loading _ pid) => some (.reserved i pid)
  | .launch (.spawning order pid _), .launch (.finished (.ok _)) =>
    order.parent.map fun parent => .launched i parent pid
  | .join ⟨caller, child, _, .checking⟩, .join ⟨_, _, _, .discarding status _⟩ =>
    some (.collected i caller child (launchOf h child) status)
  | .terminate ⟨pid, status, .departing⟩, .terminate ⟨_, _, .releasing _⟩ =>
    some (.ended i pid (launchOf h pid) status)
  | _, _ => none

/-! ## The system -/

/-- A kernel and its operations (module doc). -/
structure Traffic where
  kernel : Kernel
  operations : List Operation
  /-- The tasks whose next sleep ends at once. -/
  permits : TaskId → Bool
  /-- Newest first. -/
  history : List Event

/-- What happens to an operation under way. -/
inductive Stimulus where
  /-- It takes its next step. -/
  | advance
  /-- The loader answers. -/
  | load (answer : Except LoadError LoadedImage)
  /-- The scheduler creates the task of the new process, and answers later. -/
  | start
  /-- The scheduler answers. -/
  | spawn (answer : Except SpawnError Unit)
  /-- Its sleep ends, by the permit of its task. -/
  | wake
  /-- Its sleep ends for no reason. -/
  | rouse
deriving Inhabited

/-- An action of the system. -/
inductive Action (μ : Type) where
  | invoke (invocation : Invocation μ)
  | turn (operation : Nat) (stimulus : Stimulus)

namespace Traffic

/-- The system before its first operation. -/
def new (config : Config) (range : PidRange) : Traffic :=
  ⟨.new config range, [], fun _ => false, []⟩

/-- The permits after an effect. -/
def grant (permits : TaskId → Bool) : Effect → TaskId → Bool
  | .wake task => fun t => t = task || permits t
  | _ => permits

/-- The system after a turn of operation `i`, which is now `o`. -/
def put (x : Traffic) (i : Nat) (k : Kernel) (o : Operation) (e : Option Event) : Traffic :=
  { x with kernel := k, operations := x.operations.set i o, history := e.toList ++ x.history }

/-- The system with the operation `o` started. -/
def add (x : Traffic) (o : Operation) : Traffic := { x with operations := x.operations ++ [o] }

/-- The system with other permits. -/
def withPermits (x : Traffic) (permits : TaskId → Bool) : Traffic := { x with permits := permits }

/-- The next step of operation `i`, which is `o`. -/
def advance (x : Traffic) (i : Nat) (o : Operation) : List Effect × Traffic :=
  let (k, effects, c) := o.call.step x.kernel
  let y := x.put i k { o with call := c } (Event.report? x.history i o.call c)
  (effects, y.withPermits (effects.foldl grant x.permits))

/-- A turn of operation `i`, which is `o`. -/
def turn (x : Traffic) (i : Nat) (o : Operation) : Stimulus → Option (List Effect × Traffic)
  | .advance => if o.call.stepsLeft = 0 then none else some (x.advance i o)
  | .load answer =>
    match o.call with
    | .launch (.loading order pid) =>
      let (effects, l) := (Launch.loading order pid).loaded answer
      some (effects, x.put i x.kernel { o with call := .launch l } none)
    | _ => none
  | .start =>
    match o.call with
    | .launch (.spawning ..) => some ([], x.put i x.kernel { o with begun := true } none)
    | _ => none
  | .spawn answer =>
    match o.call with
    | .launch (.spawning order pid image) =>
      -- The task of a process that runs was created.
      if o.begun && !answer.isOk then none
      else
        let (effects, l) := (Launch.spawning order pid image).spawned answer
        some (effects, x.put i x.kernel { o with call := .launch l }
          (Event.report? x.history i o.call (.launch l)))
    | _ => none
  | .wake =>
    match o.call with
    | .join ⟨caller, child, task, .sleeping⟩ =>
      if x.permits task then
        let y := x.put i x.kernel { o with call := .join ⟨caller, child, task, .checking⟩ } none
        some ([], y.withPermits fun t => t ≠ task && x.permits t)
      else none
    | _ => none
  | .rouse =>
    match o.call with
    | .join ⟨caller, child, task, .sleeping⟩ =>
      some ([], x.put i x.kernel { o with call := .join ⟨caller, child, task, .checking⟩ } none)
    | _ => none

/-- One action: its effects on the machine, and the system after it; `none` if it is impossible. -/
def act {μ : Type} [UserMemory μ] (x : Traffic) : Action μ → Option (List Effect × Traffic)
  | .invoke invocation =>
    match invocation.entry x.kernel with
    | (effects, .answered _) => some (effects, x)
    | (effects, .started c) => some (effects, x.add ⟨c, false⟩)
  | .turn i stimulus => (x.operations[i]?).bind fun o => x.turn i o stimulus

/-- `p` has a record, and its launch may still fail. -/
def Reserved (x : Traffic) (p : Pid) : Prop := ∃ o ∈ x.operations, o.reserved? = some p

/-- `p` is in the middle of a launch or a join. -/
def Engaged (x : Traffic) (p : Pid) : Prop := ∃ o ∈ x.operations, o.client? = some p

/-- `task` is in the middle of a join. -/
def Occupied (x : Traffic) (task : TaskId) : Prop := ∃ o ∈ x.operations, o.task? = some task

instance (x : Traffic) (p : Pid) : Decidable (x.Reserved p) :=
  inferInstanceAs (Decidable (∃ o ∈ x.operations, o.reserved? = some p))

instance (x : Traffic) (p : Pid) : Decidable (x.Engaged p) :=
  inferInstanceAs (Decidable (∃ o ∈ x.operations, o.client? = some p))

instance (x : Traffic) (task : TaskId) : Decidable (x.Occupied task) :=
  inferInstanceAs (Decidable (∃ o ∈ x.operations, o.task? = some task))

end Traffic

/-! ## Disciplines -/

/-- What the callers of the kernel keep to. -/
structure Discipline where
  /-- The operation may be started. -/
  admits : Traffic → Operation → Prop
  /-- The operation may take its next step. -/
  allows : Traffic → Operation → Prop
  decAdmits : ∀ x o, Decidable (admits x o)
  decAllows : ∀ x o, Decidable (allows x o)

namespace Discipline

/-- The launches and joins of one process do not overlap, and a process whose launch may still
fail neither launches another one nor is ended. -/
def orderly : Discipline where
  admits x o := ∀ p ∈ o.client?, ¬ x.Engaged p
  allows x o := ∀ p ∈ o.subject?, ¬ x.Reserved p
  decAdmits _ _ := inferInstance
  decAllows _ _ := inferInstance

/-- An orderly one, in which a process is not ended in the middle of its own launches and joins,
and no two joins run on one task. -/
def strict : Discipline where
  admits x o := orderly.admits x o ∧ ∀ task ∈ o.task?, ¬ x.Occupied task
  allows x o := orderly.allows x o ∧ ∀ p ∈ o.target?, ¬ x.Engaged p
  decAdmits x o := have := orderly.decAdmits x o; inferInstance
  decAllows x o := have := orderly.decAllows x o; inferInstance

/-- The callers may do `a`. -/
def Permits {μ : Type} [UserMemory μ] (d : Discipline) (x : Traffic) : Action μ → Prop
  | .invoke invocation => ∀ c ∈ (invocation.entry x.kernel).2.call?, d.admits x ⟨c, false⟩
  | .turn i _ => ∀ o ∈ x.operations[i]?, d.allows x o

instance {μ : Type} [UserMemory μ] (d : Discipline) (x : Traffic) (a : Action μ) :
    Decidable (d.Permits x a) :=
  match a with
  | .invoke invocation =>
    have := fun c => d.decAdmits x ⟨c, false⟩
    inferInstanceAs (Decidable (∀ c ∈ (invocation.entry x.kernel).2.call?, d.admits x ⟨c, false⟩))
  | .turn i _ =>
    have := d.decAllows x
    inferInstanceAs (Decidable (∀ o ∈ x.operations[i]?, d.allows x o))

/-- Every run that keeps to `d` keeps to `d'`. -/
structure Implies (d d' : Discipline) : Prop where
  admits : ∀ x o, d.admits x o → d'.admits x o
  allows : ∀ x o, d.allows x o → d'.allows x o

theorem Implies.rfl {d : Discipline} : d.Implies d := ⟨fun _ _ h => h, fun _ _ h => h⟩

theorem strict_implies_orderly : Implies strict orderly :=
  ⟨fun _ _ h => h.1, fun _ _ h => h.1⟩

end Discipline

namespace Traffic

variable {μ : Type} [UserMemory μ]

/-- The states of the runs from an empty table that keep to a discipline. -/
inductive Reachable (μ : Type) [UserMemory μ] (d : Discipline) (config : Config)
    (range : PidRange) : Traffic → Prop where
  | start : Reachable μ d config range (new config range)
  | act {x y : Traffic} {a : Action μ} {effects : List Effect} : Reachable μ d config range x →
      d.Permits x a → x.act a = some (effects, y) → Reachable μ d config range y

theorem Reachable.mono {d d' : Discipline} (hd : d.Implies d') {config : Config}
    {range : PidRange} {x : Traffic} (h : Reachable μ d config range x) :
    Reachable μ d' config range x := by
  induction h with
  | start => exact .start
  | @act x y a effects _ hp ha ih =>
    refine .act ih ?_ ha
    cases a with
    | invoke invocation => exact fun c hc => hd.admits _ _ (hp c hc)
    | turn i stimulus => exact fun o ho => hd.allows _ _ (hp o ho)

/-- Does the actions one after another. One that is impossible, or against the discipline, is left
out. -/
def after (d : Discipline) (x : Traffic) : List (Action μ) → Traffic
  | [] => x
  | a :: rest =>
    if d.Permits x a then
      match x.act a with
      | some (_, y) => after d y rest
      | none => after d x rest
    else after d x rest

/-- The turns of launch `i`, if the loader and the scheduler answer it. -/
def launching (i : Nat) : List (Action μ) :=
  [.turn i .advance, .turn i (.load (.ok default)), .turn i .advance, .turn i (.spawn (.ok ()))]

theorem Reachable.after {d : Discipline} {config : Config} {range : PidRange} {x : Traffic}
    (h : Reachable μ d config range x) (actions : List (Action μ)) :
    Reachable μ d config range (x.after d actions) := by
  induction actions generalizing x with
  | nil => exact h
  | cons a rest ih =>
    unfold Traffic.after
    split
    case isTrue hp =>
      split
      · next ha => exact ih (.act h hp ha)
      · exact ih h
    case isFalse => exact ih h

end Traffic

end Lifecycle
