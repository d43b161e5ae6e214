import Lifecycle.Proofs.Sequential.Session

/-!
# The reference model of the process tree

A `ProcessTree` holds of each process its parent, its exit status and its children, and nothing
else. Its operations say what becomes of the processes:

* `ProcessTree.add`: a new child of a process.
* `ProcessTree.terminate`: the end of a process. Its children that have ended are dropped, those
  that run lose their parent, and it is dropped itself if it has none.
* `ProcessTree.collect`: a child is joined.

`ProcessTree.Step` says what each command answers, and the tree it leaves. It leaves open which PID
a new process gets, as long as no other one has it.
-/

namespace Lifecycle

namespace ProcessTree

/-- What the tree holds of one process. -/
structure Node where
  parent : Option Pid
  /-- The exit status, once there is one. -/
  status? : Option ExitStatus
  /-- The children that have not been joined. -/
  children : PidSet
deriving DecidableEq, Inhabited

/-- The process has not ended. -/
def Node.isRunning (n : Node) : Bool := n.status?.isNone

end ProcessTree

/-- The processes (module doc). -/
abbrev ProcessTree := PidMap ProcessTree.Node

namespace ProcessTree

/-- A root process alone. -/
def root : ProcessTree := PidMap.empty.insert Pid.root ⟨none, none, .empty⟩

/-- `pid` is a process that has not ended. -/
def runs (m : ProcessTree) (pid : Pid) : Bool := (m.get? pid).any Node.isRunning

/-- `child` is in the child set of `caller`. -/
def isChild (m : ProcessTree) (caller child : Pid) : Bool :=
  (m.get? caller).any (·.children.has child)

/-! ## Operations -/

/-- The tree with a new child `pid` of `parent`. -/
def add (m : ProcessTree) (parent pid : Pid) : ProcessTree :=
  (m.insert pid ⟨some parent, none, .empty⟩).adjust parent fun n =>
    { n with children := n.children.add pid }

/-- The tree after the process `caller` has joined `child`. -/
def collect (m : ProcessTree) (caller child : Pid) : ProcessTree :=
  (m.erase child).adjust caller fun n => { n with children := n.children.remove child }

/-- The tree after `child` has lost its parent: it is dropped if it has ended. -/
def disown (m : ProcessTree) (child : Pid) : ProcessTree :=
  if m.runs child then m.adjust child fun n => { n with parent := none } else m.erase child

/-- The tree after the end of the process `pid`. -/
def terminate (m : ProcessTree) (pid : Pid) (status : ExitStatus) : ProcessTree :=
  match m.get? pid with
  | none => m
  | some n =>
    let ended := m.insert pid { n with status? := some status, children := .empty }
    let disowned := n.children.keys.foldl disown ended
    if n.parent.isSome then disowned else disowned.erase pid

section lookups

variable {m : ProcessTree} {pid k : Pid} {n : Node} {status : ExitStatus}

/-- What becomes of a child that loses its parent. -/
def Node.orphaned (n : Node) : Option Node :=
  if n.isRunning then some { n with parent := none } else none

theorem get?_disown (m : ProcessTree) (child k : Pid) :
    (m.disown child).get? k = if child = k then (m.get? k).bind Node.orphaned else m.get? k := by
  unfold disown runs
  by_cases e : child = k
  · subst e
    cases h : m.get? child with
    | none => simp
    | some n => by_cases hn : n.isRunning <;> simp [PidMap.get?_adjust, h, hn, Node.orphaned]
  · split
    · rw [PidMap.get?_adjust, if_neg e]
    · rw [PidMap.get?_erase, if_neg e]

/-- A child is disowned once. -/
theorem get?_disownAll (m : ProcessTree) {cs : List Pid} (hcs : cs.Nodup) (k : Pid) :
    (cs.foldl disown m).get? k = if k ∈ cs then (m.get? k).bind Node.orphaned else m.get? k := by
  induction cs generalizing m with
  | nil => simp
  | cons c rest ih =>
    obtain ⟨hc, hrest⟩ := List.nodup_cons.1 hcs
    rw [List.foldl_cons, ih _ hrest, get?_disown]
    by_cases e : c = k
    · subst e
      simp [hc]
    · simp [e, Ne.symm e]

theorem get?_terminate (hn : m.get? pid = some n) (hc : n.children.has pid = false) (k : Pid) :
    (m.terminate pid status).get? k =
      if pid = k then n.parent.map fun p => ⟨some p, some status, .empty⟩
      else if n.children.has k then (m.get? k).bind Node.orphaned else m.get? k := by
  have hd := get?_disownAll (m.insert pid { n with status? := some status, children := .empty })
    (PidMap.keys_nodup n.children)
  simp only [PidSet.mem_keys_iff_has, PidMap.get?_insert] at hd
  simp only [terminate, hn]
  by_cases e : pid = k
  · subst e
    have hpid := hd pid
    rw [if_neg (by simp [hc]), if_pos rfl] at hpid
    rw [if_pos rfl]
    split
    case isTrue hp =>
      obtain ⟨p, hp⟩ := Option.isSome_iff_exists.1 hp
      rw [hpid, hp]
      rfl
    case isFalse hp =>
      rw [PidMap.get?_erase_self, Option.not_isSome_iff_eq_none.1 hp, Option.map_none]
  · rw [if_neg e]
    split
    · rw [hd, if_neg e]
    · rw [PidMap.get?_erase, if_neg e, hd, if_neg e]

example : ((root.add .root ⟨1⟩).terminate .root .abnormal).get? ⟨1⟩ = some ⟨none, none, .empty⟩ :=
  rfl

end lookups

/-! ## Commands -/

/-- Why a launch is refused, if it is: by its arguments, by the tree and the limits of the table,
or by the loader or the scheduler. -/
def refusal? (m : ProcessTree) (config : Config) (range : PidRange) (caller : Pid) (name : String)
    (argc : Int32) (a : Answers) : Option ProcessError :=
  match config.validateName name with
  | .error e => some e
  | .ok () =>
    if argc < 0 then some (.invalidArgument "negative argument count")
    else if !m.runs caller then some .notFound
    else if config.maxProcesses ≤ m.size ∨ range.largest.toNat < m.size then
      some .resourceExhausted
    else a.failure?

/-- The command waits: it is the join of a child that has not ended. -/
def waits (m : ProcessTree) : Session.Demand → Bool
  | .join caller child => m.isChild caller child && m.runs child
  | _ => false

/-- `Step config range m c ended m'`: what a command that does not wait answers, and the tree it
leaves. -/
inductive Step (config : Config) (range : PidRange) (m : ProcessTree) :
    Session.Command → Ended → ProcessTree → Prop where
  | refused {caller : Pid} {name : String} {argc : Int32} {task : TaskId} {a : Answers}
      {e : ProcessError} :
      m.refusal? config range caller name argc a = some e →
      Step config range m ⟨.exec caller name argc, task, a⟩ (.launched (.error e)) m
  | launched {caller pid : Pid} {name : String} {argc : Int32} {task : TaskId} {a : Answers} :
      m.refusal? config range caller name argc a = none →
      m.get? pid = none → range.Contains pid →
      Step config range m ⟨.exec caller name argc, task, a⟩ (.launched (.ok pid))
        (m.add caller pid)
  | stranger {caller child : Pid} {task : TaskId} {a : Answers} :
      m.isChild caller child = false →
      Step config range m ⟨.join caller child, task, a⟩ (.joined child (.error .invalidJoin)) m
  | joined {caller child : Pid} {task : TaskId} {a : Answers} {n : Node} {status : ExitStatus} :
      m.isChild caller child = true → m.get? child = some n → n.status? = some status →
      Step config range m ⟨.join caller child, task, a⟩ (.joined child (.ok status))
        (m.collect caller child)
  | ended {pid : Pid} {demand : Session.Demand} {task : TaskId} {a : Answers}
      {status : ExitStatus} :
      demand.end? = some (pid, status) → m.runs pid = true →
      Step config range m ⟨demand, task, a⟩ (.terminated status (.ok ()))
        (m.terminate pid status)
  | missing {pid : Pid} {demand : Session.Demand} {task : TaskId} {a : Answers}
      {status : ExitStatus} :
      demand.end? = some (pid, status) → m.runs pid = false →
      Step config range m ⟨demand, task, a⟩ (.terminated status (.error .notFound)) m

end ProcessTree

end Lifecycle
