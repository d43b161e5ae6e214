import Lifecycle.Kernel

/-!
# Joins

A join waits for the end of a child, collects its exit status and takes its record out of the
table. While the child runs, the task of the caller is its waiter and sleeps; the termination of
the child wakes it. A sleep may also end for no reason, so a woken join looks at the child again.

* `Join.new`: the join of a child.
* `Join.step`: the next step of the kernel.
* `Join.woken`: the sleep of the task has ended.
-/

namespace Lifecycle

/-- How far a join has come. -/
inductive JoinStage where
  /-- Look at the child. -/
  | checking
  /-- The task sleeps until it is woken. -/
  | sleeping
  /-- Drop the record of the child. -/
  | discarding (status : ExitStatus) (record : Option Record)
  | finished (result : Except ProcessError ExitStatus)
  /-- A check failed. -/
  | crashed (fault : Fault)
deriving Inhabited

/-- The join of `child` by the process `caller`, which runs as `task`. -/
structure Join where
  caller : Pid
  child : Pid
  task : TaskId
  stage : JoinStage
deriving Inhabited

namespace Join

/-- A join at its start. -/
def new (caller child : Pid) (task : TaskId) : Join := ⟨caller, child, task, .checking⟩

/-- The join at another stage. -/
def goTo (j : Join) (stage : JoinStage) : Join := { j with stage := stage }

/-- The next step of the kernel. A join that sleeps or has ended stays as it is. -/
def step (k : Kernel) (j : Join) : Kernel × List Effect × Join :=
  match j.stage with
  | .checking =>
    match k.table.checkJoin j.caller j.child j.task with
    | (.notChild, t) =>
      ({ k with table := t }, [.note (.notChild j.child j.caller)],
        j.goTo (.finished (.error .invalidJoin)))
    | (.busy, t) => ({ k with table := t }, [], j.goTo (.finished (.error .invalidJoin)))
    | (.waiting, t) =>
      ({ k with table := t }, [.note (.waits j.caller j.task j.child)], j.goTo .sleeping)
    | (.collected status record, t) =>
      ({ k with table := t }, [], j.goTo (.discarding status record))
    | (.faulted fault record, t) =>
      ({ k with table := t }, record.toList.flatMap Effect.releaseOf, j.goTo (.crashed fault))
  | .discarding status record =>
    (k, record.toList.flatMap Effect.releaseOf ++ [.note (.collected j.caller j.child status)],
      j.goTo (.finished (.ok status)))
  | _ => (k, [], j)

/-- The sleep of the task has ended, for whatever reason. -/
def woken (j : Join) : Join :=
  match j.stage with
  | .sleeping => j.goTo .checking
  | _ => j

end Join

end Lifecycle
