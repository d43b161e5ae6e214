import Lifecycle.Record

/-!
# Scripts over one record

A script whose steps change a single process record, without a table around it.

* `runRecord`: the result of each step, with the record it leaves.
* `startRecord`: the record before the script, as a child of the parent it has after the script.
-/

namespace Lifecycle.Scenario

/-- A step of a script over one record. -/
inductive RecordStep where
  | setExited (status : ExitStatus)
  | addChild (pid : Pid)
  | removeChild (pid : Pid)
  /-- Take the parent away. -/
  | orphan
deriving Inhabited

/-- How a step of a script over one record ends. -/
inductive RecordResult where
  | done
  /-- Whether the set of children changed. -/
  | changed (changed : Bool)
  | crashed (fault : Fault)
deriving DecidableEq, Inhabited

/-- Runs a step over a record. -/
def RecordStep.run (r : Record) : RecordStep → RecordResult × Record
  | setExited status =>
    match r.setExited status with
    | .ok r => (.done, r)
    | .error fault => (.crashed fault, r)
  | addChild pid => (.changed (!r.children.has pid), { r with children := r.children.add pid })
  | removeChild pid => (.changed (r.children.has pid), { r with children := r.children.remove pid })
  | orphan => (.done, { r with parent := none })

/-- The result of each step of a script over one record, with the record it leaves. -/
def runRecord : List RecordStep → Record → List (RecordResult × Record)
  | [], _ => []
  | step :: rest, r =>
    let (result, r) := step.run r
    (result, r) :: runRecord rest r

/-- The record before a script, as a child of the parent it has after the script. -/
def startRecord (steps : List RecordStep) (r : Record) : Record :=
  { r with parent := (steps.foldl (fun r step => (step.run r).2) r).parent }

end Lifecycle.Scenario
