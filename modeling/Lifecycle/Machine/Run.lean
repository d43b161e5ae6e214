import Lifecycle.Machine.Step

/-!
# Running the machine

A fair schedule: in each round every actor takes one step, if it has one. A run boots the machine
and goes on until nobody has a step left, or until the rounds are used up.

* `Machine.run`: runs the machine.
* `Machine.boot`: boots the machine on an executable and runs it.
* `RunReport`: what a run leaves behind, and whether that is nothing (`RunReport.isClean`).
-/

namespace Lifecycle

namespace Machine

/-- Everyone who may act. -/
def actors (m : Machine) : List Actor := .host :: m.tasks.map (fun t => .task t.serial)

/-- Each of `actors` takes one step, if it has one. Tells whether anyone had. -/
def round : List Actor → Machine → Machine × Bool
  | [], m => (m, false)
  | a :: rest, m =>
    match m.advance a with
    | none => round rest m
    | some m => ((round rest m).1, true)

/-- Runs the machine for a number of rounds, or until nobody has a step left. -/
def run : Nat → Machine → Machine
  | 0, m => m
  | n + 1, m =>
    match round m.actors m with
    | (m, true) => run n m
    | (m, false) => m

/-- The host starts to boot the root process. -/
def startBoot (m : Machine) (name : String) : Machine :=
  { m with host := .booting ⟨.boot m.kernel name, .boot, false⟩ }

/-- The rounds a run may take. -/
def patience : Nat := 1000000

/-- Boots the machine on an executable and runs it. -/
def boot (m : Machine) (name : String) : Machine := run patience (m.startBoot name)

/-- How the last boot ended. -/
def bootResult? (m : Machine) : Option Ended :=
  match m.host with
  | .booted ended => some ended
  | _ => none

/-- Every task is finished. -/
def isIdle (m : Machine) : Bool := m.live == 0

/-- The lines the programs have written, in order. -/
def transcript (m : Machine) : List String := m.written.reverse

end Machine

/-- What a run leaves behind. -/
structure RunReport where
  halted : Bool
  /-- The machine halted, and every task is finished. -/
  idle : Bool
  /-- The processes that still have a record. -/
  leftover : List ProcessInfo
  residentPages : Nat
deriving DecidableEq, Inhabited

namespace RunReport

/-- The machine halted, and nothing is left behind. -/
def isClean (r : RunReport) : Bool :=
  r.halted && r.idle && r.leftover.isEmpty && r.residentPages == 0

end RunReport

/-- The report of a run that has come to its end. -/
def Machine.report (m : Machine) : RunReport where
  halted := m.halted
  idle := m.halted && m.isIdle
  leftover := m.kernel.table.infos
  residentPages := m.residentPages

end Lifecycle
