import Lifecycle.Machine.Loader

/-!
# Scripts over the loader of the machine

A script loads executables and drops the address spaces again. Each load that succeeds fills the
next slot. A fault of the machine ends the script without results.
-/

namespace Lifecycle.Scenario

/-- A step of a loader script. -/
inductive LoaderStep where
  | load (name : String)
  | drop (slot : Nat)
  /-- Whether an executable is a program. -/
  | hasBody (name : String)
deriving Inhabited

/-- How a step of a loader script ends. -/
inductive LoaderResult where
  | loaded (image : LoadedImage)
  | failed (error : LoadError)
  | found (found : Bool)
deriving DecidableEq, Inhabited

/-- The loader, and the address spaces it has built, slot by slot. -/
structure LoaderBench where
  loader : Loader
  slots : List (Option AddressSpace)
deriving Inhabited

/-- Runs a step. -/
def LoaderStep.run (b : LoaderBench) : LoaderStep → Except Fault (LoaderResult × LoaderBench)
  | load name =>
    match b.loader.load name with
    | (.ok (.ok image), l) => .ok (.loaded image, ⟨l, b.slots ++ [some image.space]⟩)
    | (.ok (.error e), l) => .ok (.failed e, ⟨l, b.slots⟩)
    | (.error fault, _) => .error fault
  | drop slot =>
    match b.slots[slot]? with
    | some (some space) => .ok (.found true, ⟨b.loader.drop space, b.slots.set slot none⟩)
    | _ => .ok (.found false, b)
  | hasBody name => .ok (.found (b.loader.registry.body? name).isSome, b)

/-- The result of each step of a loader script, with the pages then in use. -/
def runLoader : List LoaderStep → LoaderBench → Except Fault (List (LoaderResult × Nat))
  | [], _ => .ok []
  | step :: rest, b => do
    let (result, b) ← step.run b
    return (result, b.loader.pool.used) :: (← runLoader rest b)

end Lifecycle.Scenario
