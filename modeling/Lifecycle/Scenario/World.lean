import Lifecycle.Scenario.Script
import Lifecycle.Syscall.Dispatch

/-!
# The world of a scenario

The surroundings of the kernel in a scenario: a loader that answers from a list, a scheduler that
accepts or refuses every task, a user memory of strings and words, and the record of everything
that happens (`Event`). A step ends with a `Result`, and its `Answer` is the result, the events
and a view of the kernel.
-/

namespace Lifecycle.Scenario

/-- User memory: strings at exact addresses, and the words that were written. -/
structure Memory where
  strings : List (UInt64 × String) := []
  readOnly : Bool := false
  words : List (UInt64 × Int32) := []
deriving Inhabited

namespace Memory

/-- The first address that can be written. -/
def firstWritable : UInt64 := 4096

/-- The string stored at an address, if it is short enough. -/
def readText (m : Memory) (address : UInt64) (limit : Nat) : Option String :=
  (m.strings.lookup address).filter (fun s => s.utf8ByteSize ≤ limit)

/-- The words with one of them set. -/
def setWord (words : List (UInt64 × Int32)) (word : UInt64 × Int32) : List (UInt64 × Int32) :=
  words.filter (fun w => w.1 ≠ word.1) ++ [word]

/-- The memory after a word was written. -/
def writeWord (m : Memory) (address : UInt64) (value : Int32) : Option Memory :=
  if m.readOnly ∨ address < firstWritable then none
  else some { m with words := setWord m.words (address, value) }

instance : UserMemory Memory := ⟨readText, writeWord⟩

/-- The words in increasing order of their addresses. -/
def sortedWords (m : Memory) : List (UInt64 × Int32) := m.words.mergeSort (fun a b => a.1 ≤ b.1)

end Memory

/-- What an observer sees of the kernel. -/
structure View where
  count : Nat
  live : Nat
  /-- Pages held by address spaces. -/
  resident : Nat
  processes : List Snapshot
deriving DecidableEq, Inhabited

/-- How a step ends. -/
inductive Result where
  | pid (pid : Pid)
  | status (status : ExitStatus)
  | done
  /-- The task was retired. -/
  | retired
  /-- A system call returned; `words` is all of user memory that was written. -/
  | returned (raw : Int64) (words : List (UInt64 × Int32))
  | record (snapshot : Snapshot)
  | info (info : Option ProcessInfo)
  | infos (infos : List ProcessInfo)
  | config (config : Config) (capacity : Nat)
  /-- A repeated step: how often it failed, and its last result. -/
  | repeated (failures : Nat) (last : Option Result)
  | refused (error : ProcessError)
  | crashed (fault : Fault)
  /-- The step was abandoned in its sleep. -/
  | asleep
deriving Inhabited

/-- The step failed. -/
def Result.isFailure : Result → Bool
  | refused _ | crashed _ | asleep => true
  | _ => false

/-- What happens during a step. -/
inductive Event where
  | load (name : String)
  | spawn (name : String) (context : UserContext)
  | sleep (task : TaskId)
  /-- A task is woken while `resident` pages are held. -/
  | wake (task : TaskId) (resident : Nat)
  /-- The machine is halted while `resident` pages are held. -/
  | halt (resident : Nat)
  | retire
  | log (notice : Notice)
  /-- Another step ran. -/
  | step (result : Result) (events : List Event) (view : View)

instance : Inhabited Event := ⟨.retire⟩

/-- The answer to a step. -/
structure Answer where
  result : Result
  events : List Event
  view : View
deriving Inhabited

/-- The kernel and its surroundings. -/
structure World where
  kernel : Kernel
  images : Images
  /-- The task that is running. -/
  task : TaskId
  /-- Address spaces built so far. -/
  built : Nat
  /-- Pages held by address spaces. -/
  resident : Nat
  /-- The scheduler refuses every task. -/
  refusing : Bool
  memory : Memory
  /-- What happened in the step under way, latest first. -/
  events : List Event
deriving Inhabited

namespace World

/-- The world before the first step. The loader prefers `images` to the standard ones. -/
def new (config : Config) (range : PidRange) (images : Images) : World where
  kernel := .new config range
  images := images ++ standardImages
  task := ⟨0⟩
  built := 0
  resident := 0
  refusing := false
  memory := {}
  events := []

/-- What an observer sees of the kernel. -/
def view (w : World) : View where
  count := w.kernel.table.count
  live := w.kernel.table.running
  resident := w.resident
  processes := w.kernel.table.snapshots

/-- The world after an event. -/
def record (w : World) (e : Event) : World := { w with events := e :: w.events }

/-- What an effect of the kernel does to the world. -/
def apply (w : World) : Effect → World
  | .note notice => w.record (.log notice)
  | .release space => { w with resident := w.resident - space.pages }
  | .wake task => w.record (.wake task w.resident)
  | .halt => w.record (.halt w.resident)

/-- The loader answers. An image that is loaded holds its pages from now on. -/
def load (w : World) (name : String) : Except LoadError LoadedImage × World :=
  match w.images.lookup name with
  | none => (.error .notFound, w)
  | some (.error e) => (.error e, w)
  | some (.ok file) =>
    (.ok ⟨file.entry, file.stack, ⟨w.built, file.pages⟩⟩,
      { w with built := w.built + 1, resident := w.resident + file.pages })

/-- The scheduler answers. -/
def spawn (w : World) : Except SpawnError Unit :=
  if w.refusing then .error .noResources else .ok ()

end World

end Lifecycle.Scenario
