import Lifecycle.Machine.Loader
import Lifecycle.Syscall.Dispatch

/-!
# The state of the machine

A `Machine` runs each process on a task of its own. Its host is no task; it boots the root
process. A task runs a program, or is inside the kernel on an `Errand`: a call of the kernel and
what becomes of the task when the call has ended.

The scheduler keeps one wakeup for each task (`Task.permit`): a wakeup that arrives before the
task sleeps lets the sleep end at once. It allows a limited number of live tasks. A place is
claimed before the task is created, and given back when the task has finished.

The number by which the kernel knows a task (`Task.id`) is a word of a register. The scheduler finds
the task of a number in a table of threads, where a task is entered when it is created.
-/

namespace Lifecycle

/-- Where an errand in the kernel comes from, and so what follows it. -/
inductive Origin where
  /-- The host boots the root process. -/
  | boot
  /-- A program trapped. It goes on with the return register and its memory. -/
  | trap (slot : UInt64) (memory : Bytes) (next : Int64 → Bytes → Program)
  /-- A program raised an exception. Its task is retired. -/
  | exception

instance : Inhabited Origin := ⟨.boot⟩

/-- A call of the kernel under way. -/
structure Errand where
  call : Call
  origin : Origin
  /-- The call is creating a task, and a place for it is claimed. -/
  claimed : Bool
deriving Inhabited

/-- What a task does. -/
inductive Activity where
  /-- It runs a program. -/
  | running (program : Program)
  /-- It is inside the kernel. -/
  | inKernel (errand : Errand)
  /-- It has left the kernel for good. -/
  | retiring

instance : Inhabited Activity := ⟨.retiring⟩

/-- A task and the process it runs. -/
structure Task where
  /-- How many task numbers were given out before. -/
  serial : Nat
  pid : Pid
  /-- A wakeup that has not been used. -/
  permit : Bool
  activity : Activity
deriving Inhabited

/-- The number of the task of a serial number. -/
def TaskId.ofSerial (serial : Nat) : TaskId := ⟨UInt64.ofNat serial⟩

/-- The number of the task. -/
def Task.id (t : Task) : TaskId := .ofSerial t.serial

/-- What the host does. -/
inductive Host where
  | idle
  /-- It boots the root process. -/
  | booting (errand : Errand)
  /-- The boot has ended. -/
  | booted (ended : Ended)
deriving Inhabited

/-- A machine. -/
structure Machine where
  kernel : Kernel
  loader : Loader
  /-- Most live tasks. -/
  maxTasks : Nat
  /-- Tasks that are not finished, and places claimed for new ones. -/
  live : Nat
  /-- The serial number of the next task. -/
  nextTask : Nat
  tasks : List Task
  /-- The serial numbers of the tasks that wakeups reach. -/
  threads : List (TaskId × Nat)
  host : Host
  halted : Bool
  /-- The lines the programs have written, latest first. -/
  written : List String
  /-- The semaphores that are above zero. -/
  semaphores : List (String × Nat)
deriving Inhabited

namespace Machine

/-- The task number that calls of the host run under. -/
def hostTask : TaskId := ⟨0xffffffffffffffff⟩

/-- A machine before its root process. -/
def new (config : Config) (registry : Registry) (pages maxTasks : Nat) : Machine where
  kernel := .new config .standard
  loader := .new registry pages
  maxTasks := maxTasks
  live := 0
  nextTask := 0
  tasks := []
  threads := []
  host := .idle
  halted := false
  written := []
  semaphores := []

/-- Pages held by address spaces. -/
def residentPages (m : Machine) : Nat := m.loader.pool.used

/-- The task of a serial number. -/
def task? (m : Machine) (serial : Nat) : Option Task :=
  m.tasks.find? (fun t => t.serial = serial)

/-- The machine with `f` applied to the task `serial`. -/
def adjustTask (m : Machine) (serial : Nat) (f : Task → Task) : Machine :=
  { m with tasks := m.tasks.map (fun t => if t.serial = serial then f t else t) }

/-- The machine with the task `serial` at another activity. -/
def proceed (m : Machine) (serial : Nat) (activity : Activity) : Machine :=
  m.adjustTask serial (fun t => { t with activity := activity })

/-- The machine with the wakeup of a task given. -/
def permit (m : Machine) (serial : Nat) : Machine :=
  m.adjustTask serial (fun t => { t with permit := true })

/-- What an effect of the kernel does to the machine. A wakeup for a task that is gone has no
effect. -/
def apply (m : Machine) : Effect → Machine
  | .note _ => m
  | .release space => { m with loader := m.loader.drop space }
  | .wake task => (m.threads.lookup task).elim m m.permit
  | .halt => { m with halted := true }

/-- What the effects of a step do to the machine. -/
def applyAll (m : Machine) (effects : List Effect) : Machine := effects.foldl apply m

/-- The value of a semaphore. -/
def semaphore (m : Machine) (token : String) : Nat := (m.semaphores.lookup token).getD 0

/-- The machine with another value of a semaphore. -/
def setSemaphore (m : Machine) (token : String) (value : Nat) : Machine :=
  { m with semaphores := (token, value) :: m.semaphores.filter (fun e => e.1 ≠ token) }

end Machine

end Lifecycle
