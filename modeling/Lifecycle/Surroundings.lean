import Lifecycle.Syscall.Dispatch

/-!
# The kernel in its surroundings

`Surroundings` say how a machine answers the requests of the kernel's calls and carries out their
effects. Nothing is assumed of the answers, and while it answers the machine may do what it likes,
calls of the kernel included.

* `Surroundings.drive`: runs a call to its end, on one task, without steps of others in between
  except while it waits.
* `Surroundings.dispatch`: runs a system call.
* `Surroundings.raise`: runs the kernel's answer to an exception.
-/

namespace Lifecycle

/-- How a machine surrounds a kernel. `W` is the state of the machine, the kernel included. -/
structure Surroundings (W : Type) where
  kernel : W → Kernel
  withKernel : W → Kernel → W
  /-- The task that runs. -/
  task : W → TaskId
  /-- Carries out an effect. -/
  apply : W → Effect → W
  /-- The loader builds the address space of an executable. -/
  load : W → String → Except LoadError LoadedImage × W
  /-- The scheduler creates a task. -/
  spawn : W → String → UserContext → Except SpawnError Unit × W
  /-- The task sleeps. Tells whether it is ever woken. -/
  sleep : W → Bool × W

/-- How a trap into the kernel ends. -/
inductive TrapEnd (μ : Type) where
  /-- The task sleeps for good. -/
  | asleep
  /-- A check of the kernel failed. -/
  | crashed (fault : Fault)
  | replied (reply : Reply) (memory : μ)
deriving Inhabited

namespace Surroundings

variable {W : Type} (s : Surroundings W)

/-- Carries out effects in order. -/
def applyAll (w : W) (effects : List Effect) : W := effects.foldl s.apply w

/-- Runs a call until it waits or has ended. -/
def settle (c : Call) (w : W) : Call × W :=
  let (k, effects, c) := c.settle (s.kernel w)
  (c, s.applyAll (s.withKernel w k) effects)

/-- Runs a call to its end, which may take less than `n` requests. There is no end if the call
makes more of them, or sleeps for good. -/
def drive : Nat → Call → W → Option Ended × W
  | 0, _, w => (none, w)
  | n + 1, c, w =>
    let (c, w) := s.settle c w
    match c.request? with
    | none => (c.ended?, w)
    | some (.load name) =>
      let (answer, w) := s.load w name
      let (effects, c) := c.loaded answer
      drive n c (s.applyAll w effects)
    | some (.spawn name context) =>
      let (answer, w) := s.spawn w name context
      let (effects, c) := c.spawned answer
      drive n c (s.applyAll w effects)
    | some .sleep =>
      match s.sleep w with
      | (true, w) => drive n c.woken w
      | (false, w) => (none, w)

variable {μ : Type} [UserMemory μ]

/-- Runs the call behind a trap of `caller` to its end, and ends the trap. -/
def serve (n : Nat) (caller : Pid) (slot : UInt64) (memory : μ) (c : Call) (w : W) :
    TrapEnd μ × W :=
  match s.drive n c w with
  | (none, w) => (.asleep, w)
  | (some ended, w) =>
    match ended.leave caller slot memory with
    | .error fault => (.crashed fault, w)
    | .ok (effects, reply, memory) => (.replied reply memory, s.applyAll w effects)

/-- Runs a system call of `caller`. -/
def dispatch (n : Nat) (caller : Pid) (r : Registers) (memory : μ) (w : W) : TrapEnd μ × W :=
  match (s.kernel w).enter caller (s.task w) r memory with
  | (effects, .started c) => s.serve n caller r.arg2 memory c (s.applyAll w effects)
  | (effects, .answered result) =>
    let (more, reply) := result.reply caller
    (.replied reply memory, s.applyAll w (effects ++ more))

/-- Runs the kernel's answer to an exception of `caller`. -/
def raise (n : Nat) (caller : Pid) (memory : μ) (w : W) : TrapEnd μ × W :=
  s.serve n caller 0 memory (Kernel.exception caller) w

end Surroundings

end Lifecycle
