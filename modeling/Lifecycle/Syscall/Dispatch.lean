import Lifecycle.Call
import Lifecycle.Memory.User
import Lifecycle.Syscall.Registers

/-!
# Dispatch of system calls

A system call of a process enters the kernel with its registers and a view of the memory of the
process. It either has its answer at once, or starts a call of the kernel (`enter`). When that
call has ended, `leave` writes the collected status into user memory and gives the value of the
return register, or tells that the task of the process is to be retired.

* exec: `arg1` is the address of the name and `arg2` the number of arguments. Answers the PID.
* join: `arg1` is the PID of the child and `arg2` the address of the status slot. Answers 1 if the
  child exited, with the exit code in the slot, and 0 if it was killed.
* exit: `arg1` is the exit code. Does not return.
* halt: answers 0.
-/

namespace Lifecycle

/-- What a system call does first. -/
inductive Entry where
  /-- It has its answer without a call of the kernel. -/
  | answered (result : SyscallResult)
  | started (call : Call)
deriving Inhabited

/-- How a trap into the kernel ends for the task that made it. -/
inductive Reply where
  /-- The task goes on with this value in its return register. -/
  | returns (raw : Int64)
  /-- The task is retired. -/
  | retires
deriving DecidableEq, Inhabited

namespace Kernel

/-- The call of the kernel behind a system call. -/
def call {μ : Type} [UserMemory μ] (k : Kernel) (caller : Pid) (task : TaskId) (r : Registers)
    (memory : μ) : Syscall → Entry
  | .halt => .started (.halt (.asked caller))
  | .exit => .started (.terminate (.exit caller (Registers.signed32 r.arg1)))
  | .exec =>
    match UserMemory.readText memory r.arg1 k.config.maxNameLength with
    | none => .answered (.error .invalidArgument)
    | some name => .started (.exec k caller name (Registers.signed32 r.arg2))
  | .join =>
    match k.range.decode (Registers.signed32 r.arg1).toInt64 with
    | none => .answered (.error .invalidJoin)
    | some child => .started (.join (.new caller child task))

/-- The start of a system call of `caller`, which runs as `task`. -/
def enter {μ : Type} [UserMemory μ] (k : Kernel) (caller : Pid) (task : TaskId) (r : Registers)
    (memory : μ) : List Effect × Entry :=
  match Syscall.ofNumber? r.number with
  | none => ([.note (.unknownSyscall caller r.number)], .answered (.error .invalidSyscall))
  | some s =>
    ([.note (.entered caller s r.arg1 r.arg2 r.arg3)], k.call caller task r memory s)

/-- The start of the kernel's answer to an exception of `caller`. -/
def exception (caller : Pid) : Call := .terminate (.kill caller)

end Kernel

namespace SyscallResult

/-- The result of a system call whose operation answers with a value or a process error. -/
def ofExcept {α : Type} (value : α → UInt64) : Except ProcessError α → SyscallResult
  | .ok a => .ok (value a)
  | .error e => .error e.toSyscallError

/-- The return of a result to the task. -/
def reply (caller : Pid) (result : SyscallResult) : List Effect × Reply :=
  ([.note (.returned caller result)], .returns result.raw)

end SyscallResult

namespace Ended

/-- What is left to report when a task is retired whose process had no record any more. -/
def unrecorded (caller : Pid) (status : ExitStatus) : Except ProcessError Unit → List Effect
  | .ok () => []
  | .error e => [.note (.exitUnrecorded caller status e)]

/-- The end of a trap of `caller`, which passed `slot` as the address for an exit code. A call that
failed one of the kernel's checks returns nothing. -/
def leave {μ : Type} [UserMemory μ] (caller : Pid) (slot : UInt64) (memory : μ) :
    Ended → Except Fault (List Effect × Reply × μ)
  | .launched result =>
    let (effects, reply) := (SyscallResult.ofExcept (·.number.toUInt64) result).reply caller
    .ok (effects, reply, memory)
  | .joined child (.ok (.code code)) =>
    match UserMemory.writeWord memory slot code with
    | some written =>
      let (effects, reply) := SyscallResult.reply caller (.ok 1)
      .ok (effects, reply, written)
    | none =>
      let (effects, reply) := SyscallResult.reply caller (.error .invalidArgument)
      .ok (.note (.slotNotWritable caller child slot) :: effects, reply, memory)
  | .joined _ result =>
    let (effects, reply) := (SyscallResult.ofExcept (fun _ => 0) result).reply caller
    .ok (effects, reply, memory)
  | .terminated status result => .ok (unrecorded caller status result, .retires, memory)
  | .halted result =>
    let (effects, reply) := (SyscallResult.ofExcept (fun _ => 0) result).reply caller
    .ok (effects, reply, memory)
  | .crashed fault => .error fault

/-- The end of a trap is written to the log only. -/
theorem leave_notes {μ : Type} [UserMemory μ] {caller : Pid} {slot : UInt64} {memory : μ}
    {ended : Ended} {effects : List Effect} {out : Reply × μ}
    (h : ended.leave caller slot memory = .ok (effects, out)) :
    ∀ e ∈ effects, ∃ n, e = .note n := by
  unfold leave at h
  split at h
  case h_2 =>
    split at h
    · cases h
      simp
    · cases h
      simp
  case h_4 result =>
    cases h
    unfold unrecorded
    split <;> simp
  case h_6 => cases h
  all_goals
    cases h
    simp

end Ended

end Lifecycle
