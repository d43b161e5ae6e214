import Lifecycle.Machine.Program
import Lifecycle.Proofs.Sequential.Books
import Lifecycle.Proofs.Syscall.FlatMemory
import Mathlib.Algebra.Ring.Int.Defs

/-!
# The user library over the dispatch

The user library and the dispatch each have their own half of the system call convention. Put
together, a library call answers what the kernel's call behind it answers.

* `Call.Fits`: how a call can end (`Surroundings.drive_fits`).
* `UserLibrary.View`: a memory in which the library can keep its locals.
* `UserLibrary.View.exec`, `join`, `exit`, `halt`: the library calls, over a trap that dispatches.
* `UserLibrary.Conveys`: what a library call makes of the end of a call of the kernel.
* `UserLibrary.View.faithful`: each library call does what the call of the kernel behind it does,
  and answers what that one answers.
* `UserLibrary.flatView`: the locals of a program in flat memory.
-/

namespace Lifecycle

/-! ## How calls end -/

namespace Call

/-- How a call can end. -/
def Fits : Call → Ended → Prop
  | launch _, .launched _ => True
  | join j, .joined child _ => child = j.child
  | terminate e, .terminated status _ => status = e.status
  | halt _, .halted _ => True
  | _, .crashed _ => True
  | _, _ => False

/-- Two stages of one call. -/
inductive Kin : Call → Call → Prop where
  | launch (l l' : Launch) : Kin (.launch l) (.launch l')
  | join {j j' : Join} : j'.child = j.child → Kin (.join j) (.join j')
  | terminate {e e' : Termination} : e'.status = e.status → Kin (.terminate e) (.terminate e')
  | halt (h h' : HaltRequest) : Kin (.halt h) (.halt h')

variable {c c' c'' : Call} {ended : Ended}

theorem Kin.refl (c : Call) : Kin c c := by
  cases c with
  | launch l => exact .launch l l
  | join j => exact .join rfl
  | terminate e => exact .terminate rfl
  | halt h => exact .halt h h

theorem Kin.trans (h : Kin c c') (h' : Kin c' c'') : Kin c c'' := by
  cases h with
  | launch => cases h'; exact .launch ..
  | join h => cases h' with | join h' => exact .join (h'.trans h)
  | terminate h => cases h' with | terminate h' => exact .terminate (h'.trans h)
  | halt => cases h'; exact .halt ..

theorem Kin.fits (h : Kin c c') (hf : c'.Fits ended) : c.Fits ended := by
  cases h with
  | launch => cases ended <;> exact hf
  | join h => cases ended <;> first | exact hf | exact Eq.trans hf h
  | terminate h => cases ended <;> first | exact hf | exact Eq.trans hf h
  | halt => cases ended <;> exact hf

theorem fits_ended (h : c.ended? = some ended) : c.Fits ended := by
  cases c with
  | launch l => cases l <;> cases h <;> trivial
  | join j => obtain ⟨_, _, _, s⟩ := j; cases s <;> cases h <;> trivial
  | terminate e => obtain ⟨_, _, s⟩ := e; cases s <;> cases h <;> trivial
  | halt r => cases r <;> cases h; trivial

theorem kin_step (k : Kernel) (c : Call) : Kin c (c.step k).2.2 := by
  cases c with
  | launch l => exact .launch ..
  | join j =>
    refine .join ?_
    show (j.step k).2.2.child = _
    unfold Join.step
    split
    · split <;> rfl
    · rfl
    · rfl
  | terminate e =>
    refine .terminate ?_
    show (e.step k).2.2.status = _
    unfold Termination.step
    split
    · split <;> rfl
    all_goals rfl
  | halt h => exact .halt ..

theorem kin_steps (k : Kernel) (c : Call) (n : Nat) : Kin c (c.steps k n).2.2 := by
  induction n generalizing k c with
  | zero => exact .refl c
  | succ n ih => exact (kin_step k c).trans (ih _ _)

theorem kin_settle (k : Kernel) (c : Call) : Kin c (c.settle k).2.2 := kin_steps k c _

theorem kin_loaded (answer : Except LoadError LoadedImage) (c : Call) :
    Kin c (c.loaded answer).2 := by
  cases c with
  | launch l => exact .launch ..
  | _ => exact .refl _

theorem kin_spawned (answer : Except SpawnError Unit) (c : Call) : Kin c (c.spawned answer).2 := by
  cases c with
  | launch l => exact .launch ..
  | _ => exact .refl _

theorem kin_woken (c : Call) : Kin c c.woken := by
  cases c with
  | join j =>
    refine .join ?_
    unfold Join.woken
    split <;> rfl
  | _ => exact .refl _

end Call

theorem Surroundings.drive_fits {W : Type} (s : Surroundings W) (n : Nat) (c : Call) (w : W)
    {ended : Ended} (h : (s.drive n c w).1 = some ended) : c.Fits ended := by
  induction n generalizing c w with
  | zero => cases h
  | succ n ih =>
    have hk : Call.Kin c (s.settle c w).1 := c.kin_settle (s.kernel w)
    rcases hs : s.settle c w with ⟨c₁, w₁⟩
    rw [hs] at hk
    refine hk.fits ?_
    simp only [drive, hs] at h
    split at h
    · exact Call.fits_ended h
    · exact (Call.kin_loaded _ _).fits (ih _ _ h)
    · exact (Call.kin_spawned _ _).fits (ih _ _ h)
    · split at h
      · exact (Call.kin_woken _).fits (ih _ _ h)
      · cases h

/-- A termination waits for nothing. -/
theorem Surroundings.drive_terminate {W : Type} (s : Surroundings W) (n : Nat) (e : Termination)
    (w : W) : ∃ ended, (s.drive (n + 1) (.terminate e) w).1 = some ended := by
  have hk : Call.Kin (.terminate e) (s.settle (.terminate e) w).1 := Call.kin_settle _ _
  have hs : (s.settle (.terminate e) w).1.stepsLeft = 0 := Call.stepsLeft_settle _ _
  rcases he : s.settle (.terminate e) w with ⟨c, x⟩
  rw [he] at hk hs
  cases hk with
  | @terminate _ e' =>
    have hr : (Call.terminate e').request? = none := rfl
    have hended := (Call.stepsLeft_eq_zero_iff _).1 hs
    rw [hr] at hended
    obtain ⟨ended, h⟩ := Option.isSome_iff_exists.1 (hended.resolve_left (by simp))
    exact ⟨ended, by simp only [drive, he, hr, h]⟩

/-! ## Library calls -/

/-- The error of the library with the name of a process error. -/
def UserError.ofProcess : ProcessError → UserError
  | .resourceExhausted => .syscall .resourceExhausted
  | .notFound => .syscall .notFound
  | .invalidJoin => .syscall .invalidJoin
  | .loadFailure => .syscall .loadFailure
  | .invalidArgument _ => .syscall .invalidArgument
  | .permissionDenied => .syscall .permissionDenied

/-- How a joined child ended. -/
def JoinStatus.ofExit : ExitStatus → JoinStatus
  | .code code => .exited code
  | .abnormal => .killed

namespace UserLibrary

/-- How a library call ends. -/
inductive LibraryEnd (α : Type) where
  | returned (answer : α)
  /-- The task is retired. -/
  | retired
  /-- The task sleeps for good. -/
  | asleep
  /-- A check of the kernel failed. -/
  | crashed (fault : Fault)
deriving DecidableEq

/-- The library makes an answer of the return register and the memory after the trap. -/
def LibraryEnd.ofTrap {μ α : Type} (read : Int64 → μ → α) : TrapEnd μ → LibraryEnd α
  | .asleep => .asleep
  | .crashed fault => .crashed fault
  | .replied (.returns raw) memory => .returned (read raw memory)
  | .replied .retires _ => .retired

/-- What a library call makes of the end of a call of the kernel, which gives a value or a process
error. -/
inductive Conveys {α β : Type} (wrap : Except ProcessError α → Ended) (value : α → β) :
    Option Ended → LibraryEnd (Except UserError β) → Prop where
  | ok (a : α) : Conveys wrap value (some (wrap (.ok a))) (.returned (.ok (value a)))
  | error (e : ProcessError) :
      Conveys wrap value (some (wrap (.error e))) (.returned (.error (.ofProcess e)))
  | asleep : Conveys wrap value none .asleep
  | crashed (fault : Fault) : Conveys wrap value (some (.crashed fault)) (.crashed fault)

/-- What it makes of the end of a termination. -/
inductive ConveysEnd (status : ExitStatus) : Option Ended → LibraryEnd Unit → Prop where
  | retired (result : Except ProcessError Unit) :
      ConveysEnd status (some (.terminated status result)) .retired
  | crashed (fault : Fault) : ConveysEnd status (some (.crashed fault)) (.crashed fault)

/-- The library call makes the right thing of the end of the kernel's call, and leaves the same
state. -/
def Matches {α W : Type} (conveys : Option Ended → LibraryEnd α → Prop)
    (kernel : Option Ended × W) (library : LibraryEnd α × W) : Prop :=
  conveys kernel.1 library.1 ∧ library.2 = kernel.2

/-- A memory in which the library keeps its locals, a buffer for names and a status slot. -/
structure View (μ : Type) [UserMemory μ] where
  /-- The memory with these bytes in the buffer. -/
  named : List UInt8 → μ
  buffer : UInt64
  /-- The address of the arguments. -/
  argv : UInt64
  /-- A name is read from the buffer if it is not too long. -/
  readText_named : ∀ (name : String) (bytes : List UInt8) (limit : Nat),
    nameBuffer name = some bytes →
    UserMemory.readText (named bytes) buffer limit =
      if name.utf8ByteSize ≤ limit then some name else none
  /-- The memory at the start of a join. -/
  cleared : μ
  slot : UInt64
  /-- What the status slot holds. -/
  status : μ → Int32
  /-- The status slot can be written. -/
  writeWord_cleared : ∀ code, ∃ written,
    UserMemory.writeWord cleared slot code = some written ∧ status written = code

namespace View

variable {μ W : Type} [UserMemory μ] (v : View μ) (s : Surroundings W) (n : Nat) (caller : Pid)
  (w : W)

/-- Runs the executable `name` in a new child, with `argc` arguments. -/
def exec (name : String) (argc : Nat) : LibraryEnd (Except UserError UInt32) × W :=
  match nameBuffer name with
  | none => (.returned (.error (.syscall .invalidArgument)), w)
  | some bytes =>
    let (trap, w) := s.dispatch n caller (execTrap v.buffer argc v.argv) (v.named bytes) w
    (.ofTrap (fun raw _ => execReply raw) trap, w)

/-- Waits for the child `pid`. -/
def join (pid : UInt32) : LibraryEnd (Except UserError JoinStatus) × W :=
  let (trap, w) := s.dispatch n caller (joinTrap pid v.slot) v.cleared w
  (.ofTrap (fun raw memory => joinReply raw (v.status memory)) trap, w)

/-- Ends the process. If the trap comes back, the library waits for ever. -/
def exit (code : Int32) : LibraryEnd Unit × W :=
  let (trap, w) := s.dispatch n caller (exitTrap code) v.cleared w
  (.ofTrap (fun _ _ => ()) trap, w)

/-- Stops the machine. -/
def halt : LibraryEnd (Except UserError Unit) × W :=
  let (trap, w) := s.dispatch n caller haltTrap v.cleared w
  (.ofTrap (fun raw _ => haltReply raw) trap, w)

/-- Each call of the library does what the call of the kernel behind it does, and answers what that
one answers. -/
structure Faithful : Prop where
  /-- A name that does not fit the buffer does not get into the kernel. -/
  refused : ∀ (name : String) (argc : Nat),
    maxNameLength < name.utf8ByteSize ∨ 0 ∈ name.toUTF8.data.toList →
    v.exec s n caller w name argc = (.returned (.error (.syscall .invalidArgument)), w)
  exec : ∀ (name : String) (argc : Nat),
    ¬ (maxNameLength < name.utf8ByteSize ∨ 0 ∈ name.toUTF8.data.toList) →
    Matches (Conveys .launched (·.number))
      (s.drive n (.exec (s.kernel w) caller name (.ofNat argc)) w) (v.exec s n caller w name argc)
  join : ∀ pid, Matches (Conveys (.joined ⟨pid⟩) .ofExit)
    (s.drive n (.join (.new caller ⟨pid⟩ (s.task w))) w) (v.join s n caller w pid)
  exit : ∀ code, Matches (ConveysEnd (.code code))
    (s.drive n (.terminate (.exit caller code)) w) (v.exit s n caller w code)
  halt : Matches (Conveys .halted id) (s.drive n (.halt (.asked caller)) w)
    (v.halt s n caller w)

end View

/-! ## Return registers -/

/-- The error that a return register says, whatever is made of a value. -/
theorem map_convert_error {β : Type} (f : UInt64 → β) (e : ProcessError) :
    (convert (SyscallResult.raw (.error e.toSyscallError))).map f = .error (.ofProcess e) := by
  cases e <;> rfl

/-- A PID is not negative. -/
theorem execReply_pid (pid : UInt32) :
    execReply (SyscallResult.raw (.ok pid.toUInt64)) = .ok pid := by
  have h : (0 : Int64) ≤ pid.toUInt64.toInt64 := by
    have hp := pid.toNat_lt
    rw [Int64.le_iff_toInt_le]
    show 0 ≤ pid.toUInt64.toBitVec.toInt
    rw [BitVec.toInt_eq_toNat_cond]
    show (0 : Int) ≤ if 2 * pid.toUInt64.toNat < 2 ^ 64 then _ else _
    rw [UInt32.toNat_toUInt64, if_pos (by omega)]
    exact Int.natCast_nonneg _
  simp [execReply, convert, SyscallResult.raw, h, Except.map]

/-! ## Registers -/

theorem signed32_ofNat (argc : Nat) :
    Registers.signed32 (UInt64.ofNat argc) = Int32.ofNat argc := by
  simp [Registers.signed32]

/-- The low half of a number that was widened. -/
theorem toUInt32_widened (code : Int32) : code.toInt64.toUInt64.toUInt32 = code.toUInt32 := by
  refine UInt32.toBitVec_inj.1 (BitVec.eq_of_getLsbD_eq fun i hi => ?_)
  show ((code.toBitVec.signExtend 64).setWidth 32).getLsbD i = code.toBitVec.getLsbD i
  rw [BitVec.getLsbD_setWidth, BitVec.getLsbD_signExtend]
  simp [hi, show i < 64 by omega]

theorem signed32_ofSigned32 (code : Int32) :
    Registers.signed32 (Registers.ofSigned32 code) = code := by
  rw [Registers.signed32, Registers.ofSigned32, toUInt32_widened]
  rfl

theorem toInt_toInt32 (n : UInt32) : n.toInt32.toInt =
    if 2 * n.toNat < 2 ^ 32 then (n.toNat : Int) else n.toNat - 2 ^ 32 :=
  BitVec.toInt_eq_toNat_cond n.toBitVec

/-- A number of the range is the PID of the register that holds it. Any other number names none. -/
theorem decode_toUInt64 {range : PidRange} (hr : range.largest ≤ PidRange.standard.largest)
    (pid : UInt32) : range.decode (Registers.signed32 pid.toUInt64).toInt64 =
      if pid ≤ range.largest then some ⟨pid⟩ else none := by
  have hs : Registers.signed32 pid.toUInt64 = pid.toInt32 := by
    rw [Registers.signed32, UInt32.toUInt32_toUInt64]
  have hr : range.largest.toNat < 2 ^ 31 := Nat.lt_succ_of_le (UInt32.le_iff_toNat_le.1 hr)
  have hiff : 0 ≤ pid.toInt32.toInt ∧ pid.toInt32.toInt ≤ range.largest.toNat ↔
      pid ≤ range.largest := by
    have hp := pid.toNat_lt
    rw [toInt_toInt32, UInt32.le_iff_toNat_le]
    split <;> omega
  rw [PidRange.decode, hs, Int32.toInt_toInt64, toUInt32_widened]
  simp only [hiff]
  rfl

end UserLibrary

/-! ## Traps -/

/-- How a trap ends whose call has ended so. -/
def TrapEnd.ofCall {μ : Type} [UserMemory μ] (caller : Pid) (slot : UInt64) (memory : μ) :
    Option Ended → TrapEnd μ
  | none => .asleep
  | some ended =>
    match ended.leave caller slot memory with
    | .error fault => .crashed fault
    | .ok (_, reply, memory) => .replied reply memory

namespace Kernel

variable {μ : Type} [UserMemory μ] {k : Kernel} {caller child : Pid} {task : TaskId}
  {r : Registers} {memory : μ}

theorem enter_eq (k : Kernel) (caller : Pid) (task : TaskId) (memory : μ) {call : Syscall}
    (h : r.number = call.number) : k.enter caller task r memory =
      ([.note (.entered caller call r.arg1 r.arg2 r.arg3)], k.call caller task r memory call) := by
  rw [enter, h, Syscall.ofNumber?_number]

theorem call_exec {name : String}
    (h : UserMemory.readText memory r.arg1 k.config.maxNameLength = some name) :
    k.call caller task r memory .exec =
      .started (.exec k caller name (Registers.signed32 r.arg2)) := by
  rw [call, h]

theorem call_exec_unread
    (h : UserMemory.readText memory r.arg1 k.config.maxNameLength = none) :
    k.call caller task r memory .exec = .answered (.error .invalidArgument) := by
  rw [call, h]

theorem call_join (h : k.range.decode (Registers.signed32 r.arg1).toInt64 = some child) :
    k.call caller task r memory .join = .started (.join (.new caller child task)) := by
  rw [call, h]

theorem call_join_undecoded (h : k.range.decode (Registers.signed32 r.arg1).toInt64 = none) :
    k.call caller task r memory .join = .answered (.error .invalidJoin) := by
  rw [call, h]

end Kernel

namespace Surroundings

variable {W μ : Type} [UserMemory μ] {s : Surroundings W} {n : Nat} {c : Call} {caller : Pid}
  {r : Registers} {memory : μ} {w : W} {call : Syscall}

/-- The log is no part of the state. -/
structure Quiet (s : Surroundings W) : Prop where
  note : ∀ w n, s.apply w (.note n) = w
  same : ∀ w, s.withKernel w (s.kernel w) = w

theorem Quiet.applyAll_notes (hs : s.Quiet) {effects : List Effect}
    (hn : ∀ e ∈ effects, ∃ n, e = .note n) (w : W) : s.applyAll w effects = w := by
  induction effects with
  | nil => rfl
  | cons e es ih =>
    obtain ⟨n, rfl⟩ := hn e (.head _)
    rw [applyAll, List.foldl_cons, hs.note]
    exact ih fun e he => hn e (.tail _ he)

/-- A call that has ended at its start, with the log aside. -/
theorem Quiet.drive_ended {effects : List Effect} {c' : Call} (hs : s.Quiet) (n : Nat)
    (h : c.settle (s.kernel w) = (s.kernel w, effects, c')) (hc : c'.request? = none)
    (hn : ∀ e ∈ effects, ∃ n, e = .note n) : s.drive (n + 1) c w = (c'.ended?, w) := by
  rw [Surroundings.drive_ended n h hc, hs.same, hs.applyAll_notes hn]

theorem Quiet.serve_eq (hs : s.Quiet) (n : Nat) (caller : Pid) (slot : UInt64) (memory : μ)
    (c : Call) (w : W) : s.serve n caller slot memory c w =
      (.ofCall caller slot memory (s.drive n c w).1, (s.drive n c w).2) := by
  rw [serve]
  rcases s.drive n c w with ⟨_ | ended, w⟩
  · rfl
  · cases hl : ended.leave caller slot memory with
    | error fault => simp only [TrapEnd.ofCall, hl]
    | ok out =>
      simp only [TrapEnd.ofCall, hl]
      rw [hs.applyAll_notes (Ended.leave_notes hl)]

theorem Quiet.dispatch_started (hs : s.Quiet) (h : r.number = call.number)
    (hc : (s.kernel w).call caller (s.task w) r memory call = .started c) :
    s.dispatch n caller r memory w =
      (.ofCall caller r.arg2 memory (s.drive n c w).1, (s.drive n c w).2) := by
  rw [dispatch, Kernel.enter_eq _ _ _ _ h, hc]
  simp only []
  rw [hs.applyAll_notes (by simp), hs.serve_eq]

theorem Quiet.dispatch_answered {result : SyscallResult} (hs : s.Quiet)
    (h : r.number = call.number)
    (hc : (s.kernel w).call caller (s.task w) r memory call = .answered result) :
    s.dispatch n caller r memory w = (.replied (.returns result.raw) memory, w) := by
  rw [dispatch, Kernel.enter_eq _ _ _ _ h, hc]
  simp only [SyscallResult.reply]
  rw [hs.applyAll_notes (by simp)]

end Surroundings

/-! ## The calls -/

namespace UserLibrary

section conveys

variable {μ : Type} [UserMemory μ] {caller child : Pid} {slot : UInt64} {memory : μ}
  {ended? : Option Ended}

theorem conveys_launch (l : Launch)
    (h : ∀ ended, ended? = some ended → (Call.launch l).Fits ended) :
    Conveys .launched (·.number) ended?
      (.ofTrap (fun raw _ => execReply raw) (.ofCall caller slot memory ended?)) := by
  rcases ended? with _ | ended
  · exact .asleep
  have hf := h ended rfl
  cases ended with
  | launched result =>
    cases result with
    | ok pid =>
      show Conveys _ _ _ (.returned (execReply (SyscallResult.raw (.ok pid.number.toUInt64))))
      rw [execReply_pid]
      exact .ok pid
    | error e =>
      show Conveys _ _ _ (.returned (execReply (SyscallResult.raw (.error e.toSyscallError))))
      rw [execReply, map_convert_error]
      exact .error e
  | crashed fault => exact .crashed fault
  | joined => cases hf
  | terminated => cases hf
  | halted => cases hf

/-- A collected status is in the status slot. -/
theorem conveys_join (v : View μ) (j : Join)
    (h : ∀ ended, ended? = some ended → (Call.join j).Fits ended) :
    Conveys (.joined j.child) .ofExit ended?
      (.ofTrap (fun raw memory => joinReply raw (v.status memory))
        (.ofCall caller v.slot v.cleared ended?)) := by
  rcases ended? with _ | ended
  · exact .asleep
  have hf := h ended rfl
  cases ended with
  | joined child result =>
    cases hf
    cases result with
    | ok status =>
      cases status with
      | code code =>
        obtain ⟨written, hw, hv⟩ := v.writeWord_cleared code
        have ht : TrapEnd.ofCall caller v.slot v.cleared
            (some (.joined j.child (.ok (.code code)))) = .replied (.returns 1) written := by
          simp only [TrapEnd.ofCall, Ended.leave, hw]
          rfl
        rw [ht, LibraryEnd.ofTrap, hv]
        exact .ok (ExitStatus.code code)
      | abnormal => exact .ok ExitStatus.abnormal
    | error e =>
      show Conveys _ _ _
        (.returned (joinReply (SyscallResult.raw (.error e.toSyscallError)) (v.status v.cleared)))
      rw [joinReply, map_convert_error]
      exact .error e
  | crashed fault => exact .crashed fault
  | launched => cases hf
  | terminated => cases hf
  | halted => cases hf

theorem conveys_halt (r : HaltRequest)
    (h : ∀ ended, ended? = some ended → (Call.halt r).Fits ended) :
    Conveys .halted id ended?
      (.ofTrap (fun raw _ => haltReply raw) (.ofCall caller slot memory ended?)) := by
  rcases ended? with _ | ended
  · exact .asleep
  have hf := h ended rfl
  cases ended with
  | halted result =>
    cases result with
    | ok u => exact .ok ()
    | error e =>
      show Conveys _ _ _ (.returned (haltReply (SyscallResult.raw (.error e.toSyscallError))))
      rw [haltReply, map_convert_error]
      exact .error e
  | crashed fault => exact .crashed fault
  | launched => cases hf
  | joined => cases hf
  | terminated => cases hf

theorem conveys_exit (e : Termination) {ended : Ended} (hf : (Call.terminate e).Fits ended) :
    ConveysEnd e.status (some ended)
      (.ofTrap (fun _ _ => ()) (.ofCall caller slot memory (some ended))) := by
  cases ended with
  | terminated status result =>
    cases hf
    exact .retired result
  | crashed fault => exact .crashed fault
  | launched => cases hf
  | joined => cases hf
  | halted => cases hf

end conveys

variable {μ ν W : Type} [UserMemory μ] [UserMemory ν] (v : View μ) {s : Surroundings W}
  (hs : s.Quiet) {b : Books} {config : Config} {range : PidRange} (n : Nat) (caller : Pid) (w : W)

theorem nameBuffer_eq_none_iff {name : String} : nameBuffer name = none ↔
    maxNameLength < name.utf8ByteSize ∨ 0 ∈ name.toUTF8.data.toList := by
  simp only [nameBuffer]
  split
  case isTrue h => exact ⟨fun _ => h, fun _ => rfl⟩
  case isFalse h => exact ⟨fun hn => (nomatch hn), fun h' => absurd h' h⟩

/-- The buffer holds the name and its terminator, and is filled up. -/
theorem nameBuffer_eq {name : String} (hl : name.utf8ByteSize ≤ maxNameLength)
    (hz : 0 ∉ name.toUTF8.data.toList) : nameBuffer name =
      some (name.toUTF8.data.toList ++
        0 :: List.replicate (maxNameLength - name.utf8ByteSize) 0) := by
  have hs : name.toUTF8.data.toList.length = name.utf8ByteSize := rfl
  simp only [nameBuffer, hs]
  rw [if_neg (not_or.2 ⟨Nat.not_lt.2 hl, hz⟩), Nat.sub_add_comm hl, List.replicate_succ]

/-- A name that is too long for the kernel is not read. -/
theorem exec_unread {k : Kernel} {name : String} (caller : Pid) (argc : Int32)
    (h : k.config.maxNameLength < name.utf8ByteSize) : ∃ why,
    Call.exec k caller name argc = .launch (.finished (.error (.invalidArgument why))) := by
  simp only [Call.exec, Launch.exec, Config.validateName]
  by_cases he : name.isEmpty = true
  · exact ⟨"empty executable name", by rw [if_pos he]⟩
  · exact ⟨"executable name too long", by rw [if_neg he, if_pos h]⟩

namespace View

theorem exec_refused {name : String} (argc : Nat)
    (h : maxNameLength < name.utf8ByteSize ∨ 0 ∈ name.toUTF8.data.toList) :
    v.exec s n caller w name argc = (.returned (.error (.syscall .invalidArgument)), w) := by
  rw [View.exec, nameBuffer_eq_none_iff.2 h]

include hs

theorem exec_matches {name : String} (argc : Nat)
    (h : ¬ (maxNameLength < name.utf8ByteSize ∨ 0 ∈ name.toUTF8.data.toList)) :
    Matches (Conveys .launched (·.number))
      (s.drive (n + 1) (.exec (s.kernel w) caller name (.ofNat argc)) w)
      (v.exec s (n + 1) caller w name argc) := by
  obtain ⟨bytes, hb⟩ := Option.ne_none_iff_exists'.1 (mt nameBuffer_eq_none_iff.1 h)
  have hread := v.readText_named name bytes (s.kernel w).config.maxNameLength hb
  have hexec : v.exec s (n + 1) caller w name argc =
      let (trap, w) := s.dispatch (n + 1) caller (execTrap v.buffer argc v.argv) (v.named bytes) w
      (.ofTrap (fun raw _ => execReply raw) trap, w) := by rw [View.exec, hb]
  by_cases hlen : name.utf8ByteSize ≤ (s.kernel w).config.maxNameLength
  · rw [if_pos hlen] at hread
    have hcall : (s.kernel w).call caller (s.task w) (execTrap v.buffer argc v.argv)
        (v.named bytes) .exec = .started (.exec (s.kernel w) caller name (.ofNat argc)) := by
      rw [← signed32_ofNat]
      exact Kernel.call_exec hread
    rw [hexec, hs.dispatch_started rfl hcall]
    exact ⟨conveys_launch _ fun ended => s.drive_fits _ _ _, rfl⟩
  · rw [if_neg hlen] at hread
    have hcall : (s.kernel w).call caller (s.task w) (execTrap v.buffer argc v.argv)
        (v.named bytes) .exec = .answered (.error .invalidArgument) :=
      Kernel.call_exec_unread hread
    obtain ⟨why, hwhy⟩ := exec_unread caller (.ofNat argc) (Nat.lt_of_not_le hlen)
    rw [hexec, hs.dispatch_answered rfl hcall, hwhy, hs.drive_ended n rfl rfl (by simp)]
    exact ⟨.error (ProcessError.invalidArgument why), rfl⟩

/-- No record has a number above the range, so it is no child's. -/
theorem join_matches (hb : Books.Reached ν config range b) (hk : s.kernel w = b.kernel)
    (hr : range.largest ≤ PidRange.standard.largest) (pid : UInt32) :
    Matches (Conveys (.joined ⟨pid⟩) .ofExit)
      (s.drive (n + 1) (.join (.new caller ⟨pid⟩ (s.task w))) w)
      (v.join s (n + 1) caller w pid) := by
  have hready := hk ▸ hb.standing.ready
  have hrange : (s.kernel w).range = range := hready.range_eq
  have hdecode : (s.kernel w).range.decode (Registers.signed32 pid.toUInt64).toInt64 =
      if pid ≤ range.largest then some ⟨pid⟩ else none := by
    rw [hrange, decode_toUInt64 hr]
  by_cases hp : pid ≤ range.largest
  · have hcall : (s.kernel w).call caller (s.task w) (joinTrap pid v.slot) v.cleared .join =
        .started (.join (.new caller ⟨pid⟩ (s.task w))) :=
      Kernel.call_join (hdecode.trans (if_pos hp))
    rw [View.join, hs.dispatch_started rfl hcall]
    exact ⟨conveys_join v (.new caller ⟨pid⟩ (s.task w)) fun ended => s.drive_fits _ _ _, rfl⟩
  · have hcall : (s.kernel w).call caller (s.task w) (joinTrap pid v.slot) v.cleared .join =
        .answered (.error .invalidJoin) :=
      Kernel.call_join_undecoded (hdecode.trans (if_neg hp))
    have hj : (s.kernel w).table.checkJoin caller ⟨pid⟩ (s.task w) =
        (.notChild, (s.kernel w).table) := by
      have hl := Table.checkJoin_look hready.sound caller ⟨pid⟩ (s.task w)
      rcases hc : (s.kernel w).table.checkJoin caller ⟨pid⟩ (s.task w) with ⟨check, t⟩
      rw [hc] at hl
      have hn {r : Record} (h : (s.kernel w).table.get? ⟨pid⟩ = some r) : False :=
        hp (hready.range_eq ▸ hready.sound.allotted.contains_of_get? h)
      cases hl with
      | notChild => rfl
      | collected h => exact (hn h).elim
      | busy h => exact (hn h).elim
      | waiting h => exact (hn h).elim
    rw [View.join, hs.dispatch_answered rfl hcall,
      hs.drive_ended n (Session.settle_notChild hj) rfl (by simp)]
    exact ⟨.error ProcessError.invalidJoin, rfl⟩

theorem exit_matches (code : Int32) :
    Matches (ConveysEnd (.code code))
      (s.drive (n + 1) (.terminate (.exit caller code)) w)
      (v.exit s (n + 1) caller w code) := by
  have hcall : (s.kernel w).call caller (s.task w) (exitTrap code) v.cleared .exit =
      .started (.terminate (.exit caller code)) := by
    show Entry.started
      (.terminate (.exit caller (Registers.signed32 (Registers.ofSigned32 code)))) = _
    rw [signed32_ofSigned32]
  rw [View.exit, hs.dispatch_started rfl hcall]
  obtain ⟨ended, he⟩ := s.drive_terminate n (.exit caller code) w
  refine ⟨?_, rfl⟩
  rw [he]
  exact conveys_exit (.exit caller code) (s.drive_fits _ _ _ he)

theorem halt_matches :
    Matches (Conveys .halted id)
      (s.drive (n + 1) (.halt (.asked caller)) w)
      (v.halt s (n + 1) caller w) := by
  have hnumber : haltTrap.number = Syscall.halt.number := rfl
  rw [View.halt, hs.dispatch_started hnumber rfl]
  exact ⟨conveys_halt _ fun ended => s.drive_fits _ _ _, rfl⟩

/-- The calls of the library do what the calls of the kernel behind them do, and answer what those
answer. Only the name of an executable is checked before. -/
theorem faithful (hb : Books.Reached ν config range b) (hk : s.kernel w = b.kernel)
    (hr : range.largest ≤ PidRange.standard.largest) : v.Faithful s (n + 1) caller w where
  refused _ argc h := v.exec_refused (n + 1) caller w argc h
  exec _ argc h := v.exec_matches hs n caller w argc h
  join := v.join_matches hs n caller w hb hk hr
  exit := v.exit_matches hs n caller w
  halt := v.halt_matches hs n caller w

end View

/-- The locals of a program in flat memory. -/
def flatView : View Bytes where
  named := Program.localBytes
  buffer := Program.locals
  argv := 0
  readText_named name bytes limit h := by
    have hn := mt nameBuffer_eq_none_iff.2 (h ▸ Option.some_ne_none bytes)
    rw [not_or, Nat.not_lt] at hn
    rw [nameBuffer_eq hn.1 hn.2] at h
    cases h
    refine Bytes.readText_store limit hn.2 (by decide) ?_
    have hs : name.toUTF8.data.toList.length = name.utf8ByteSize := rfl
    have hm : maxNameLength + 1 ≤ UInt64.size := by decide
    simp only [List.length_append, List.length_cons, List.length_replicate, hs]
    omega
  cleared := Program.localBytes (Bytes.wordBytes 0)
  slot := Program.locals
  status memory := memory.readWord Program.locals
  writeWord_cleared code := ⟨_, rfl, Bytes.readWord_store _ _ code⟩

/-- The root process has a child that runs, and one that has exited. -/
def twoChildren : Books :=
  let calls : List (Invocation Bytes) :=
    [.boot "init.coff", .exec .root "child.coff" 0, .exec .root "child.coff" 2, .exit ⟨2⟩ (-3)]
  ((Books.new {} .standard).invokeAll ⟨.ok default, .ok ()⟩ calls).2

theorem reached_twoChildren : Books.Reached Bytes {} .standard twoChildren :=
  .invokeAll .start _ _

theorem twoChildren_faithful :
    (flatView.join (Books.surroundings ⟨.ok default, .ok ()⟩) 1 .root twoChildren 2).1 =
      .returned (.ok (.exited (-3))) ∧
    flatView.Faithful (Books.surroundings ⟨.ok default, .ok ()⟩) 1 .root twoChildren :=
  ⟨rfl, flatView.faithful ⟨fun _ _ => rfl, fun _ => rfl⟩ 0 .root twoChildren reached_twoChildren
    rfl (by decide)⟩

end UserLibrary

end Lifecycle
