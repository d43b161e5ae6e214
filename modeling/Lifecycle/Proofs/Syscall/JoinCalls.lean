import Lifecycle.Proofs.Syscall.LibraryCalls

/-!
# What a system call returns

A register of the caller holds the answer of the handler: a value of the range of the PIDs, or one
of seven negative codes.

* `Surroundings.Lawful`: the effects of a call act on the machine around the kernel, and the table
  stays sound while a task sleeps. Everything else may happen to it meanwhile. A table that orderly
  traffic comes to is sound (`Traffic.Reachable.consistent`).
* `Surroundings.handle`: the answer of the handler. `Lawful.dispatch_handle` says what the return
  register holds of it.
* `JoinEnd`: how a join ends, through any number of sleeps (`Lawful.drive_join`).
* `JoinReply`: the answer of the system call `join` for every first register, and what it leaves of
  the kernel and of the memory.
-/

namespace Lifecycle

namespace Table

variable {t : Table} {caller child : Pid} {task : TaskId}

theorem Sound.checkJoin_stranger (h : t.Sound) (hn : ¬ t.HasParent child caller) :
    t.checkJoin caller child task = (.notChild, t) := by
  have hl := checkJoin_look h caller child task
  generalize t.checkJoin caller child task = found at hl
  cases hl with
  | notChild => rfl
  | collected hr hp => exact absurd ⟨_, hr, hp⟩ hn
  | busy hr hp => exact absurd ⟨_, hr, hp⟩ hn
  | waiting hr hp => exact absurd ⟨_, hr, hp⟩ hn

/-- Two processes need two numbers. -/
theorem Sound.one_le_largest (h : t.Sound) (hp : t.HasParent child caller) :
    1 ≤ t.pids.range.largest.toNat := by
  obtain ⟨r, hr, hpar⟩ := hp
  obtain ⟨q, hq, -⟩ := h.forest.parent_running ⟨r, hr, hpar⟩
  have hchild := UInt32.le_iff_toNat_le.1 (h.allotted.contains_of_get? hr)
  have hcaller := UInt32.le_iff_toNat_le.1 (h.allotted.contains_of_get? hq)
  have ne : caller.number.toNat ≠ child.number.toNat := by
    intro eq
    exact h.forest.parent_ne ⟨r, hr, hpar⟩ (Pid.toNat_inj.1 eq)
  omega

/-- A new PID is a number of the range. -/
theorem Sound.contains_alloc (h : t.Sound) {parent : Option Pid} {pid : Pid} {pids : PidAllocator}
    (name : String) (ha : t.pids.alloc = some (pid, pids))
    (hp : ∀ p, parent = some p → ∃ q, t.get? p = some q ∧ q.state = .running) :
    t.pids.range.Contains pid := by
  have hs : (t.admitted pids (.new pid parent name)).Sound := h.admitted ha hp
  have hc := hs.allotted.contains_of_get? (get?_admitted_self name h ha hp)
  rw [pids_admitted, PidAllocator.range_alloc ha] at hc
  exact hc

end Table

/-! ## The machine around the kernel -/

namespace Surroundings

variable {W : Type} {s : Surroundings W} {n : Nat} {w w' : W}

/-- The effects of a call act on the machine around the kernel, and the table is sound after a sleep
if it was before. -/
structure Lawful (s : Surroundings W) : Prop extends s.Quiet where
  kernel_withKernel : ∀ w k, s.kernel (s.withKernel w k) = k
  kernel_apply : ∀ w e, s.kernel (s.apply w e) = s.kernel w
  sleep : ∀ w w', (s.kernel w).table.Sound → s.sleep w = (true, w') →
    (s.kernel w').table.Sound ∧ (s.kernel w').range = (s.kernel w).range

theorem Lawful.kernel_applyAll (hs : s.Lawful) (w : W) (effects : List Effect) :
    s.kernel (s.applyAll w effects) = s.kernel w := by
  induction effects generalizing w with
  | nil => rfl
  | cons e rest ih => exact (ih (s.apply w e)).trans (hs.kernel_apply w e)

end Surroundings

/-! ## Launches -/

/-- The PID that a launch has reserved, and can answer, is a number of the range. -/
def Launch.Within (range : PidRange) : Launch → Prop
  | .booting _ => False
  | .reserving _ => False
  | .loading _ pid => range.Contains pid
  | .storing _ pid _ => range.Contains pid
  | .spawning _ pid _ => range.Contains pid
  | .finished (.ok pid) => range.Contains pid
  | _ => True

namespace Launch

variable {range : PidRange} {l : Launch}

theorem within_abandon (range : PidRange) (order : Order) (e : ProcessError) :
    (abandon order e).Within range := by
  unfold abandon
  split <;> trivial

theorem Within.step (h : l.Within range) (k : Kernel) : (l.step k).2.2.Within range := by
  cases l with
  | booting => exact h.elim
  | reserving => exact h.elim
  | storing order pid image =>
    simp only [Launch.step]
    split
    · trivial
    · exact h
  | undoing order pid cause =>
    simp only [Launch.step]
    split <;> trivial
  | discarding order r cause => exact within_abandon range order cause
  | clearing cause => trivial
  | _ => exact h

theorem Within.loaded (h : l.Within range) (answer : Except LoadError LoadedImage) :
    (l.loaded answer).2.Within range := by
  cases l with
  | loading order pid =>
    cases answer with
    | ok image => exact h
    | error e => trivial
  | _ => exact h

theorem Within.spawned (h : l.Within range) (answer : Except SpawnError Unit) :
    (l.spawned answer).2.Within range := by
  cases l with
  | spawning order pid image =>
    cases answer with
    | ok _ =>
      simp only [Launch.spawned]
      split
      · trivial
      · exact h
    | error e => trivial
  | _ => exact h

end Launch

/-- The call is a launch, and the PID it can answer is a number of the range. -/
def Call.Within (range : PidRange) (c : Call) : Prop := ∃ l, c = .launch l ∧ l.Within range

theorem Call.Within.steps {range : PidRange} {c : Call} (h : c.Within range) (k : Kernel)
    (n : Nat) : (c.steps k n).2.2.Within range := by
  induction n generalizing k c with
  | zero => exact h
  | succ n ih =>
    obtain ⟨l, rfl, hl⟩ := h
    exact ih ⟨_, rfl, hl.step k⟩ _

theorem Surroundings.drive_within {W : Type} (s : Surroundings W) {range : PidRange} (n : Nat)
    {c : Call} {w : W} {pid : Pid} (hc : c.Within range)
    (h : (s.drive n c w).1 = some (.launched (.ok pid))) : range.Contains pid := by
  induction n generalizing c w with
  | zero => cases h
  | succ n ih =>
    have hk : (s.settle c w).1.Within range := hc.steps (s.kernel w) _
    rcases hs : s.settle c w with ⟨c₁, w₁⟩
    rw [hs] at hk
    obtain ⟨l, rfl, hl⟩ := hk
    simp only [drive, hs] at h
    split at h
    · cases l with
      | finished result =>
        cases h
        exact hl
      | _ => cases h
    · exact ih ⟨_, rfl, hl.loaded _⟩ h
    · exact ih ⟨_, rfl, hl.spawned _⟩ h
    · next hr => cases l <;> cases hr

/-- The launch behind the system call `exec`. -/
theorem Surroundings.drive_exec {W : Type} (s : Surroundings W) (n : Nat) {w : W} {caller pid : Pid}
    {name : String} {argc : Int32} (hw : (s.kernel w).table.Sound)
    (h : (s.drive n (.exec (s.kernel w) caller name argc) w).1 = some (.launched (.ok pid))) :
    (s.kernel w).range.Contains pid := by
  have hexec : (Call.exec (s.kernel w) caller name argc).Within (s.kernel w).range ∨
      ∃ order, Call.exec (s.kernel w) caller name argc = .launch (.reserving order) := by
    unfold Call.exec Launch.exec
    split
    · exact .inl ⟨_, rfl, trivial⟩
    · split
      · exact .inl ⟨_, rfl, trivial⟩
      · exact .inr ⟨_, rfl⟩
  rcases hexec with hl | ⟨order, ho⟩
  · exact s.drive_within n hl h
  · rw [ho] at h
    cases n with
    | zero => cases h
    | succ n =>
      rcases Table.allocate_eq hw.allotted order.parent order.name with
        ⟨e, he⟩ | ⟨new, pids, ha, hp, hok⟩
      · rw [s.drive_ended n (Session.settle_refused he) rfl] at h
        cases h
      · rw [s.drive_loading n (Session.settle_reserved hok)] at h
        have hl : (Launch.loading order new).Within (s.kernel w).range :=
          hw.contains_alloc order.name ha hp
        exact s.drive_within n ⟨_, rfl, hl.loaded _⟩ h

/-! ## The answer of the handler -/

/-- What the handler of a system call answers when its call has ended. Nothing is answered to a task
that is retired. -/
def Ended.result? {μ : Type} [UserMemory μ] (slot : UInt64) (memory : μ) :
    Ended → Option SyscallResult
  | .launched result => some (.ofExcept (·.number.toUInt64) result)
  | .joined _ (.ok (.code code)) =>
    some (if (UserMemory.writeWord memory slot code).isSome then .ok 1
      else .error .invalidArgument)
  | .joined _ result => some (.ofExcept (fun _ => 0) result)
  | .halted result => some (.ofExcept (fun _ => 0) result)
  | _ => none

namespace Surroundings

variable {μ W : Type} [UserMemory μ]

/-- What the handler of a system call of `caller` answers. -/
def handle (s : Surroundings W) (n : Nat) (caller : Pid) (r : Registers) (memory : μ) (w : W) :
    Option SyscallResult :=
  match ((s.kernel w).enter caller (s.task w) r memory).2 with
  | .answered result => some result
  | .started c => (s.drive n c w).1.bind (·.result? r.arg2 memory)

end Surroundings

namespace SyscallResult

theorem raw_error (e : SyscallError) :
    -7 ≤ (raw (.error e)).toInt ∧ (raw (.error e)).toInt ≤ -1 := by
  cases e <;> decide

/-- A small value is kept. -/
theorem raw_ok {value : UInt64} (h : value.toNat < 2 ^ 63) :
    (raw (.ok value)).toInt = value.toNat := by
  show value.toBitVec.toInt = _
  rw [BitVec.toInt_eq_toNat_cond]
  show (if 2 * value.toNat < 2 ^ 64 then _ else _) = (value.toNat : Int)
  rw [if_pos (by omega)]
  rfl

end SyscallResult

namespace TrapEnd

variable {μ : Type} [UserMemory μ] {caller : Pid} {slot : UInt64} {memory memory' : μ}
  {ended? : Option Ended} {raw : Int64}

/-- A trap that returns returns what its handler answers. -/
theorem ofCall_returns (h : ofCall caller slot memory ended? = .replied (.returns raw) memory') :
    ∃ result, ended?.bind (·.result? slot memory) = some result ∧ raw = result.raw := by
  cases ended? with
  | none => cases h
  | some ended =>
    simp only [ofCall] at h
    cases ended with
    | launched result => cases h; exact ⟨_, rfl, rfl⟩
    | halted result => cases h; exact ⟨_, rfl, rfl⟩
    | terminated status result => cases h
    | crashed fault => cases h
    | joined child result =>
      cases result with
      | error e => cases h; exact ⟨_, rfl, rfl⟩
      | ok status =>
        cases status with
        | abnormal => cases h; exact ⟨_, rfl, rfl⟩
        | code code =>
          simp only [Ended.leave] at h
          cases hw : UserMemory.writeWord memory slot code with
          | some written =>
            rw [hw] at h
            cases h
            exact ⟨.ok 1, by simp [Ended.result?, hw], rfl⟩
          | none =>
            rw [hw] at h
            cases h
            exact ⟨.error .invalidArgument, by simp [Ended.result?, hw], rfl⟩

end TrapEnd

/-! ## Joins -/

namespace Surroundings

variable {W : Type} {s : Surroundings W} {n : Nat} {w w' : W} {caller child : Pid}
  {task : TaskId} {ended : Ended}

/-- How a join of `child` by the task `task` of `caller` ends, started in `w`: it has taken the
record of the child out, or it is refused. -/
inductive JoinEnd (s : Surroundings W) (caller child : Pid) (task : TaskId) (w : W) :
    Ended → W → Prop where
  | collected {status : ExitStatus} {w' : W} : (s.kernel w').table.Sound →
      (s.kernel w').table.get? child = none → 1 ≤ (s.kernel w').range.largest.toNat →
      (s.kernel w').range = (s.kernel w).range →
      JoinEnd s caller child task w (.joined child (.ok status)) w'
  /-- Without a sleep it has done nothing. -/
  | refused {w' : W} :
      ((s.settle (.join (.new caller child task)) w).1.request? = none → w' = w) →
      JoinEnd s caller child task w (.joined child (.error .invalidJoin)) w'

theorem Lawful.drive_stranger (hs : s.Lawful) (n : Nat) (task : TaskId)
    (hw : (s.kernel w).table.Sound) (hn : ¬ (s.kernel w).table.HasParent child caller) :
    s.drive (n + 1) (.join (.new caller child task)) w =
      (some (.joined child (.error .invalidJoin)), w) :=
  hs.drive_ended n (Session.settle_notChild (hw.checkJoin_stranger hn)) rfl (by simp)

/-- The child was found ended. -/
theorem Lawful.drive_collected {t : Table} {r : Record} {status : ExitStatus} (hs : s.Lawful)
    (hw : (s.kernel w).table.Sound) (hr : (s.kernel w).table.get? child = some r)
    (hp : r.parent = some caller) (hst : r.state = .exited status)
    (hc : (s.kernel w).table.checkJoin caller child task = (.collected status (some r), t))
    (ht : t = (s.kernel w).table.removed child r)
    (h : s.drive (n + 1) (.join (.new caller child task)) w = (some ended, w')) :
    JoinEnd s caller child task w ended w' := by
  rw [s.drive_ended n (Session.settle_collected hc) rfl] at h
  cases h
  have hex : r.isExited = true := by rw [Record.isExited, hst, ProcessState.isExited_exited]
  have hk (effects : List Effect) : s.kernel (s.applyAll
      (s.withKernel w { s.kernel w with table := t }) effects) =
        { s.kernel w with table := (s.kernel w).table.removed child r } := by
    rw [hs.kernel_applyAll, hs.kernel_withKernel, ht]
  refine .collected ?_ ?_ ?_ ?_
  · rw [hk]
    exact hw.collected hr hex
  · rw [hk]
    show ((s.kernel w).table.removed child r).get? child = none
    rw [Table.get?_removed, Table.get?_withdraw, if_pos rfl]
  · rw [hk]
    exact hw.one_le_largest ⟨r, hr, hp⟩
  · rw [hk]
    rfl

/-- A join that ends has collected the child or is refused, after any number of sleeps. -/
theorem Lawful.drive_join (hs : s.Lawful) (hw : (s.kernel w).table.Sound)
    (h : s.drive n (.join (.new caller child task)) w = (some ended, w')) :
    JoinEnd s caller child task w ended w' := by
  induction n generalizing w with
  | zero => cases h
  | succ n ih =>
    have hl := Table.checkJoin_look hw caller child task
    rcases hc : (s.kernel w).table.checkJoin caller child task with ⟨check, t⟩
    rw [hc] at hl
    cases hl with
    | notChild hn =>
      rw [hs.drive_stranger n task hw hn] at h
      cases h
      exact .refused fun _ => rfl
    | busy =>
      rw [hs.drive_ended n (Session.settle_busy hc) rfl (by simp)] at h
      cases h
      exact .refused fun _ => rfl
    | collected hr hp hst => exact hs.drive_collected hw hr hp hst hc rfl h
    | @waiting r hr hp hrun _ =>
      have hset := Session.settle_waiting hc
      simp only [drive, settle, hset, Call.request?] at h
      generalize hw₁ : s.applyAll _ _ = w₁ at h
      have hk : s.kernel w₁ = { s.kernel w with
          table := (s.kernel w).table.adjust child fun r => { r with waiter := some task } } := by
        rw [← hw₁, hs.kernel_applyAll, hs.kernel_withKernel]
      have hsound : (s.kernel w₁).table.Sound := by
        rw [hk]
        exact hw.adjust (Table.inner_waiter _) hr hrun
      split at h
      · next w₂ hsleep =>
        obtain ⟨hsound₂, hrange⟩ := hs.sleep w₁ w₂ hsound hsleep
        rw [hk] at hrange
        -- The look that sent the task to sleep asked for it.
        have hblocks : (s.settle (.join (.new caller child task)) w).1.request? ≠ none := by
          simp only [settle, hset, Call.request?]
          exact Option.some_ne_none _
        cases ih hsound₂ h with
        | collected hs' hg ho hr' => exact .collected hs' hg ho (hr'.trans hrange)
        | refused => exact .refused fun hn => absurd hn hblocks
      · cases h

end Surroundings

/-! ## The system call -/

/-- The low half of the first register, read as a signed number, is the PID `child`. -/
def Registers.Names (r : Registers) (range : PidRange) (child : Pid) : Prop :=
  (Registers.signed32 r.arg1).toInt = child.number.toNat ∧ range.Contains child

namespace Registers

variable {r : Registers} {range : PidRange} {child child' : Pid}

theorem Names.unique (h : r.Names range child) (h' : r.Names range child') : child' = child := by
  have heq := h'.1.symm.trans h.1
  exact Pid.toNat_inj.1 (Int.ofNat.inj heq)

theorem Names.exists_iff {p : Pid → Prop} (h : r.Names range child) :
    (∃ child, r.Names range child ∧ p child) ↔ p child := by
  constructor
  · rintro ⟨child', h', hp⟩
    rwa [h.unique h'] at hp
  · exact fun hp => ⟨child, h, hp⟩

theorem decode_eq_some_iff :
    range.decode (signed32 r.arg1).toInt64 = some child ↔ r.Names range child := by
  have hnat := UserLibrary.toInt_toInt32 r.arg1.toUInt32
  rw [show r.arg1.toUInt32.toInt32 = signed32 r.arg1 from rfl] at hnat
  have hlt := r.arg1.toUInt32.toNat_lt
  rw [PidRange.decode, Int32.toInt_toInt64, UserLibrary.toUInt32_widened,
    show (signed32 r.arg1).toUInt32 = r.arg1.toUInt32 from rfl, Names, PidRange.Contains,
    UInt32.le_iff_toNat_le]
  split
  · next hr =>
    have hk : (signed32 r.arg1).toInt = r.arg1.toUInt32.toNat := by
      split at hnat <;> omega
    constructor
    · intro h
      cases h
      exact ⟨hk, Int.ofNat_le.1 (hk ▸ hr.2)⟩
    · rintro ⟨heq, -⟩
      have hnum : r.arg1.toUInt32.toNat = child.number.toNat := by omega
      exact congrArg some (Pid.toNat_inj.1 hnum)
  · next hr =>
    constructor
    · intro h
      cases h
    · rintro ⟨heq, hle⟩
      omega

theorem decode_eq_none_iff : range.decode (signed32 r.arg1).toInt64 = none ↔
    (signed32 r.arg1).toInt < 0 ∨ range.largest.toNat < (signed32 r.arg1).toInt := by
  rw [PidRange.decode, Int32.toInt_toInt64]
  split <;> simp <;> omega

end Registers

namespace Surroundings

variable {μ W : Type} [UserMemory μ] {s : Surroundings W} {n : Nat} {caller child : Pid}
  {r : Registers} {memory memory' : μ} {w w' : W} {raw : Int64}

/-- The kernel's join of `child` by `caller`. -/
def join (s : Surroundings W) (n : Nat) (caller child : Pid) (w : W) : Option Ended × W :=
  s.drive n (.join (.new caller child (s.task w))) w

/-- What the system call `join` answers, and what it leaves. -/
structure JoinReply (s : Surroundings W) (n : Nat) (caller : Pid) (r : Registers) (memory : μ)
    (w : W) (raw : Int64) (memory' : μ) (w' : W) : Prop where
  value : raw = 1 ∨ raw = 0 ∨ raw = -2 ∨ raw = -7
  exited : raw = 1 ↔ ∃ child, r.Names (s.kernel w).range child ∧ ∃ code,
    (s.join n caller child w).1 = some (.joined child (.ok (.code code))) ∧
      (UserMemory.writeWord memory r.arg2 code).isSome = true
  killed : raw = 0 ↔ ∃ child, r.Names (s.kernel w).range child ∧
    (s.join n caller child w).1 = some (.joined child (.ok .abnormal))
  unwritten : raw = -2 ↔ ∃ child, r.Names (s.kernel w).range child ∧ ∃ code,
    (s.join n caller child w).1 = some (.joined child (.ok (.code code))) ∧
      UserMemory.writeWord memory r.arg2 code = none
  refused : raw = -7 ↔ (Registers.signed32 r.arg1).toInt < 0 ∨
    (s.kernel w).range.largest.toNat < (Registers.signed32 r.arg1).toInt ∨
    ∃ child, r.Names (s.kernel w).range child ∧ ∃ e,
      (s.join n caller child w).1 = some (.joined child (.error e))
  /-- Also if the exit code could not be written, the child is gone. -/
  collected : raw ≠ -7 → ∃ child, r.Names (s.kernel w).range child ∧
    w' = (s.join n caller child w).2 ∧ (s.kernel w').table.get? child = none ∧
    ∀ m other task, s.drive (m + 1) (.join (.new other child task)) w' =
      (some (.joined child (.error .invalidJoin)), w')
  /-- A refusal without a sleep. -/
  still : raw = -7 → (∀ child, r.Names (s.kernel w).range child →
    (s.settle (.join (.new caller child (s.task w))) w).1.request? = none) → w' = w
  written : ∀ child code word, r.Names (s.kernel w).range child →
    (s.join n caller child w).1 = some (.joined child (.ok (.code code))) →
    UserMemory.writeWord memory r.arg2 code = some word → memory' = word
  untouched : raw ≠ 1 → memory' = memory

/-- The answer to a join that has ended with a result, and the memory after it. -/
inductive JoinAnswer (slot : UInt64) (memory : μ) :
    Except ProcessError ExitStatus → Int64 → μ → Prop where
  | written {code : Int32} {word : μ} : UserMemory.writeWord memory slot code = some word →
      JoinAnswer slot memory (.ok (.code code)) 1 word
  | killed : JoinAnswer slot memory (.ok .abnormal) 0 memory
  | unwritten {code : Int32} : UserMemory.writeWord memory slot code = none →
      JoinAnswer slot memory (.ok (.code code)) (-2) memory
  | refused : JoinAnswer slot memory (.error .invalidJoin) (-7) memory

theorem JoinEnd.answer {slot : UInt64} {task : TaskId} {result : Except ProcessError ExitStatus}
    (he : JoinEnd s caller child task w (.joined child result) w')
    (h : TrapEnd.ofCall caller slot memory (some (.joined child result)) =
      .replied (.returns raw) memory') : JoinAnswer slot memory result raw memory' := by
  cases he with
  | refused =>
    cases h
    exact .refused
  | @collected status =>
    cases status with
    | abnormal =>
      cases h
      exact .killed
    | code code =>
      simp only [TrapEnd.ofCall, Ended.leave] at h
      cases hw : UserMemory.writeWord memory slot code with
      | some word =>
        rw [hw] at h
        cases h
        exact .written hw
      | none =>
        rw [hw] at h
        cases h
        exact .unwritten hw

/-- The reply to a join of `child` that has ended. -/
theorem Lawful.joinReply {result : Except ProcessError ExitStatus} (hs : s.Lawful)
    (hc : r.Names (s.kernel w).range child)
    (hj : s.join n caller child w = (some (.joined child result), w'))
    (he : JoinEnd s caller child (s.task w) w (.joined child result) w')
    (ha : JoinAnswer r.arg2 memory result raw memory') :
    s.JoinReply n caller r memory w raw memory' w' := by
  have hrange : ¬ (Registers.signed32 r.arg1).toInt < 0 ∧
      ¬ (s.kernel w).range.largest.toNat < (Registers.signed32 r.arg1).toInt := by
    obtain ⟨heq, hle⟩ := hc
    have := UInt32.le_iff_toNat_le.1 hle
    omega
  have hresult : ∀ result', (s.join n caller child w).1 = some (.joined child result') ↔
      result = result' := by
    intro result'
    rw [hj]
    simp
  refine ⟨?_, ?_, ?_, ?_, ?_, fun hne => ?_, fun hraw hstill => ?_, ?_, ?_⟩
  · cases ha <;> simp
  · simp only [hc.exists_iff, hresult]
    cases ha with
    | written hw => simp [hw]
    | unwritten hw => simp [hw]
    | _ => simp
  · simp only [hc.exists_iff, hresult]
    cases ha <;> simp
  · simp only [hc.exists_iff, hresult]
    cases ha with
    | written hw => simp [hw]
    | unwritten hw => simp [hw]
    | _ => simp
  · simp only [hc.exists_iff, hresult, hrange, false_or]
    cases ha <;> simp
  · cases he with
    | refused =>
      cases ha
      exact absurd rfl hne
    | collected hsound hg =>
      refine ⟨child, hc, by rw [hj], hg, fun m other task => hs.drive_stranger m task hsound ?_⟩
      rintro ⟨q, hq, -⟩
      rw [hg] at hq
      cases hq
  · cases he with
    | refused hquiet => exact hquiet (hstill child hc)
    | collected => cases ha <;> cases hraw
  · intro child' code word hc' hj' hw
    rw [hc.unique hc', hresult] at hj'
    subst hj'
    cases ha with
    | written hw' => exact Option.some.inj (hw'.symm.trans hw)
    | unwritten hw' =>
      rw [hw] at hw'
      cases hw'
  · intro hne
    cases ha with
    | written => exact absurd rfl hne
    | _ => rfl

/-- The reply to a join of no number of the range. -/
theorem joinReply_unnamed (h : (Registers.signed32 r.arg1).toInt < 0 ∨
    (s.kernel w).range.largest.toNat < (Registers.signed32 r.arg1).toInt) :
    s.JoinReply n caller r memory w (-7) memory w := by
  have hnone : ∀ child, ¬ r.Names (s.kernel w).range child := by
    rintro child ⟨heq, hle⟩
    have := UInt32.le_iff_toNat_le.1 hle
    omega
  refine ⟨by simp, ?_, ?_, ?_, ?_, fun hne => absurd rfl hne, fun _ _ => rfl, ?_, fun _ => rfl⟩
  · simp [hnone]
  · simp [hnone]
  · simp [hnone]
  · simp only [true_iff]
    exact h.imp_right .inl
  · exact fun child _ _ hc => absurd hc (hnone child)

theorem Lawful.dispatch_join (hs : s.Lawful) (hw : (s.kernel w).table.Sound)
    (hn : r.number = Syscall.join.number)
    (h : s.dispatch n caller r memory w = (.replied (.returns raw) memory', w')) :
    s.JoinReply n caller r memory w raw memory' w' := by
  cases hd : (s.kernel w).range.decode (Registers.signed32 r.arg1).toInt64 with
  | none =>
    rw [hs.dispatch_answered hn (Kernel.call_join_undecoded hd)] at h
    cases h
    exact joinReply_unnamed (Registers.decode_eq_none_iff.1 hd)
  | some child =>
    rw [hs.dispatch_started hn (Kernel.call_join hd)] at h
    rcases hj : s.drive n (.join (.new caller child (s.task w))) w with ⟨ended?, w₁⟩
    rw [hj] at h
    obtain ⟨ht, rfl⟩ := Prod.mk.inj h
    cases ended? with
    | none => cases ht
    | some ended =>
      have he := hs.drive_join hw hj
      have hc := Registers.decode_eq_some_iff.1 hd
      obtain ⟨result, rfl⟩ : ∃ result, ended = .joined child result := by
        cases he <;> exact ⟨_, rfl⟩
      exact hs.joinReply hc hj he (he.answer ht)

/-! ## Every system call -/

/-- A value that the handler answers when its call has ended is a number of the range. -/
theorem Lawful.value_le {call : Syscall} {c : Call} {ended : Ended} {slot value : UInt64}
    (hs : s.Lawful) (hw : (s.kernel w).table.Sound)
    (hc : (s.kernel w).call caller (s.task w) r memory call = .started c)
    (hd : (s.drive n c w).1 = some ended) (hv : ended.result? slot memory = some (.ok value)) :
    value.toNat ≤ (s.kernel w).range.largest.toNat := by
  have hfits := s.drive_fits n c w hd
  cases call with
  | halt =>
    cases hc
    cases ended with
    | halted result =>
      cases result with
      | ok _ =>
        cases hv
        exact Nat.zero_le _
      | error e => cases hv
    | crashed fault => cases hv
    | _ => cases hfits
  | exit =>
    cases hc
    cases ended with
    | terminated => cases hv
    | crashed fault => cases hv
    | _ => cases hfits
  | exec =>
    simp only [Kernel.call] at hc
    split at hc
    · cases hc
    · next name _ =>
      cases hc
      cases ended with
      | launched result =>
        cases result with
        | ok pid =>
          cases hv
          have hle := s.drive_exec n hw hd
          rw [PidRange.Contains, UInt32.le_iff_toNat_le] at hle
          rwa [UInt32.toNat_toUInt64]
        | error e => cases hv
      | crashed fault => cases hv
      | _ => cases hfits
  | join =>
    simp only [Kernel.call] at hc
    split at hc
    · cases hc
    · next child _ =>
      cases hc
      have he := hs.drive_join hw (Prod.ext hd rfl : _ = (_, (s.drive n _ w).2))
      cases he with
      | refused => cases hv
      | @collected status _ _ _ hone hr =>
        rw [hr] at hone
        cases status with
        | abnormal =>
          cases hv
          exact Nat.zero_le _
        | code code =>
          simp only [Ended.result?] at hv
          split at hv
          · cases hv
            exact hone
          · cases hv

/-- A system call that returns returns what its handler answers. -/
theorem Lawful.dispatch_handle (hs : s.Lawful) (hw : (s.kernel w).table.Sound)
    (h : s.dispatch n caller r memory w = (.replied (.returns raw) memory', w')) :
    ∃ result, s.handle n caller r memory w = some result ∧ raw = result.raw ∧
      ∀ value, result = .ok value → value.toNat ≤ (s.kernel w).range.largest.toNat := by
  cases hn : Syscall.ofNumber? r.number with
  | none =>
    simp only [dispatch, Kernel.enter, hn, SyscallResult.reply] at h
    cases h
    refine ⟨.error .invalidSyscall, by simp only [handle, Kernel.enter, hn], rfl, ?_⟩
    intro value hv
    cases hv
  | some call =>
    have hnumber := Syscall.ofNumber?_eq_some_iff.1 hn
    have henter := Kernel.enter_eq (s.kernel w) caller (s.task w) memory hnumber
    cases hc : (s.kernel w).call caller (s.task w) r memory call with
    | answered result =>
      rw [hs.dispatch_answered hnumber hc] at h
      cases h
      refine ⟨result, by simp only [handle, henter, hc], rfl, ?_⟩
      rintro value rfl
      cases call with
      | halt => cases hc
      | exit => cases hc
      | exec =>
        simp only [Kernel.call] at hc
        split at hc <;> cases hc
      | join =>
        simp only [Kernel.call] at hc
        split at hc <;> cases hc
    | started c =>
      rw [hs.dispatch_started hnumber hc] at h
      obtain ⟨result, hres, hraw⟩ := TrapEnd.ofCall_returns (Prod.mk.inj h).1
      refine ⟨result, by simp only [handle, henter, hc, hres], hraw, ?_⟩
      rintro value rfl
      obtain ⟨ended, hd, hv⟩ := Option.bind_eq_some_iff.1 hres
      exact hs.value_le hw hc hd hv

/-- A system call that returns from a sound table returns one of the codes `-1` to `-7` if its
handler fails, and a number of the range if it does not. The system call `join` returns what
`JoinReply` says. -/
theorem Lawful.dispatch_returns (hs : s.Lawful) (hw : (s.kernel w).table.Sound)
    (h : s.dispatch n caller r memory w = (.replied (.returns raw) memory', w')) :
    (∃ result, s.handle n caller r memory w = some result ∧
      ((∃ e, result = .error e) ↔ -7 ≤ raw.toInt ∧ raw.toInt ≤ -1) ∧
      ((∃ value, result = .ok value) ↔
        0 ≤ raw.toInt ∧ raw.toInt ≤ (s.kernel w).range.largest.toNat)) ∧
    (r.number = Syscall.join.number → s.JoinReply n caller r memory w raw memory' w') := by
  refine ⟨?_, fun hn => hs.dispatch_join hw hn h⟩
  obtain ⟨result, hres, rfl, hle⟩ := hs.dispatch_handle hw h
  refine ⟨result, hres, ?_⟩
  cases result with
  | error e =>
    obtain ⟨hlo, hhi⟩ := SyscallResult.raw_error e
    refine ⟨⟨fun _ => ⟨hlo, hhi⟩, fun _ => ⟨e, rfl⟩⟩, ⟨fun ⟨_, hv⟩ => (nomatch hv), fun h => ?_⟩⟩
    omega
  | ok value =>
    have hvalue := hle value rfl
    have hlt := (s.kernel w).range.largest.toNat_lt
    have hraw : (SyscallResult.raw (.ok value)).toInt = value.toNat :=
      SyscallResult.raw_ok (by omega)
    refine ⟨⟨fun ⟨_, hv⟩ => (nomatch hv), fun h => ?_⟩, ⟨fun _ => ?_, fun _ => ⟨value, rfl⟩⟩⟩ <;>
      omega

end Surroundings

namespace UserLibrary

/-- The process `1` exits while the task sleeps. -/
def exitsMeanwhile : Surroundings Books :=
  { Books.surroundings ⟨.ok default, .ok ()⟩ with
    sleep := fun w => (true, w.withTable (w.kernel.table.depart ⟨1⟩ (.code 7)).2) }

theorem exitsMeanwhile_lawful : exitsMeanwhile.Lawful where
  note _ _ := rfl
  same _ := rfl
  kernel_withKernel _ _ := rfl
  kernel_apply _ e := by cases e <;> rfl
  sleep w w' hw h := by
    have hw : w.kernel.table.Sound := hw
    cases h
    cases hr : w.kernel.table.running? ⟨1⟩ with
    | none =>
      have hd : w.kernel.table.depart ⟨1⟩ (.code 7) = (.notRunning, w.kernel.table) := by
        simp only [Table.depart, hr]
      rw [hd]
      exact ⟨hw, rfl⟩
    | some r =>
      obtain ⟨t, ht, hd⟩ := Table.depart_eq (.code 7) hw hr
      rw [ht]
      exact ⟨hd.sound hw, hd.bounds.range⟩

/-- The root process joins its running child. The upper half of the register does not count. -/
theorem exitsMeanwhile_joined : ∃ memory' w',
    exitsMeanwhile.dispatch 2 .root ⟨3, 0xffffffff00000001, Program.locals, 0, 0, 0, 0⟩
      (Program.localBytes (Bytes.wordBytes 0)) twoChildren = (.replied (.returns 1) memory', w') ∧
    memory'.readWord Program.locals = 7 ∧
    exitsMeanwhile.JoinReply 2 .root ⟨3, 0xffffffff00000001, Program.locals, 0, 0, 0, 0⟩
      (Program.localBytes (Bytes.wordBytes 0)) twoChildren 1 memory' w' := by
  have hsound : (exitsMeanwhile.kernel twoChildren).table.Sound :=
    reached_twoChildren.standing.ready.sound
  exact ⟨_, _, rfl, rfl, (exitsMeanwhile_lawful.dispatch_returns hsound rfl).2 rfl⟩

end UserLibrary

end Lifecycle
