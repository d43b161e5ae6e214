import Lifecycle.Proofs.Syscall.LibraryCalls

/-!
# Names through the buffer

The user library writes a name into a buffer and fills it up with zero bytes; the kernel scans the
memory of the program for the first zero byte.

* `Bytes.readText_eq_some_iff`: what is read, for any memory, address and limit.
* `Bytes.readTextWith`: the same scan, over any way of reading a byte. `readTextWith_pure` says that
  `Bytes.readText` is the scan over a memory in which every byte can be read.
* `Bytes.Reads`: the bytes up to the first zero byte and up to the limit. `readTextWith_guarded`:
  the scan needs no others.
* `Bytes.name_passing`: a name that fits the buffer arrives as it is, or not at all, and the scan
  stays in the buffer, whatever the limit of the kernel.
-/

namespace Lifecycle

namespace Bytes

variable {m : Bytes} {address : UInt64} {bytes : List UInt8} {limit : Nat}

/-! ## What is read -/

theorem slice_succ (m : Bytes) (address : UInt64) (n : Nat) :
    m.slice address (n + 1) = m.byte address :: m.slice (address + 1) n := by
  rw [slice, List.range_succ_eq_map, List.map_cons, List.map_map, offset_zero, slice]
  refine congrArg _ (List.map_congr_left fun i _ => ?_)
  exact congrArg m.byte (offset_succ address i)

theorem getElem_slice {n i : Nat} (hi : i < (m.slice address n).length) :
    (m.slice address n)[i] = m.byte (address + UInt64.ofNat i) := by
  simp only [slice, List.getElem_map, List.getElem_range]

theorem length_slice (m : Bytes) (address : UInt64) (n : Nat) : (m.slice address n).length = n := by
  simp only [slice, List.length_map, List.length_range]

theorem slice_store (hb : bytes.length ≤ UInt64.size) :
    (m.store address bytes).slice address bytes.length = bytes :=
  List.ext_getElem (length_slice _ _ _) fun _ hi hi' =>
    (getElem_slice hi).trans (byte_store m address hi' hb)

theorem scan_slice {n : Nat} (h : m.scan address n = some bytes) :
    bytes.length < n ∧ m.byte (address + UInt64.ofNat bytes.length) = 0 ∧
      m.slice address bytes.length = bytes := by
  induction n generalizing address bytes with
  | zero => cases h
  | succ n ih =>
    rw [scan] at h
    split at h
    · next hz =>
      cases h
      refine ⟨Nat.succ_pos n, ?_, rfl⟩
      rwa [List.length_nil, offset_zero]
    · obtain ⟨rest, hrest, rfl⟩ := Option.map_eq_some_iff.1 h
      obtain ⟨hlt, hz, hs⟩ := ih hrest
      refine ⟨Nat.succ_lt_succ hlt, ?_, ?_⟩
      · rw [List.length_cons, offset_succ]
        exact hz
      · rw [List.length_cons, slice_succ, hs]

theorem zero_notMem_slice_iff {n : Nat} :
    0 ∉ m.slice address n ↔ ∀ i < n, m.byte (address + UInt64.ofNat i) ≠ 0 := by
  simp only [slice, List.mem_map, List.mem_range, not_exists, not_and]

theorem decode_eq_some_iff {s : String} : decode bytes = some s ↔ bytes = s.toUTF8.data.toList := by
  constructor
  · exact fun h => (toUTF8_decode h).symm
  · rintro rfl
    exact decode_toUTF8 s

/-- A text is read at a mapped address, if its bytes are there and a zero byte behind them, not
behind the limit. -/
theorem readText_eq_some_iff {s : String} : m.readText address limit = some s ↔
    firstMapped ≤ address ∧ ∃ n ≤ limit, m.byte (address + UInt64.ofNat n) = 0 ∧
      (∀ i < n, m.byte (address + UInt64.ofNat i) ≠ 0) ∧
      m.slice address n = s.toUTF8.data.toList := by
  constructor
  · intro h
    unfold readText at h
    split at h
    · cases h
    · next ha =>
      obtain ⟨bytes, hb, hs⟩ := Option.bind_eq_some_iff.1 h
      obtain ⟨hlt, hz, hslice⟩ := scan_slice hb
      refine ⟨UInt64.not_lt.1 ha, bytes.length, Nat.le_of_lt_succ hlt, hz, ?_, ?_⟩
      · rw [← zero_notMem_slice_iff, hslice]
        exact zero_notMem_scan hb
      · rw [hslice]
        exact decode_eq_some_iff.1 hs
  · rintro ⟨ha, n, hn, hz, hne, hslice⟩
    have hlen : (m.slice address n).length = n := length_slice m address n
    have hscan : m.scan address (limit + 1) = some (m.slice address n) := by
      rw [scan_eq (limit + 1) (zero_notMem_slice_iff.2 hne)
        (fun i hi => (getElem_slice hi).symm) (by rw [hlen]; exact hz), hlen,
        if_pos (Nat.lt_succ_of_le hn)]
    rw [readText, if_neg (UInt64.not_lt.2 ha), hscan, Option.bind_some]
    exact decode_eq_some_iff.2 hslice

/-! ## The bytes that are needed -/

section readTextWith

variable {M : Type → Type} [Monad M]

/-- `Bytes.scan` over any way of reading a byte. -/
def scanWith (read : UInt64 → M UInt8) (address : UInt64) : Nat → M (Option (List UInt8))
  | 0 => pure none
  | n + 1 => do
    let b ← read address
    if b = 0 then return some []
    else return (← scanWith read (address + 1) n).map (b :: ·)

/-- `Bytes.readText` over any way of reading a byte. -/
def readTextWith (read : UInt64 → M UInt8) (address : UInt64) (limit : Nat) :
    M (Option String) :=
  if address < firstMapped then return none
  else return (← scanWith read address (limit + 1)).bind decode

end readTextWith

theorem scanWith_pure (m : Bytes) (address : UInt64) (n : Nat) :
    scanWith (M := Id) m.byte address n = m.scan address n := by
  induction n generalizing address with
  | zero => rfl
  | succ n ih =>
    rw [scanWith, scan, ← ih]
    rfl

/-- In a memory in which every byte can be read the scan is that of the kernel. -/
theorem readTextWith_pure (m : Bytes) (address : UInt64) (limit : Nat) :
    readTextWith (M := Id) m.byte address limit = m.readText address limit := by
  rw [readTextWith, readText, ← scanWith_pure]
  rfl

/-- A byte of the memory, if it can be read. -/
def guarded (m : Bytes) (mapped : UInt64 → Bool) (a : UInt64) : Option UInt8 :=
  if mapped a then some (m.byte a) else none

/-- The offset is not behind the first zero byte, and not behind the limit. -/
def Reads (m : Bytes) (address : UInt64) (limit i : Nat) : Prop :=
  i ≤ limit ∧ ∀ j < i, m.byte (address + UInt64.ofNat j) ≠ 0

theorem scanWith_guarded {mapped : UInt64 → Bool} {n : Nat}
    (h : ∀ i < n, (∀ j < i, m.byte (address + UInt64.ofNat j) ≠ 0) →
      mapped (address + UInt64.ofNat i) = true) :
    scanWith (m.guarded mapped) address n = some (m.scan address n) := by
  induction n generalizing address with
  | zero => rfl
  | succ n ih =>
    have h0 : mapped address = true := by
      have := h 0 (Nat.succ_pos n) fun j hj => absurd hj (Nat.not_lt_zero j)
      rwa [offset_zero] at this
    rw [scanWith, scan, guarded, if_pos h0]
    by_cases hz : m.byte address = 0
    · simp [hz]
    · have hrest : scanWith (m.guarded mapped) (address + 1) n = some (m.scan (address + 1) n) := by
        refine ih fun i hi hne => ?_
        rw [← offset_succ]
        refine h (i + 1) (Nat.succ_lt_succ hi) fun j hj => ?_
        cases j with
        | zero => rwa [offset_zero]
        | succ j =>
          rw [offset_succ]
          exact hne j (Nat.lt_of_succ_lt_succ hj)
      simp [hz, hrest]

/-- The scan needs no byte behind the first zero byte or behind the limit, and none at all if the
address is not mapped. -/
theorem readTextWith_guarded {mapped : UInt64 → Bool}
    (h : firstMapped ≤ address →
      ∀ i, m.Reads address limit i → mapped (address + UInt64.ofNat i) = true) :
    readTextWith (m.guarded mapped) address limit = some (m.readText address limit) := by
  rw [readTextWith, readText]
  split
  · rfl
  · next ha =>
    have ha := UInt64.not_lt.1 ha
    rw [scanWith_guarded fun i hi hne => h ha i ⟨Nat.le_of_lt_succ hi, hne⟩]
    rfl

/-! ## The buffer -/

theorem Reads.le {n i : Nat} (h : m.Reads address limit i)
    (hz : m.byte (address + UInt64.ofNat n) = 0) : i ≤ n :=
  Nat.le_of_not_lt fun hlt => h.2 n hlt hz

section buffer

variable {name : String} {buffer : List UInt8}
  (hb : UserLibrary.nameBuffer name = some buffer)
  (hs : m.slice address buffer.length = buffer)

include hs in
theorem byte_buffer {i : Nat} (hi : i < buffer.length) :
    m.byte (address + UInt64.ofNat i) = buffer[i] := by
  have hi' : i < (m.slice address buffer.length).length := by rwa [hs]
  rw [← getElem_slice hi']
  simp only [hs]

include hb

/-- What the buffer holds. -/
theorem nameBuffer_some : name.utf8ByteSize ≤ UserLibrary.maxNameLength ∧
    0 ∉ name.toUTF8.data.toList ∧
    buffer = name.toUTF8.data.toList ++
      0 :: List.replicate (UserLibrary.maxNameLength - name.utf8ByteSize) 0 := by
  have h := mt UserLibrary.nameBuffer_eq_none_iff.2 (hb ▸ Option.some_ne_none buffer)
  rw [not_or, Nat.not_lt] at h
  rw [UserLibrary.nameBuffer_eq h.1 h.2] at hb
  exact ⟨h.1, h.2, (Option.some.inj hb).symm⟩

theorem length_nameBuffer : buffer.length = UserLibrary.maxNameLength + 1 := by
  obtain ⟨hl, -, rfl⟩ := nameBuffer_some hb
  have hlen : name.toUTF8.data.toList.length = name.utf8ByteSize := rfl
  rw [List.length_append, List.length_cons, List.length_replicate, hlen]
  omega

include hs

/-- The name is read from the buffer, whatever is behind it. -/
theorem readText_buffer (ha : firstMapped ≤ address) (limit : Nat) :
    m.readText address limit = if name.utf8ByteSize ≤ limit then some name else none := by
  obtain ⟨-, hz, rfl⟩ := nameBuffer_some hb
  exact readText_eq limit hz ha fun i hi => byte_buffer hs hi

theorem readTextWith_buffer {mapped : UInt64 → Bool} (limit : Nat)
    (hm : ∀ i < buffer.length, mapped (address + UInt64.ofNat i) = true) :
    readTextWith (m.guarded mapped) address limit = some (m.readText address limit) := by
  refine readTextWith_guarded fun _ i hi => hm i ?_
  obtain ⟨-, -, rfl⟩ := nameBuffer_some hb
  have hlt : name.toUTF8.data.toList.length < (name.toUTF8.data.toList ++
      0 :: List.replicate (UserLibrary.maxNameLength - name.utf8ByteSize) 0).length := by simp
  have hz : m.byte (address + UInt64.ofNat name.toUTF8.data.toList.length) = 0 :=
    (byte_buffer hs hlt).trans (by simp)
  exact Nat.lt_of_le_of_lt (hi.le hz) hlt

theorem call_buffer (ha : firstMapped ≤ address) (k : Kernel) (caller : Pid) (task : TaskId)
    (argc : Nat) (argv : UInt64) :
    k.call caller task (UserLibrary.execTrap address argc argv) m .exec =
      if name.utf8ByteSize ≤ k.config.maxNameLength then
        .started (.exec k caller name (.ofNat argc))
      else .answered (.error .invalidArgument) := by
  have hread := readText_buffer hb hs ha k.config.maxNameLength
  split
  case isTrue hl =>
    rw [if_pos hl] at hread
    rw [← UserLibrary.signed32_ofNat]
    exact Kernel.call_exec hread
  case isFalse hl =>
    rw [if_neg hl] at hread
    exact Kernel.call_exec_unread hread

end buffer

/-- The text that the kernel reads is what the memory spells at a mapped address, and the scan needs
no byte behind the terminator or the limit. A name that fits the buffer of the user library is read
back by every kernel whose limit it meets, and by no other, and the scan stays in the buffer. -/
theorem name_passing :
    (∀ (m : Bytes) (address : UInt64) (limit : Nat),
      (∀ s : String, m.readText address limit = some s ↔
        firstMapped ≤ address ∧ ∃ n ≤ limit, m.byte (address + UInt64.ofNat n) = 0 ∧
          (∀ i < n, m.byte (address + UInt64.ofNat i) ≠ 0) ∧
          m.slice address n = s.toUTF8.data.toList) ∧
      readTextWith (M := Id) m.byte address limit = m.readText address limit ∧
      ∀ mapped : UInt64 → Bool,
        (firstMapped ≤ address →
          ∀ i, m.Reads address limit i → mapped (address + UInt64.ofNat i) = true) →
        readTextWith (m.guarded mapped) address limit = some (m.readText address limit)) ∧
    ∀ name : String, name.utf8ByteSize ≤ 256 → 0 ∉ name.toUTF8.data.toList →
      ∃ buffer, UserLibrary.nameBuffer name = some buffer ∧ buffer.length = 257 ∧
        ∀ (m : Bytes) (address : UInt64), firstMapped ≤ address → m.slice address 257 = buffer →
          (∀ limit, m.readText address limit =
            if name.utf8ByteSize ≤ limit then some name else none) ∧
          (∀ (limit : Nat) (mapped : UInt64 → Bool),
            (∀ i < 257, mapped (address + UInt64.ofNat i) = true) →
            readTextWith (m.guarded mapped) address limit = some (m.readText address limit)) ∧
          ∀ (k : Kernel) (caller : Pid) (task : TaskId) (argc : Nat) (argv : UInt64),
            k.call caller task (UserLibrary.execTrap address argc argv) m .exec =
              if name.utf8ByteSize ≤ k.config.maxNameLength then
                .started (.exec k caller name (.ofNat argc))
              else .answered (.error .invalidArgument) := by
  constructor
  · exact fun m address limit => ⟨fun s => readText_eq_some_iff, readTextWith_pure m address limit,
      fun mapped => readTextWith_guarded⟩
  · intro name hl hz
    have hb := UserLibrary.nameBuffer_eq hl hz
    have hlen := length_nameBuffer hb
    refine ⟨_, hb, hlen, fun m address ha hs => ?_⟩
    rw [← show _ = 257 from hlen] at hs
    refine ⟨readText_buffer hb hs ha, fun limit mapped hm => ?_, call_buffer hb hs ha⟩
    exact readTextWith_buffer hb hs limit fun i hi => hm i (Nat.lt_of_lt_of_eq hi hlen)

/-- A name with letters of two bytes is read back from a buffer between bytes that are not
mapped. -/
theorem umlauts_passed : ∃ buffer, UserLibrary.nameBuffer "größe.coff" = some buffer ∧
    let m := (Bytes.mk fun _ => 0xff).store 0x1000 buffer
    let mapped (a : UInt64) : Bool := 0x1000 ≤ a ∧ a < 0x1101
    m.readText 0x1000 12 = some "größe.coff" ∧ m.readText 0x1000 11 = none ∧
      readTextWith (m.guarded mapped) 0x1000 1000 = some (some "größe.coff") := by
  obtain ⟨buffer, hb, hlen, h⟩ := name_passing.2 "größe.coff" (by decide) (by decide)
  have hs : ((Bytes.mk fun _ => 0xff).store 0x1000 buffer).slice 0x1000 buffer.length = buffer :=
    slice_store (hlen ▸ by decide)
  rw [hlen] at hs
  obtain ⟨hread, hscan, -⟩ := h _ 0x1000 (by decide) hs
  refine ⟨buffer, hb, hread 12, hread 11, ?_⟩
  exact (hscan 1000 _ (by decide +kernel)).trans (congrArg some (hread 1000))

end Bytes

end Lifecycle
