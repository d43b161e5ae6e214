import Lifecycle.Memory.Bytes
import Mathlib.Algebra.GroupWithZero.Nat

/-!
# Reading flat memory back

What was stored in a flat memory is read back.

* `Bytes.readText_store`: text, if its terminator is close enough.
* `Bytes.zero_notMem_readText`: no text that is read holds a zero byte.
* `Bytes.readWord_store`: a number, which is the sum of its bytes (`toNat_joined`).
-/

namespace Lifecycle

namespace Bytes

variable {m : Bytes} {address : UInt64} {bytes : List UInt8}

theorem byte_store (m : Bytes) (address : UInt64) {i : Nat} (hi : i < bytes.length)
    (hb : bytes.length ≤ UInt64.size) :
    (m.store address bytes).byte (address + UInt64.ofNat i) = bytes[i] := by
  have ha : (address + UInt64.ofNat i - address).toNat = i := by
    rw [UInt64.add_comm, UInt64.add_sub_cancel]
    exact UInt64.toNat_ofNat_of_lt' (by omega)
  simp only [store, ha, List.getElem?_eq_getElem hi]

theorem offset_zero (address : UInt64) : address + UInt64.ofNat 0 = address :=
  UInt64.add_zero address

theorem offset_succ (address : UInt64) (i : Nat) :
    address + UInt64.ofNat (i + 1) = address + 1 + UInt64.ofNat i := by
  rw [UInt64.ofNat_add, UInt64.add_comm (UInt64.ofNat i), ← UInt64.add_assoc]
  rfl

/-! ## Text -/

/-- The bytes up to the first zero byte, if it is in the range. -/
theorem scan_eq (n : Nat) (hz : 0 ∉ bytes)
    (hb : ∀ (i : Nat) (hi : i < bytes.length), m.byte (address + UInt64.ofNat i) = bytes[i])
    (he : m.byte (address + UInt64.ofNat bytes.length) = 0) :
    m.scan address n = if bytes.length < n then some bytes else none := by
  induction bytes generalizing address n with
  | nil =>
    cases n with
    | zero => rfl
    | succ n =>
      have he : m.byte address = 0 := by simpa using he
      simp [scan, he]
  | cons b bytes ih =>
    cases n with
    | zero => rfl
    | succ n =>
      have h0 : m.byte address = b := by
        have := hb 0 (Nat.succ_pos _)
        rwa [offset_zero] at this
      have hs := offset_succ address
      have hr : m.scan (address + 1) n = if bytes.length < n then some bytes else none :=
        ih n (fun h => hz (.tail _ h))
          (fun i hi => by rw [← hs]; exact hb (i + 1) (Nat.succ_lt_succ hi))
          (by rw [← hs]; exact he)
      have hne : ¬ b = 0 := fun e => hz (e ▸ .head _)
      rw [scan, h0, if_neg hne, hr]
      by_cases hl : bytes.length < n <;> simp [hl]

theorem decode_toUTF8 (s : String) : decode s.toUTF8.data.toList = some s := by
  have h : s.toByteArray.data.toList.toByteArray = s.toByteArray := ByteArray.ext (by simp)
  simp only [decode, String.fromUTF8?, String.toUTF8, h, s.isValidUTF8, dite_true]
  rfl

/-- A text without a zero byte, whose bytes are in the memory with a terminator. -/
theorem readText_eq {s : String} {rest : List UInt8} (limit : Nat)
    (hz : 0 ∉ s.toUTF8.data.toList) (ha : firstMapped ≤ address)
    (hb : ∀ (i : Nat) (hi : i < (s.toUTF8.data.toList ++ 0 :: rest).length),
      m.byte (address + UInt64.ofNat i) = (s.toUTF8.data.toList ++ 0 :: rest)[i]) :
    m.readText address limit = if s.utf8ByteSize ≤ limit then some s else none := by
  have hlen : s.toUTF8.data.toList.length = s.utf8ByteSize := rfl
  rw [readText, if_neg (UInt64.not_lt.2 ha), scan_eq (limit + 1) hz
    (fun i hi =>
      (hb i (by simp only [List.length_append]; omega)).trans (List.getElem_append_left hi))
    ((hb _ (by simp)).trans (by simp)), hlen]
  by_cases h : s.utf8ByteSize ≤ limit
  · rw [if_pos h, if_pos (Nat.lt_succ_of_le h), Option.bind_some, decode_toUTF8]
  · rw [if_neg h, if_neg (by omega), Option.bind_none]

/-- A text without a zero byte, which was stored with its terminator. -/
theorem readText_store {s : String} {rest : List UInt8} (limit : Nat)
    (hz : 0 ∉ s.toUTF8.data.toList) (ha : firstMapped ≤ address)
    (hl : (s.toUTF8.data.toList ++ 0 :: rest).length ≤ UInt64.size) :
    (m.store address (s.toUTF8.data.toList ++ 0 :: rest)).readText address limit =
      if s.utf8ByteSize ≤ limit then some s else none :=
  readText_eq limit hz ha fun _ hi => byte_store m address hi hl

theorem zero_notMem_scan {n : Nat} (h : m.scan address n = some bytes) : 0 ∉ bytes := by
  induction n generalizing address bytes with
  | zero => cases h
  | succ n ih =>
    rw [scan] at h
    split at h
    · cases h
      exact List.not_mem_nil
    · next hne =>
      obtain ⟨rest, hrest, rfl⟩ := Option.map_eq_some_iff.1 h
      simp only [List.mem_cons, not_or]
      exact ⟨Ne.symm hne, ih hrest⟩

theorem toUTF8_decode {s : String} (h : decode bytes = some s) :
    s.toUTF8.data.toList = bytes := by
  unfold decode String.fromUTF8? at h
  split at h
  · cases h
    exact List.toList_data_toByteArray
  · cases h

theorem zero_notMem_readText {s : String} {limit : Nat} (h : m.readText address limit = some s) :
    0 ∉ s.toUTF8.data.toList := by
  unfold readText at h
  split at h
  · cases h
  · obtain ⟨bytes, hb, hs⟩ := Option.bind_eq_some_iff.1 h
    rw [toUTF8_decode hs]
    exact zero_notMem_scan hb

/-! ## Numbers -/

/-- The number with the bytes `bytes`, lowest first. -/
def joined (bytes : List UInt8) : UInt32 := bytes.foldr (fun b n => (n <<< 8) ||| b.toUInt32) 0

theorem toNat_push (n : UInt32) (b : UInt8) (hn : n.toNat < 2 ^ 24) :
    (n <<< 8 ||| b.toUInt32).toNat = n.toNat * 256 + b.toNat := by
  have hs : (n <<< 8).toNat = n.toNat <<< 8 := by
    rw [UInt32.toNat_shiftLeft, Nat.mod_eq_of_lt]
    · rfl
    · have : n.toNat <<< 8 = n.toNat * 2 ^ 8 := Nat.shiftLeft_eq ..
      show n.toNat <<< 8 < 2 ^ 32
      omega
  rw [UInt32.toNat_or, hs, UInt8.toNat_toUInt32, ← Nat.shiftLeft_add_eq_or_of_lt b.toNat_lt,
    Nat.shiftLeft_eq]

/-- Up to four bytes fit. -/
theorem toNat_joined (bytes : List UInt8) (h : bytes.length ≤ 4) :
    (joined bytes).toNat = bytes.foldr (fun b n => n * 256 + b.toNat) 0 ∧
    (joined bytes).toNat < 256 ^ bytes.length := by
  induction bytes with
  | nil => exact ⟨rfl, Nat.one_pos⟩
  | cons b bytes ih =>
    obtain ⟨he, hlt⟩ := ih (Nat.le_of_succ_le h)
    have hb := b.toNat_lt
    have hle : 256 ^ bytes.length ≤ 256 ^ 3 :=
      Nat.pow_le_pow_right (by decide) (Nat.le_of_succ_le_succ h)
    rw [joined, List.foldr_cons, ← joined, toNat_push _ _ (by omega), List.foldr_cons, ← he,
      List.length_cons, Nat.pow_succ]
    exact ⟨rfl, by omega⟩

theorem toNat_byte {k : Nat} (n : UInt32) (hk : k < 32) :
    (n >>> UInt32.ofNat k).toUInt8.toNat = n.toNat / 2 ^ k % 256 := by
  have hk' : (UInt32.ofNat k).toNat = k := UInt32.toNat_ofNat_of_lt' (Nat.lt_trans hk (by decide))
  rw [UInt32.toNat_toUInt8, UInt32.toNat_shiftRight, hk', Nat.mod_eq_of_lt hk,
    Nat.shiftRight_eq_div_pow]

theorem joined_wordBytes (value : Int32) : joined (wordBytes value) = value.toUInt32 := by
  refine UInt32.toNat_inj.1 ((toNat_joined (wordBytes value) (Nat.le_refl 4)).1.trans ?_)
  have h := value.toUInt32.toNat_lt
  have h₀ : value.toUInt32.toUInt8.toNat = value.toUInt32.toNat % 256 := UInt32.toNat_toUInt8 _
  have h₁ : (value.toUInt32 >>> 8).toUInt8.toNat = value.toUInt32.toNat / 2 ^ 8 % 256 :=
    toNat_byte _ (by decide)
  have h₂ : (value.toUInt32 >>> 16).toUInt8.toNat = value.toUInt32.toNat / 2 ^ 16 % 256 :=
    toNat_byte _ (by decide)
  have h₃ : (value.toUInt32 >>> 24).toUInt8.toNat = value.toUInt32.toNat / 2 ^ 24 % 256 :=
    toNat_byte _ (by decide)
  simp only [wordBytes, List.map_cons, List.map_nil, List.foldr_cons, List.foldr_nil]
  omega

theorem readWord_store (m : Bytes) (address : UInt64) (value : Int32) :
    (m.store address (wordBytes value)).readWord address = value := by
  have hb {i : Nat} (hi : i < (wordBytes value).length) :=
    byte_store m address hi (show 4 ≤ UInt64.size by decide)
  have hs : (m.store address (wordBytes value)).slice address 4 = wordBytes value := by
    refine List.ext_getElem rfl fun i _ hi => ?_
    simp only [slice, List.getElem_map, List.getElem_range]
    exact hb hi
  rw [readWord, hs, ← joined, joined_wordBytes]
  exact Int32.toInt32_toUInt32 value

end Bytes

end Lifecycle
