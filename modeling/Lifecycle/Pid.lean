/-!
# Process identifiers

A `Pid` is a 32-bit number. PIDs cross the system call boundary as non-negative `i32` values, so
a `PidRange` fixes the largest one that is ever handed out, and always leaves room above it: the
next number after the largest still fits 32 bits.

* `Pid.root`: the number of the first process.
* `PidRange.decode`: the PID a register names, if it is in range.
-/

namespace Lifecycle

/-- A process identifier. -/
structure Pid where
  number : UInt32
deriving DecidableEq, Hashable, Inhabited

namespace Pid

/-- The PID of the root process. -/
def root : Pid := ⟨0⟩

instance : LT Pid := ⟨fun a b => a.number < b.number⟩

instance (a b : Pid) : Decidable (a < b) := inferInstanceAs (Decidable (a.number < b.number))

instance : ToString Pid := ⟨fun p => toString p.number.toNat⟩

theorem lt_iff {a b : Pid} : a < b ↔ a.number.toNat < b.number.toNat := UInt32.lt_iff_toNat_lt

theorem toNat_inj {a b : Pid} : a.number.toNat = b.number.toNat ↔ a = b := by
  cases a; cases b; simp [UInt32.toNat_inj]

theorem lt_irrefl (a : Pid) : ¬ a < a := by simp [lt_iff]

theorem lt_trans {a b c : Pid} (h : a < b) (g : b < c) : a < c := by
  rw [lt_iff] at *; omega

theorem lt_asymm {a b : Pid} (h : a < b) : ¬ b < a := by rw [lt_iff] at *; omega

theorem ne_of_lt {a b : Pid} (h : a < b) : a ≠ b := fun e => lt_irrefl a (e ▸ h)

theorem lt_or_lt_of_ne {a b : Pid} (h : a ≠ b) : a < b ∨ b < a := by
  have := mt toNat_inj.1 h
  rw [lt_iff, lt_iff]; omega

/-- How a PID is written inside a larger value. -/
def describe (p : Pid) : String := s!"ProcessId({p})"

end Pid

/-- The PIDs a kernel hands out: `0` to `largest`. -/
structure PidRange where
  largest : UInt32
  /-- The number after the largest PID is no overflow. -/
  room : largest.toNat + 1 < UInt32.size

namespace PidRange

/-- The non-negative `i32` values. -/
def standard : PidRange := ⟨0x7fffffff, by decide⟩

instance : Inhabited PidRange := ⟨standard⟩

/-- The numbers up to `largest`; the standard range if there is no room above it. -/
def upTo (largest : UInt32) : PidRange :=
  if h : largest.toNat + 1 < UInt32.size then ⟨largest, h⟩ else standard

/-- `p` is a number this range hands out. -/
def Contains (range : PidRange) (p : Pid) : Prop := p.number ≤ range.largest

instance (range : PidRange) (p : Pid) : Decidable (range.Contains p) :=
  inferInstanceAs (Decidable (p.number ≤ range.largest))

/-- The PID with the value `raw`; `none` for a negative value or one above the range. -/
def decode (range : PidRange) (raw : Int64) : Option Pid :=
  if 0 ≤ raw.toInt ∧ raw.toInt ≤ range.largest.toNat then some ⟨raw.toUInt64.toUInt32⟩ else none

end PidRange

end Lifecycle
