/-!
# User memory

The view the kernel has of the memory of a calling process. Both operations fail softly: a failed
read gives nothing, and a failed write changes nothing.
-/

namespace Lifecycle

/-- `μ` holds the memory of a process. -/
class UserMemory (μ : Type) where
  /-- The text at an address, up to its terminator, if it takes at most `limit` bytes. -/
  readText : (memory : μ) → (address : UInt64) → (limit : Nat) → Option String
  /-- The memory after a 32-bit number was stored at an address. -/
  writeWord : (memory : μ) → (address : UInt64) → (value : Int32) → Option μ

end Lifecycle
