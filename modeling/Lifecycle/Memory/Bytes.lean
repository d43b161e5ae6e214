import Lifecycle.Memory.User

/-!
# Flat memory

A flat memory is a byte for each address. The page at address zero is never mapped. Text ends
with a zero byte and is UTF-8; numbers are little-endian and need no alignment.

* `Bytes.scan`: the bytes before the first zero byte of a range.
* `Bytes.readText`, `Bytes.writeWord`: the two operations on user memory.
-/

namespace Lifecycle

/-- A byte for each address. -/
structure Bytes where
  byte : UInt64 → UInt8

namespace Bytes

/-- The first address that is mapped. -/
def firstMapped : UInt64 := 0x1000

instance : Inhabited Bytes := ⟨⟨fun _ => 0⟩⟩

/-- The memory with `bytes` from an address on. -/
def store (m : Bytes) (address : UInt64) (bytes : List UInt8) : Bytes where
  byte a :=
    match bytes[(a - address).toNat]? with
    | some b => b
    | none => m.byte a

/-- The `n` bytes from an address on. -/
def slice (m : Bytes) (address : UInt64) (n : Nat) : List UInt8 :=
  (List.range n).map (fun i => m.byte (address + UInt64.ofNat i))

/-- The bytes before the first zero byte, if there is one among the next `n`. -/
def scan (m : Bytes) (address : UInt64) : Nat → Option (List UInt8)
  | 0 => none
  | n + 1 =>
    if m.byte address = 0 then some []
    else (m.scan (address + 1) n).map (m.byte address :: ·)

/-- The text of a list of bytes, if they are UTF-8. -/
def decode (bytes : List UInt8) : Option String := String.fromUTF8? bytes.toByteArray

/-- The text at a mapped address, up to its terminator, if it takes at most `limit` bytes. -/
def readText (m : Bytes) (address : UInt64) (limit : Nat) : Option String :=
  if address < firstMapped then none else (m.scan address (limit + 1)).bind decode

/-- The four bytes of a 32-bit number, lowest first. -/
def wordBytes (value : Int32) : List UInt8 :=
  [value.toUInt32, value.toUInt32 >>> 8, value.toUInt32 >>> 16, value.toUInt32 >>> 24].map
    UInt32.toUInt8

/-- The memory after a 32-bit number was stored at a mapped address. -/
def writeWord (m : Bytes) (address : UInt64) (value : Int32) : Option Bytes :=
  if address < firstMapped then none else some (m.store address (wordBytes value))

/-- The 32-bit number at an address. -/
def readWord (m : Bytes) (address : UInt64) : Int32 :=
  UInt32.toInt32 ((m.slice address 4).foldr (fun b n => (n <<< 8) ||| b.toUInt32) 0)

instance : UserMemory Bytes := ⟨readText, writeWord⟩

end Bytes

end Lifecycle
