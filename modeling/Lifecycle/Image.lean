import Lifecycle.Text.Hex

/-!
# Executable images

Loading an executable builds a new `AddressSpace`, which the new process owns alone, and yields
the entry point and the initial stack (`LoadedImage`). Loading can fail (`LoadError`).
-/

namespace Lifecycle

/-- An address space. Its pages go back to the machine when it is dropped. -/
structure AddressSpace where
  /-- Which load built it: no two loads share a number. -/
  serial : Nat
  /-- Physical pages behind it. -/
  pages : Nat
deriving DecidableEq, Inhabited

/-- What loading an executable yields. -/
structure LoadedImage where
  /-- First instruction. -/
  entry : UInt64
  /-- Top of the user stack. -/
  stack : UInt64
  space : AddressSpace
deriving DecidableEq, Inhabited

/-- The text form of a loaded image: addresses in hexadecimal, and the page count. -/
def LoadedImage.describe (i : LoadedImage) : String :=
  s!"LoadedImage \x7b entry_point: {Text.hex i.entry.toNat}, stack_top: {Text.hex i.stack.toNat}"
    ++ s!", pages: {i.space.pages} \x7d"

/-- Why an executable cannot be loaded. -/
inductive LoadError where
  /-- There is no executable of that name. -/
  | notFound
  /-- The executable exists and is damaged. -/
  | malformed (why : String)
  /-- Not enough pages for the image and its stack. -/
  | outOfMemory
deriving DecidableEq, Inhabited

/-- The wording of a load error. -/
def LoadError.message : LoadError → String
  | notFound => "executable not found"
  | malformed why => s!"malformed executable: {why}"
  | outOfMemory => "insufficient physical memory"

end Lifecycle
