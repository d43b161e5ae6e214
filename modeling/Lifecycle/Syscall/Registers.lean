import Lifecycle.Syscall.Number

/-!
# Registers of a system call

A system call passes its number and up to six arguments in registers. A register read as a signed
32-bit number is its low half.
-/

namespace Lifecycle

/-- The registers at a system call. -/
structure Registers where
  number : UInt64
  arg1 : UInt64 := 0
  arg2 : UInt64 := 0
  arg3 : UInt64 := 0
  arg4 : UInt64 := 0
  arg5 : UInt64 := 0
  arg6 : UInt64 := 0
deriving DecidableEq, Inhabited

namespace Registers

/-- The registers with the leading arguments filled in. Missing arguments are zero and surplus
ones are ignored. -/
def ofArguments (number : UInt64) (args : List UInt64) : Registers where
  number := number
  arg1 := args.getD 0 0
  arg2 := args.getD 1 0
  arg3 := args.getD 2 0
  arg4 := args.getD 3 0
  arg5 := args.getD 4 0
  arg6 := args.getD 5 0

/-- The number and the arguments in order. -/
def toList (r : Registers) : List UInt64 :=
  [r.number, r.arg1, r.arg2, r.arg3, r.arg4, r.arg5, r.arg6]

/-- The low half of a register as a signed number. -/
def signed32 (register : UInt64) : Int32 := register.toUInt32.toInt32

/-- The register that holds a signed number: the sign fills the high half. -/
def ofSigned32 (value : Int32) : UInt64 := value.toInt64.toUInt64

end Registers

end Lifecycle
