import Lifecycle.Error

/-!
# Error codes of system calls

A system call that fails returns a small negative code. `SyscallError` lists the codes,
`ProcessError.toSyscallError` maps the errors of the kernel to them, and `SyscallResult.raw` is
what the return register holds.
-/

namespace Lifecycle

/-- Why a system call failed. -/
inductive SyscallError where
  /-- There is no system call of that number. -/
  | invalidSyscall
  | invalidArgument
  | permissionDenied
  /-- There is no such executable or process. -/
  | notFound
  /-- No PID, table slot, memory or task is left. -/
  | resourceExhausted
  /-- The executable cannot be loaded. -/
  | loadFailure
  /-- The target of a join is not an un-joined child of the caller. -/
  | invalidJoin
deriving DecidableEq, Inhabited

namespace SyscallError

/-- The value of the return register. -/
def code : SyscallError → Int64
  | invalidSyscall => -1
  | invalidArgument => -2
  | permissionDenied => -3
  | notFound => -4
  | resourceExhausted => -5
  | loadFailure => -6
  | invalidJoin => -7

/-- How an error is written in a trace. -/
def describe : SyscallError → String
  | invalidSyscall => "InvalidSyscall"
  | invalidArgument => "InvalidArgument"
  | permissionDenied => "PermissionDenied"
  | notFound => "NotFound"
  | resourceExhausted => "ResourceExhausted"
  | loadFailure => "LoadFailure"
  | invalidJoin => "InvalidJoin"

/-- The error of a code. -/
def ofCode? (code : Int64) : Option SyscallError :=
  [invalidSyscall, invalidArgument, permissionDenied, notFound, resourceExhausted, loadFailure,
    invalidJoin].find? (fun e => e.code = code)

theorem ofCode?_code (e : SyscallError) : ofCode? e.code = some e := by cases e <;> rfl

end SyscallError

/-- The error code of a process error. -/
def ProcessError.toSyscallError : ProcessError → SyscallError
  | resourceExhausted => .resourceExhausted
  | notFound => .notFound
  | invalidJoin => .invalidJoin
  | loadFailure => .loadFailure
  | invalidArgument _ => .invalidArgument
  | permissionDenied => .permissionDenied

/-- What a system call that returns answers. -/
abbrev SyscallResult := Except SyscallError UInt64

namespace SyscallResult

/-- The value of the return register. -/
def raw : SyscallResult → Int64
  | .ok value => value.toInt64
  | .error e => e.code

/-- How a result is written in a trace. -/
def describe : SyscallResult → String
  | .ok value => s!"Ok({value.toNat})"
  | .error e => s!"Err({e.describe})"

end SyscallResult

end Lifecycle
