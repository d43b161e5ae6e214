import Lifecycle.Error

/-!
# Configuration

The limits a kernel runs under, and the check of executable names against them
(`Config.validateName`). Name lengths count UTF-8 bytes.
-/

namespace Lifecycle

/-- The limits of a kernel. -/
structure Config where
  /-- Most records in the process table. -/
  maxProcesses : Nat := 1024
  /-- Longest executable name, in bytes. -/
  maxNameLength : Nat := 256
  /-- The suffix every executable name carries; `none` accepts any name. -/
  suffix : Option String := some ".coff"
  /-- Halt the machine when the last running process ends. -/
  haltWhenIdle : Bool := true
deriving DecidableEq, Inhabited

namespace Config

/-- `name` is a non-empty stem followed by `suffix`. -/
def hasSuffix (suffix name : String) : Bool :=
  suffix.toList.isSuffixOf name.toList && name.utf8ByteSize != suffix.utf8ByteSize

/-- Why `name` is no executable name, if it is none: it is empty, too long, or not a stem with the
suffix. -/
def validateName (config : Config) (name : String) : Except ProcessError Unit :=
  if name.isEmpty then .error (.invalidArgument "empty executable name")
  else if name.utf8ByteSize > config.maxNameLength then
    .error (.invalidArgument "executable name too long")
  else if config.suffix.any (fun suffix => !hasSuffix suffix name) then
    .error (.invalidArgument "not an executable name")
  else .ok ()

end Config

end Lifecycle
