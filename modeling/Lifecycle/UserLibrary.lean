import Lifecycle.Memory.Bytes
import Lifecycle.Syscall.Error
import Lifecycle.Syscall.Registers

/-!
# The user library

What programs use to make system calls. Each function has two halves: the registers it traps with,
and what it makes of the return register.

A name is passed in a buffer of fixed size, filled up with zero bytes. A name that does not fit or
holds a zero byte is refused without a system call.

* `UserLibrary.execTrap`, `UserLibrary.execReply`: run a program in a new child process.
* `UserLibrary.joinTrap`, `UserLibrary.joinReply`: wait for a child.
* `UserLibrary.convert`: what the return register says.
-/

namespace Lifecycle

/-- Why a library call failed. -/
inductive UserError where
  /-- The kernel answered with one of its error codes. -/
  | syscall (error : SyscallError)
  /-- The kernel answered with a negative number that is no error code. -/
  | unknown
deriving DecidableEq, Inhabited

namespace UserError

/-- The error a negative return register stands for. -/
def ofRaw (raw : Int64) : UserError :=
  match SyscallError.ofCode? raw with
  | some e => syscall e
  | none => unknown

/-- The number of an error. -/
def code : UserError → Int64
  | syscall e => e.code
  | unknown => -255

/-- How an error is written in a transcript. -/
def describe : UserError → String
  | syscall e => e.describe
  | unknown => "Unknown"

end UserError

/-- How a joined child ended. -/
inductive JoinStatus where
  /-- The child exited with this code. -/
  | exited (code : Int32)
  /-- The kernel ended the child. -/
  | killed
deriving DecidableEq, Inhabited

/-- The exit code of a child that exited. -/
def JoinStatus.exitCode? : JoinStatus → Option Int32
  | exited code => some code
  | killed => none

namespace UserLibrary

/-- The longest name that fits the buffer, in bytes. -/
def maxNameLength : Nat := 256

/-- What a return register says: a value, or an error if it is negative. -/
def convert (raw : Int64) : Except UserError UInt64 :=
  if 0 ≤ raw then .ok raw.toUInt64 else .error (.ofRaw raw)

/-- The buffer with a name, unless the name is too long or holds a zero byte. -/
def nameBuffer (name : String) : Option (List UInt8) :=
  let bytes := name.toUTF8.data.toList
  if bytes.length > maxNameLength ∨ 0 ∈ bytes then none
  else some (bytes ++ List.replicate (maxNameLength + 1 - bytes.length) 0)

/-- Registers of the system call that runs the program whose name is in the buffer at `buffer`,
with `argc` arguments at `argv`. -/
def execTrap (buffer : UInt64) (argc : Nat) (argv : UInt64) : Registers :=
  .ofArguments Syscall.exec.number [buffer, UInt64.ofNat argc, argv]

/-- The PID of the new child. -/
def execReply (raw : Int64) : Except UserError UInt32 := (convert raw).map (·.toUInt32)

/-- Registers of the system call that waits for `pid`, with the status slot at `slot`. -/
def joinTrap (pid : UInt32) (slot : UInt64) : Registers :=
  .ofArguments Syscall.join.number [pid.toUInt64, slot, 0]

/-- How the joined child ended, if `status` is what the status slot holds. -/
def joinReply (raw : Int64) (status : Int32) : Except UserError JoinStatus :=
  (convert raw).map (fun value => if value = 0 then .killed else .exited status)

/-- Registers of the system call that ends the process. -/
def exitTrap (code : Int32) : Registers :=
  .ofArguments Syscall.exit.number [Registers.ofSigned32 code, 0, 0]

/-- Registers of the system call that stops the machine. -/
def haltTrap : Registers := .ofArguments Syscall.halt.number [0, 0, 0]

/-- Whether the machine was stopped. -/
def haltReply (raw : Int64) : Except UserError Unit := (convert raw).map (fun _ => ())

end UserLibrary

end Lifecycle
