import Lifecycle.Machine.Registry

/-!
# Sample programs

Eight programs that start each other, wait for each other and write what they see to the
transcript.

* `write10.coff` writes ten lines; `swap4.coff` and `swap5.coff` reverse a list.
* `exec1.coff`, `exec3.coff` and `multitest.coff` start programs and wait for them; `exec9.coff`
  starts six that it never waits for.
* `abort.coff` raises an exception.
-/

namespace Lifecycle

namespace Samples

/-- The exit code of `write10.coff`. -/
def write10Status : Int32 := 10

/-- Writes `lines` one after another. -/
def logAll : List String → Program → Program
  | [], next => next
  | line :: rest, next => .log line (logAll rest next)

/-- Writes ten numbered lines. -/
def write10 (pid : Pid) : Program :=
  logAll ((List.range 10).map (fun i => s!"write10[{pid}]: line {i}")) (.done write10Status)

/-- Reverses the numbers below `n`. The exit code tells the program and the process. -/
def swap (n : Nat) (pid : Pid) : Program :=
  let items := (List.range n).reverse.map toString
  .log (s!"swap{n}[{pid}]: [" ++ ", ".intercalate items ++ "]")
    (.done (UInt32.ofNat (n * 1000) + pid.number).toInt32)

/-- Starts a child and writes its PID, or why there is none. -/
def start (who name : String) (next : Option UInt32 → Program) : Program :=
  .exec name 0 fun answer =>
    match answer with
    | .ok pid => .log s!"{who}: exec {name} -> {pid.toNat}" (next (some pid))
    | .error e => .log s!"{who}: exec {name} failed {e.describe}" (next none)

/-- How the end of a child is written. -/
def joinLine (who : String) (pid : UInt32) : Except UserError JoinStatus → String
  | .ok (.exited code) => s!"{who}: joined {pid.toNat} status {code.toInt}"
  | .ok .killed => s!"{who}: joined {pid.toNat} killed"
  | .error e => s!"{who}: join {pid.toNat} failed {e.describe}"

/-- Starts a child for each name, and goes on with the PIDs of those that were started. -/
def startAll (who : String) : List String → (List UInt32 → Program) → Program
  | [], next => next []
  | name :: rest, next =>
    start who name fun pid => startAll who rest fun pids => next (pid.toList ++ pids)

/-- Waits for each child in order. -/
def joinAll (who : String) : List UInt32 → Program → Program
  | [], next => next
  | pid :: rest, next =>
    .join pid fun answer => .log (joinLine who pid answer) (joinAll who rest next)

/-- Starts a child for each name, then waits for each of them. The exit code is the number of
names without a child. -/
def startAndJoin (who : String) (names : List String) (_ : Pid) : Program :=
  startAll who names fun pids =>
    joinAll who pids (.done (Int32.ofNat (names.length - pids.length)))

/-- The child exited with the code of `write10.coff`. -/
def isWrite10Exit : Except UserError JoinStatus → Bool
  | .ok status => status = .exited write10Status
  | .error _ => false

/-- Starts `write10.coff` and waits for it, `n` times over. The exit code is the number of
failures. -/
def exec1 (failures : Int32) : Nat → Program
  | 0 => .done failures
  | n + 1 =>
    start "exec1" "write10.coff" fun pid =>
      match pid with
      | none => exec1 (failures + 1) n
      | some pid =>
        .join pid fun answer =>
          .log (joinLine "exec1" pid answer)
            (exec1 (if isWrite10Exit answer then failures else failures + 1) n)

/-- Starts six children and waits for none. -/
def exec9 (_ : Pid) : Program :=
  startAll "exec9" (List.replicate 6 "write10.coff") fun _ => .done 0

/-- Raises an exception. -/
def abort (pid : Pid) : Program := .log s!"abort[{pid}]: faulting" .raise

/-- The names that `multitest.coff` starts. -/
def multitestNames : List String :=
  ["write10.coff", "swap4.coff", "swap5.coff", "exec1.coff", "exec3.coff", "write10.coff",
    "swap4.coff"]

/-- The registry with the sample programs. -/
def register (r : Registry) : Registry :=
  [("write10.coff", .program 4 write10),
    ("swap4.coff", .program 6 (swap 4)),
    ("swap5.coff", .program 6 (swap 5)),
    ("exec1.coff", .program 4 (fun _ => exec1 0 3)),
    ("exec3.coff", .program 4 (startAndJoin "exec3" ["swap4.coff", "swap5.coff"])),
    ("exec9.coff", .program 4 exec9),
    ("multitest.coff", .program 8 (startAndJoin "multitest" multitestNames)),
    ("abort.coff", .program 2 abort)].foldl
    (fun r (e : String × Image) => r.register e.1 e.2) r

end Samples

end Lifecycle
