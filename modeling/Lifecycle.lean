import Lifecycle.Machine.Run
import Lifecycle.Machine.Samples
import Lifecycle.Machine.Script
import Lifecycle.Machine.Transcript
import Lifecycle.Scenario.LoaderScript
import Lifecycle.Scenario.RecordScript
import Lifecycle.Scenario.Run
import Lifecycle.Scenario.TableScript
import Lifecycle.Scenario.UserScript
import Lifecycle.Proofs.ListLemmas
import Lifecycle.Proofs.PidMapLemmas
import Lifecycle.Proofs.Table.Invariants
import Lifecycle.Proofs.Table.Removal
import Lifecycle.Proofs.Table.Allocation
import Lifecycle.Proofs.Table.Departure
import Lifecycle.Proofs.Table.Joining
import Lifecycle.Proofs.Table.Undo
import Lifecycle.Proofs.Table.Commands
import Lifecycle.Proofs.Table.Reuse
import Lifecycle.Proofs.Table.Spaces
import Lifecycle.Proofs.Traffic.System
import Lifecycle.Proofs.Traffic.Turns
import Lifecycle.Proofs.Traffic.Consistency
import Lifecycle.Proofs.Traffic.Checks
import Lifecycle.Proofs.Traffic.ProcessTree
import Lifecycle.Proofs.Traffic.Links
import Lifecycle.Proofs.Traffic.Wakeup
import Lifecycle.Proofs.Traffic.Deadlock
import Lifecycle.Proofs.Traffic.History
import Lifecycle.Proofs.Traffic.Delivery
import Lifecycle.Proofs.Traffic.Privilege
import Lifecycle.Proofs.Traffic.Idleness
import Lifecycle.Proofs.Traffic.Runs
import Lifecycle.Proofs.Traffic.Founding
import Lifecycle.Proofs.Traffic.Finality
import Lifecycle.Proofs.Traffic.Rechecks
import Lifecycle.Proofs.Traffic.Ownership
import Lifecycle.Proofs.Traffic.Ledger
import Lifecycle.Proofs.Sequential.Session
import Lifecycle.Proofs.Sequential.Reference
import Lifecycle.Proofs.Sequential.Refinement
import Lifecycle.Proofs.Sequential.Books
import Lifecycle.Proofs.Sequential.Failures
import Lifecycle.Proofs.Sequential.Endings
import Lifecycle.Proofs.Syscall.FlatMemory
import Lifecycle.Proofs.Syscall.LibraryCalls
import Lifecycle.Proofs.Syscall.JoinCalls
import Lifecycle.Proofs.Syscall.NamePassing
import Lifecycle.Proofs.Machine.Tasks
import Lifecycle.Proofs.Machine.Moves
import Lifecycle.Proofs.Machine.Places
import Lifecycle.Proofs.Machine.Mirror
import Lifecycle.Proofs.Machine.Staff
import Lifecycle.Proofs.Machine.Tracking
import Lifecycle.Proofs.Machine.Idling
import Lifecycle.Proofs.Machine.Roster
import Lifecycle.Proofs.Machine.Runs
import Lifecycle.Proofs.Machine.Pages
