import SharedHeap.Config.Environment
import SharedHeap.Config.File
import SharedHeap.LoggedSession
import SharedHeap.Logging.Filter
import SharedHeap.Logging.Transcript
import SharedHeap.Proofs.Holders
import SharedHeap.Proofs.Pass
import SharedHeap.Proofs.Cleanup
import SharedHeap.Proofs.Registration
import SharedHeap.Proofs.Creation
import SharedHeap.Proofs.Action
import SharedHeap.Proofs.Operation
import SharedHeap.Proofs.Occurrences
import SharedHeap.Proofs.Departure
import SharedHeap.Proofs.Interleaving
import SharedHeap.Proofs.TableCalls
import SharedHeap.Proofs.TableEntries
import SharedHeap.Proofs.Accounting
import SharedHeap.Proofs.Workers
import SharedHeap.Proofs.Queues
import SharedHeap.Proofs.Nesting
import SharedHeap.Proofs.Ownership
import SharedHeap.Proofs.StepParts
import SharedHeap.Proofs.Commands
import SharedHeap.Proofs.Conservation
import SharedHeap.Proofs.Balance
import SharedHeap.Proofs.Sweep
import SharedHeap.Proofs.Independence
import SharedHeap.Proofs.Hosts
import SharedHeap.Proofs.Domains
import SharedHeap.Proofs.Stopped
import SharedHeap.Proofs.Locks
import SharedHeap.Proofs.Refusal
import SharedHeap.Proofs.Reports
import SharedHeap.Proofs.Starts
import SharedHeap.Proofs.LogFile
import SharedHeap.Proofs.Duplicates
import SharedHeap.Proofs.Releases
import SharedHeap.Proofs.DropHooks
import SharedHeap.Proofs.Paths
import SharedHeap.Proofs.Overrides
import SharedHeap.Proofs.Schedule
import SharedHeap.Proofs.DueCreation
import SharedHeap.Proofs.Contents
