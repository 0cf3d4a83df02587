import IndexCoordinator.Bench.Instruction
import IndexCoordinator.Filter.Rule
import IndexCoordinator.Proofs.Cycle.Resolution
import IndexCoordinator.Proofs.Service.Succession
import IndexCoordinator.Proofs.Update.Coverage
import IndexCoordinator.Settings.Loading
import IndexCoordinator.Proofs.Cycle.Moves
import IndexCoordinator.Proofs.Balance
import IndexCoordinator.Proofs.Cycle.Callers
import IndexCoordinator.Proofs.Silence
import IndexCoordinator.Proofs.Cycle.Publication
import IndexCoordinator.Proofs.Cycle.Agreement
import IndexCoordinator.Proofs.Cycle.Coherence
import IndexCoordinator.Proofs.Cycle.Lookup
import IndexCoordinator.Proofs.Service.Refusal
import IndexCoordinator.Proofs.Service.Closing
import IndexCoordinator.Proofs.Update.Progress
import IndexCoordinator.Proofs.Cycle.Readiness
import IndexCoordinator.Proofs.Service.Restriction
import IndexCoordinator.Proofs.Service.Waiting
import IndexCoordinator.Proofs.Cycle.Maintenance
import IndexCoordinator.Proofs.Service.Abandonment
import IndexCoordinator.Proofs.Service.Pending
import IndexCoordinator.Proofs.Update.Failure
import IndexCoordinator.Proofs.Update.Overwrite
import IndexCoordinator.Proofs.Cycle.Openings
import IndexCoordinator.Proofs.Cycle.Hints
import IndexCoordinator.Proofs.Cycle.Updates
import IndexCoordinator.Proofs.Service.Updates
import IndexCoordinator.Proofs.Service.Openings
import IndexCoordinator.Proofs.Fairness
import IndexCoordinator.Proofs.Cycle.Confirmation
import IndexCoordinator.Proofs.Cycle.Keeping
import IndexCoordinator.Proofs.Cycle.Sharing
import IndexCoordinator.Proofs.Service.Versions
import IndexCoordinator.Proofs.Promise.Winner
import IndexCoordinator.Proofs.Cycle.Reporting
import IndexCoordinator.Proofs.Cycle.Overlap
import IndexCoordinator.Proofs.Service.Overtaking
import IndexCoordinator.Proofs.Evaluator.Pass
import IndexCoordinator.Proofs.Fingerprint.Bump
import IndexCoordinator.Proofs.Evaluator.View
import IndexCoordinator.Proofs.Evaluator.Growth
import IndexCoordinator.Proofs.Update.Calls
import IndexCoordinator.Proofs.Cycle.Building
import IndexCoordinator.Proofs.Cycle.Constancy
import IndexCoordinator.Proofs.Id.Interning
import IndexCoordinator.Proofs.Promise.Wakeups
import IndexCoordinator.Proofs.Lifecycle.Shutdown
