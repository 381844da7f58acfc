import Orchestration.Broker.Script
import Orchestration.Catalog.Remote
import Orchestration.Main
import Orchestration.Proofs.Abandoning
import Orchestration.Proofs.Acknowledging
import Orchestration.Proofs.Announcements
import Orchestration.Proofs.Applying
import Orchestration.Proofs.Building
import Orchestration.Proofs.Callback
import Orchestration.Proofs.Circling
import Orchestration.Proofs.Clearance
import Orchestration.Proofs.Contending
import Orchestration.Proofs.Dispatching
import Orchestration.Proofs.Dropping
import Orchestration.Proofs.Filling
import Orchestration.Proofs.FinishedRuns
import Orchestration.Proofs.Following
import Orchestration.Proofs.Formats
import Orchestration.Proofs.Independence
import Orchestration.Proofs.Kinship
import Orchestration.Proofs.Modes
import Orchestration.Proofs.Nesting
import Orchestration.Proofs.Normalizing
import Orchestration.Proofs.Overtaking
import Orchestration.Proofs.ParentReports
import Orchestration.Proofs.Parsing
import Orchestration.Proofs.Persisting
import Orchestration.Proofs.Preparing
import Orchestration.Proofs.Quoting
import Orchestration.Proofs.ReachableChains
import Orchestration.Proofs.Redelivery
import Orchestration.Proofs.Refinement
import Orchestration.Proofs.Relational
import Orchestration.Proofs.Repeating
import Orchestration.Proofs.Respelling
import Orchestration.Proofs.Resuming
import Orchestration.Proofs.Retelling
import Orchestration.Proofs.RetryBudget
import Orchestration.Proofs.Returning
import Orchestration.Proofs.RunRecords
import Orchestration.Proofs.Spelling
import Orchestration.Proofs.StandIn
import Orchestration.Proofs.Stranding
import Orchestration.Proofs.Sweeping
import Orchestration.Proofs.Traffic
import Orchestration.Proofs.Verdicts
import Orchestration.Proofs.Vigil
import Orchestration.Store.Database
