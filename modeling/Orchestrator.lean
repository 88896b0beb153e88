import Orchestrator.Main
import Orchestrator.Proofs.Planner.History
import Orchestrator.Proofs.Planner.Capacity
import Orchestrator.Proofs.Deployment.Published
import Orchestrator.Proofs.Deployment.Reports
import Orchestrator.Proofs.Deployment.Leftovers
import Orchestrator.Proofs.Isolation
import Orchestrator.Proofs.Undeployment
import Orchestrator.Proofs.FailFast
import Orchestrator.Proofs.Escapes
import Orchestrator.Proofs.Deployment.Pairing
import Orchestrator.Proofs.Deployment.Conflicts
import Orchestrator.Proofs.Sessions
import Orchestrator.Proofs.Config.Safe
import Orchestrator.Proofs.Deployment.WellNamed
import Orchestrator.Proofs.Deployment.Modes
import Orchestrator.Proofs.Unready
import Orchestrator.Proofs.Pulling
import Orchestrator.Proofs.Clearing
import Orchestrator.Proofs.Layers
import Orchestrator.Proofs.Extraction
import Orchestrator.Proofs.Expressions
import Orchestrator.Proofs.Deployment.Pulled
import Orchestrator.Proofs.Planner.Clashes
import Orchestrator.Proofs.VaultToken
import Orchestrator.Proofs.Mounts
import Orchestrator.Proofs.Planner.Hygiene
import Orchestrator.Proofs.Config.Spelling
