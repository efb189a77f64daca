import Orchestration.Broker.Json
import Orchestration.Fleet.Caller
import Orchestration.Main
import Orchestration.Settings.Json
import Orchestration.Proofs.Broker.Blocking
import Orchestration.Proofs.Broker.Names
import Orchestration.Proofs.Broker.Resolving
import Orchestration.Proofs.Broker.Sweep
import Orchestration.Proofs.Catalog
import Orchestration.Proofs.Checked.Faultless
import Orchestration.Proofs.CommandLine.Arguments
import Orchestration.Proofs.CommandLine.Program
import Orchestration.Proofs.Fleet.Caller
import Orchestration.Proofs.Fleet.Stamina
import Orchestration.Proofs.Json.Requests
import Orchestration.Proofs.Ledger.History
import Orchestration.Proofs.Run.Commuting
import Orchestration.Proofs.Run.Dates
import Orchestration.Proofs.Run.Deadlines
import Orchestration.Proofs.Run.Draining
import Orchestration.Proofs.Run.Exclusive
import Orchestration.Proofs.Run.Inputs
import Orchestration.Proofs.Run.Moves
import Orchestration.Proofs.Run.Progress
import Orchestration.Proofs.Run.Shape
import Orchestration.Proofs.Run.Stopped
import Orchestration.Proofs.Run.Summary
import Orchestration.Proofs.Service.History
import Orchestration.Proofs.Service.Submission
import Orchestration.Proofs.Settings.Toml
import Orchestration.Proofs.Worker.Cadence
import Orchestration.Proofs.Worker.Drain
import Orchestration.Proofs.Workflow.Cycles
import Orchestration.Proofs.Workflow.Order
