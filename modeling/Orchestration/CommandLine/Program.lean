import Orchestration.CommandLine.Arguments
import Orchestration.Fleet
import Orchestration.Json.Printer
import Orchestration.Settings.Toml
import Orchestration.Submission.Json
import Orchestration.Text.Path
import Orchestration.Text.Quoted

namespace Orchestration.CommandLine

open Text

structure Surroundings where
  file? : String → Option String
  /-- The time so many milliseconds after the start. -/
  clock : Nat → Timestamp
  workflowId : Uuid
  runId : Uuid
  stepId : Nat → Uuid
  leaseId : Nat → Uuid

structure Outcome where
  exitCode : UInt32
  output : String
  complaint : String
deriving DecidableEq

inductive Failure where
  | settings (error : SettingsError)
  | unreadable (path : String)
  | noDefinition (path : String)
  | malformedInput
  | refused (why : Refusal)
  | invalid (flaw : Flaw)
  | unwritable

namespace Failure

def message : Failure → String
  | .settings _ => "Error: failed to load configuration"
  | .unreadable path => "Error: cannot read file " ++ path
  | .noDefinition path => "Error: invalid DAG JSON in " ++ path
  | .malformedInput => "Error: --input is not valid JSON"
  | .refused why => "Error: " ++ why.message
  | .invalid flaw => "Validation failed: " ++ flaw.message
  | .unwritable => "Error: out-of-range value for u64 type"

end Failure

def Surroundings.definition (s : Surroundings) (path : String) : Except Failure Definition :=
  match s.file? path with
  | none => .error (.unreadable path)
  | some text =>
    match Definition.decode.ofText? text with
    | none => .error (.noDefinition path)
    | some definition => .ok definition

def checkedOrder (scheduling : Scheduling) (nodes : List Node) : Except Flaw (List String) := do
  let order ← Graph.executionOrder nodes
  match scheduling.timeoutsFlaw? nodes with
  | some flaw => .error flaw
  | none => .ok order

def validate (s : Surroundings) (settings : Settings) (path : String) : Except Failure String := do
  let definition ← s.definition path
  match checkedOrder settings.scheduling definition.nodes with
  | .error flaw => .error (.invalid flaw)
  | .ok order => .ok ("Workflow is valid. Execution order: " ++ quotedList order ++ "\n")

namespace RunRequest

def workflowName (r : RunRequest) : String :=
  (r.name.or (fileStem? r.path)).getD "workflow"

def inputValue (r : RunRequest) : Except Failure Json :=
  match r.input with
  | none => .ok .null
  | some text =>
    match Decoder.ofText? .json text with
    | none => .error .malformedInput
    | some input => .ok input

def submission (r : RunRequest) (input : Json) : Submission :=
  { Submission.ofReference ⟨r.workflowName, .latest⟩ with
    input, budget := r.budget, tags := r.tags,
    policy := if r.tolerant then some .tolerant else none }

end RunRequest

/-- Whether a run has ended. A run that is not there has. -/
def isOver (run : Uuid) (service : Service) : Bool :=
  match service.view run with
  | .ok view => view.run.status.isTerminal
  | .error _ => true

/-- The fleet that runs a workflow of `size` nodes: more workers than nodes would find no work. -/
def localFleet (service : Service) (pool : Pool) (size : Nat) : Fleet :=
  let workers := (List.range (min pool.workers.toNat size)).map ("local-" ++ natural ·)
  let fleet := workers.foldl Fleet.withWorker (.ofService service)
  fleet.withSweeper service.settings.sweepIntervalMs.toNat

def runToEnd (s : Surroundings) (settings : Settings) (name : String) (definition : Definition)
    (request : Submission) : Except Refusal RunView := do
  let now := s.clock 0
  let service ← Service.new settings.scheduling
  let (registered, service) := service.register name definition now s.workflowId
  let _ ← registered
  let (submitted, service) := service.submit request now s.runId s.stepId
  let record ← submitted
  let fleet := localFleet service settings.pool definition.nodes.length
  let lifetime := ((Timestamp.latest.nanos - now.nanos) / 1000000).toNat
  let fleet := fleet.run ⟨.simulated, settings.pool, s.leaseId, s.clock⟩ (lifetime + 1) fun f =>
    isOver record.id f.service
  fleet.service.view record.id

def run (s : Surroundings) (settings : Settings) (r : RunRequest) : Except Failure String := do
  let definition ← s.definition r.path
  let input ← r.inputValue
  match runToEnd s settings r.workflowName definition (r.submission input) with
  | .error why => .error (.refused why)
  | .ok view => .ok (view.toJson.prettyText ++ "\n")

def showSettings (settings : Settings) : Except Failure String :=
  match settings.toToml? with
  | none => .error .unwritable
  | some text => .ok text

def execute (s : Surroundings) (i : Invocation) : Except Failure String :=
  match Settings.load i.settings s.file? with
  | .error error => .error (.settings error)
  | .ok settings =>
    match i.command with
    | .validate path => validate s settings path
    | .run request => run s settings request
    | .config => showSettings settings

def versionText : String := "aorctl 0.1.0\n"

def helpText : String :=
  "Usage: aorctl [--config <CONFIG>] <COMMAND>\n\n" ++
  "Commands:\n" ++
  "  validate <PATH>  Check a DAG definition and show its execution order\n" ++
  "  run <PATH>       Run a DAG to its end with simulated workers and show the run\n" ++
  "                   [--name <NAME>] [--budget <CENTS>] [--tolerant] [--tag <TAG>]...\n" ++
  "                   [--input <JSON>]\n" ++
  "  config           Show the settings in force\n" ++
  "  help             Show this text\n"

def outcome (s : Surroundings) : Except Stop Invocation → Outcome
  | .error .help => ⟨0, helpText, ""⟩
  | .error .version => ⟨0, versionText, ""⟩
  | .error .misuse => ⟨2, "", helpText⟩
  | .ok invocation =>
    match execute s invocation with
    | .ok output => ⟨0, output, ""⟩
    | .error failure => ⟨1, "", failure.message ++ "\n"⟩

def Invocation.paths (i : Invocation) : List String :=
  i.settings.toList ++
    match i.command with
    | .validate path => [path]
    | .run request => [request.path]
    | .config => []

end Orchestration.CommandLine
