import Orchestration.Broker
import Orchestration.Catalog
import Orchestration.Submission

namespace Orchestration

structure Service where
  catalog : Catalog
  broker : Broker

namespace Service

def new (settings : Scheduling) : Except Refusal Service :=
  match settings.flaw? with
  | some flaw => .error (.flawed (.settings flaw))
  | none => .ok ⟨.empty, .new settings⟩

def settings (s : Service) : Scheduling := s.broker.settings

def register (s : Service) (name : String) (definition : Definition) (now : Timestamp)
    (id : Uuid) : Except Refusal Workflow × Service :=
  match s.settings.timeoutsFlaw? definition.nodes with
  | some flaw => (.error (.flawed flaw), s)
  | none =>
    let (result, catalog) := s.catalog.register name definition now id
    (result, { s with catalog })

def workflow (s : Service) (name : String) (version : Version) : Except Refusal Workflow :=
  s.catalog.get name version

def recordFor (s : Service) (request : Submission) (w : Workflow) (now : Timestamp)
    (runId : Uuid) : RunRecord :=
  let policy := request.policy.getD s.settings.failurePolicy
  { RunRecord.queued runId w.reference policy now with
    budget := request.budget, tags := request.tags, input := request.input }

/-- Starts a run of the workflow that the request refers to. Its steps get the ids `stepId 0`,
`stepId 1`, …. -/
def submit (s : Service) (request : Submission) (now : Timestamp) (runId : Uuid)
    (stepId : Nat → Uuid) : Except Refusal RunRecord × Service :=
  match request.budget.filter (· < 0) with
  | some budget => (.error (.flawed (.negativeBudget budget)), s)
  | none =>
    match s.catalog.get request.workflow.name request.workflow.version with
    | .error why => (.error why, s)
    | .ok w =>
      match Plan.ofWorkflow w with
      | .error flaw => (.error (.flawed flaw), s)
      | .ok plan =>
        let record := s.recordFor request w now runId
        match s.broker.enter ⟨plan, Run.start plan record stepId⟩ with
        | (.ok (), broker) => (.ok record, { s with broker })
        | (.error why, broker) => (.error why, { s with broker })

def view (s : Service) (run : Uuid) : Except Refusal RunView :=
  match s.broker.ledger.find? run with
  | some r => .ok r.run.view
  | none => .error (.missing (.run run))

def runs (s : Service) (filter : RunFilter) : List RunRecord :=
  (s.broker.ledger.entries.map (·.2.record)).filter filter.selects

/-- Cancels a run. One that has ended stays as it is. -/
def cancel (s : Service) (run : Uuid) (now : Timestamp) : Except Refusal RunRecord × Service :=
  let change {p : Plan} (r : Run p) : Except Refusal RunRecord × Run p :=
    let r := (r.cancel now).2
    (.ok r.record, r)
  match s.broker.onRun run change with
  | (.error (.missing _), broker) => (.error (.missing (.run run)), { s with broker })
  | (result, broker) => (result, { s with broker })

def poll (s : Service) (worker : String) (leaseId : Uuid) (now : Timestamp) :
    Except Refusal (Option Assignment) × Service :=
  let (result, broker) := s.broker.poll worker leaseId now
  (result, { s with broker })

def heartbeat (s : Service) (worker : String) (step : Uuid) (now : Timestamp) :
    Except Refusal Lease × Service :=
  let (result, broker) := s.broker.heartbeat worker step now
  (result, { s with broker })

def complete (s : Service) (step : Uuid) (report : Report) (now : Timestamp) :
    Except Refusal Receipt × Service :=
  let (result, broker) := s.broker.complete step report now
  (result, { s with broker })

def sweep (s : Service) (now : Timestamp) : Except Refusal SweepReport × Service :=
  let (result, broker) := s.broker.sweep now
  (result, { s with broker })

end Service

end Orchestration
