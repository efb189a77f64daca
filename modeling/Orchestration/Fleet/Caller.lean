import Orchestration.Fleet

namespace Orchestration.Fleet

def lookUp (f : Fleet) (site : Site) (n : Nat) : Fleet :=
  if n ≤ f.stamina then { f with stamina := f.stamina - n }
  else
    let used := (n - f.stamina - 1) % Shift.fullStamina + 1
    { f.pass site with stamina := Shift.fullStamina - used }

def attend (f : Fleet) (site : Site) (n : Nat) (act : Service → α × Service) : α × Fleet :=
  let f := f.lookUp site n
  let (a, service) := act f.service
  (a, { f with service })

def runCost (f : Fleet) (id : Uuid) : Nat :=
  if (f.service.broker.ledger.find? id).isSome then 2 else 1

def stepCost (f : Fleet) (step : Uuid) : Nat :=
  if (f.service.broker.ledger.resolve? step).isSome then 3 else 1

def view (f : Fleet) (site : Site) (run : Uuid) : Except Refusal RunView × Fleet :=
  f.attend site (f.runCost run) fun s => (s.view run, s)

/-- The records that `filter` selects, each as it is when its run is looked up. -/
def runs (f : Fleet) (site : Site) (filter : RunFilter) : List RunRecord × Fleet :=
  let f := f.lookUp site 1
  f.service.broker.ledger.ids.foldl (fun (records, f) id =>
    match f.view site id with
    | (.ok view, f) => (if filter.selects view.run then records ++ [view.run] else records, f)
    | (.error _, f) => (records, f)) ([], f)

def cancel (f : Fleet) (site : Site) (run : Uuid) : Except Refusal RunRecord × Fleet :=
  f.attend site (f.runCost run) fun s => s.cancel run (site.clock f.now)

def heartbeat (f : Fleet) (site : Site) (worker : String) (step : Uuid) :
    Except Refusal Lease × Fleet :=
  f.attend site (f.stepCost step) fun s => s.heartbeat worker step (site.clock f.now)

def complete (f : Fleet) (site : Site) (step : Uuid) (report : Report) :
    Except Refusal Receipt × Fleet :=
  f.attend site (f.stepCost step) fun s => s.complete step report (site.clock f.now)

def costOf (refused n : Nat) : Except Refusal α → Nat
  | .ok _ => n
  | .error (.missing _) => refused
  | .error _ => 0

def register (f : Fleet) (site : Site) (name : String) (definition : Definition) (id : Uuid) :
    Except Refusal Workflow × Fleet :=
  let act (s : Service) := s.register name definition (site.clock f.now) id
  f.attend site (costOf 0 1 (act f.service).1) act

def submit (f : Fleet) (site : Site) (request : Submission) (runId : Uuid) (stepId : Nat → Uuid) :
    Except Refusal RunRecord × Fleet :=
  let act (s : Service) := s.submit request (site.clock f.now) runId stepId
  f.attend site (costOf 1 4 (act f.service).1) act

def pollWithin (site : Site) (worker : String) :
    Nat → Fleet → Except Refusal (Option Assignment) × Fleet
  | 0, f => (.ok none, f)
  | fuel + 1, f =>
    match f.service.broker.queue.pop? with
    | none => (.ok none, f)
    | some (ticket, queue) =>
      let f := (f.withBroker { f.service.broker with queue }).lookUp site 2
      match f.service.broker.offer ticket worker (site.leaseId f.leases) (site.clock f.now) with
      | .done result broker => (result, f.withBroker broker)
      | .again broker => pollWithin site worker fuel (f.withBroker broker)

/-- Asks for a step. When nobody else's turn is due, that is done at once. -/
def poll (f : Fleet) (site : Site) (worker : String) :
    Except Refusal (Option Assignment) × Fleet :=
  let (result, f) :=
    if f.waiting.isEmpty then
      let (result, service) := f.service.poll worker (site.leaseId f.leases) (site.clock f.now)
      let taken := f.service.broker.queue.size - service.broker.queue.size
      (result, { f with service }.lookUp site (2 * taken))
    else pollWithin site worker (f.tickets + 1) f
  (result, { f with leases := f.leases + 1 })

def sweepRuns (site : Site) :
    List Uuid → SweepReport → Fleet → Except Refusal SweepReport × Fleet
  | [], report, f => (.ok report, f)
  | id :: ids, report, f =>
    let f := f.lookUp site 2
    let isOverdue := f.service.broker.isOverdue id (site.clock f.now)
    let f := if isOverdue then f.lookUp site 2 else f
    match f.service.broker.sweepRun (site.clock f.now) id report with
    | (.ok report, broker) => sweepRuns site ids report (f.withBroker broker)
    | (.error why, broker) => (.error why, f.withBroker broker)

def sweep (f : Fleet) (site : Site) : Except Refusal SweepReport × Fleet :=
  if f.waiting.isEmpty then
    let (result, service) := f.service.sweep (site.clock f.now)
    let swept := (result.toOption.map (·.runsSwept)).getD 0
    (result, { f with service }.lookUp site (1 + 2 * (service.broker.ledger.size + swept)))
  else
    let f := f.lookUp site 1
    sweepRuns site f.service.broker.ledger.ids ⟨0, 0, 0, 0⟩ f

def finishRound (site : Site) (worker : String) :
    Nat → Stage → Fleet → Except Refusal Bool × Fleet
  | _, .ended result, f => (result, f)
  | 0, _, f => (.ok true, f)
  | fuel + 1, stage, f =>
    let f := match stage.alarm? with
      | some alarm => f.wait site (alarm.time - f.now)
      | none => f.lookUp site stage.cost
    let (stage, f) := f.advance site worker stage
    finishRound site worker fuel stage f

/-- One round of the caller as a worker: whether there was a step. Each heartbeat is three acts. -/
def round (f : Fleet) (site : Site) (worker : String) : Except Refusal Bool × Fleet :=
  match f.poll site worker with
  | (.error why, f) => (.error why, f)
  | (.ok none, f) => (.ok false, f)
  | (.ok (some a), f) =>
    let job := Job.ofAssignment site.tools a
    finishRound site worker (3 * job.delayMs + 8) (.starting job)
      { f with jobs := f.jobs ++ [job] }

def rounds (site : Site) (worker : String) : Nat → Fleet → Nat × Option Refusal × Fleet
  | 0, f => (0, none, f)
  | fuel + 1, f =>
    match f.round site worker with
    | (.error why, f) => (0, some why, f)
    | (.ok false, f) => (0, none, f)
    | (.ok true, f) =>
      let (n, why, f) := rounds site worker fuel f
      (n + 1, why, f)

/-- The fleet after the caller did jobs alone, at which the service became `service`. Tickets that
led to no job took look-ups too. The last look-ups after an executor's delay are those for the
report. -/
def afterJobs (f : Fleet) (site : Site) (service : Service) (jobs : List Job) : Fleet :=
  let dropped := f.service.broker.queue.size - service.broker.queue.size - jobs.length
  let f := jobs.foldl (fun f job =>
    if job.delayMs = 0 then f.lookUp site 7
    else { f with stamina := Shift.fullStamina - 4 }) (f.lookUp site (2 * dropped))
  { f with service, jobs := f.jobs ++ jobs, leases := f.leases + jobs.length }

end Orchestration.Fleet
