import Orchestration.Ledger
import Orchestration.Queue
import Orchestration.Run.Transition

namespace Orchestration

structure PlannedRun where
  plan : Plan
  run : Run plan

namespace PlannedRun

def record (r : PlannedRun) : RunRecord := r.run.record

def steps (r : PlannedRun) : List Step := r.run.steps.toList

def update (r : PlannedRun) (change : Run r.plan → β × Run r.plan) : β × PlannedRun :=
  let (b, run) := change r.run
  (b, { r with run := run })

def pendingCount (r : PlannedRun) : Nat := r.steps.countP (·.status = .pending)

end PlannedRun

structure Broker where
  ledger : Ledger PlannedRun
  queue : Queue
  settings : Scheduling

structure SweepReport where
  runsSwept : Nat
  expiredLeases : Nat
  promotedRetries : Nat
  requeued : Nat
deriving DecidableEq

namespace Broker

def new (settings : Scheduling) : Broker := ⟨.empty, .empty, settings⟩

def enqueue (b : Broker) (run : Uuid) (steps : List Uuid) : Broker :=
  { b with queue := b.queue.push run steps }

def enter (b : Broker) (r : PlannedRun) : Except Refusal Unit × Broker :=
  let (result, ledger) := b.ledger.insert r.record.id r r.run.stepIds
  let b := { b with ledger }
  match result with
  | .error e => (.error (.ofLedger e), b)
  | .ok () => (.ok (), b.enqueue r.record.id r.run.readySteps)

def onRun (b : Broker) (id : Uuid)
    (change : {p : Plan} → Run p → Except Refusal β × Run p) : Except Refusal β × Broker :=
  let (result, ledger) := b.ledger.transition id .ofLedger fun r => r.update change
  (result, { b with ledger })

inductive Turn where
  | done (result : Except Refusal (Option Assignment)) (broker : Broker)
  | again (broker : Broker)

def offer (b : Broker) (ticket : Ticket) (worker : String) (leaseId : Uuid) (now : Timestamp) :
    Turn :=
  let (result, b) := b.onRun ticket.run fun run =>
    run.grant ticket.step worker leaseId now b.settings
  match result with
  | .ok (.leased assignment) => .done (.ok (some assignment)) b
  | .ok (.rejected _ ready) => .again (b.enqueue ticket.run ready)
  | .ok .stale => .again b
  -- The ticket goes back to the head of the queue, where the next poll comes to it again.
  | .error why => .done (.error why) { b with queue := b.queue.pushFront ticket }

def turn (b : Broker) (worker : String) (leaseId : Uuid) (now : Timestamp) : Turn :=
  match b.queue.pop? with
  | none => .done (.ok none) b
  | some (ticket, queue) => { b with queue }.offer ticket worker leaseId now

def pollWithin (worker : String) (leaseId : Uuid) (now : Timestamp) :
    Nat → Broker → Option (Except Refusal (Option Assignment) × Broker)
  | 0, _ => none
  | fuel + 1, b =>
    match b.turn worker leaseId now with
    | .done result b => some (result, b)
    | .again b => pollWithin worker leaseId now fuel b

def pendingCount (b : Broker) : Nat :=
  b.ledger.records.foldr (fun entry n => entry.2.pendingCount + n) 0

/-- Leases the oldest ready step to `worker`. A turn that goes on takes a ticket from the queue, and
every ticket that it adds is of a step that was pending before: that bounds the turns. -/
def poll (b : Broker) (worker : String) (leaseId : Uuid) (now : Timestamp) :
    Except Refusal (Option Assignment) × Broker :=
  (pollWithin worker leaseId now (b.queue.size + b.pendingCount + 1) b).getD (.ok none, b)

def runOf (b : Broker) (step : Uuid) : Except Refusal Uuid :=
  match b.ledger.resolve? step with
  | some run => .ok run
  | none => .error (.missing (.step step))

/-- Renews the lease of `worker` on a step. A run that has stopped refuses, and the step is
skipped. -/
def heartbeat (b : Broker) (worker : String) (step : Uuid) (now : Timestamp) :
    Except Refusal Lease × Broker :=
  match b.runOf step with
  | .error why => (.error why, b)
  | .ok run =>
    match b.onRun run fun r => r.renew step worker now b.settings with
    | (.ok (.renewed lease), b) => (.ok lease, b)
    | (.ok (.abandoned status), b) => (.error (.runStopped run status), b)
    | (.error why, b) => (.error why, b)

def complete (b : Broker) (step : Uuid) (report : Report) (now : Timestamp) :
    Except Refusal Receipt × Broker :=
  match b.runOf step with
  | .error why => (.error why, b)
  | .ok run =>
    match b.onRun run fun r => r.accept step report now b.settings with
    | (.ok (.applied status ready), b) => (.ok (.applied status ready), b.enqueue run ready)
    | (result, b) => (result, b)

def cancel (b : Broker) (id : Uuid) (now : Timestamp) : Except Refusal Bool × Broker :=
  b.onRun id fun r => let (changed, r) := r.cancel now; (.ok changed, r)

def isOverdue (b : Broker) (id : Uuid) (now : Timestamp) : Bool :=
  (b.ledger.find? id).any (·.run.overdue now)

def sweepRun (now : Timestamp) (id : Uuid) (report : SweepReport) (b : Broker) :
    Except Refusal SweepReport × Broker :=
  match b.ledger.read id with
  | .error e => (.error (.ofLedger e), b)
  | .ok r =>
    if !r.run.overdue now then (.ok report, b)
    else
      match b.onRun id fun r => let (found, r) := r.sweep now b.settings; (.ok found, r) with
      | (.error why, b) => (.error why, b)
      | (.ok found, b) =>
        (.ok ⟨report.runsSwept + 1, report.expiredLeases + found.expired,
          report.promotedRetries + found.promoted, report.requeued + found.ready.length⟩,
          b.enqueue id found.ready)

def sweepRuns (now : Timestamp) : List Uuid → SweepReport → Broker →
    Except Refusal SweepReport × Broker
  | [], report, b => (.ok report, b)
  | id :: ids, report, b =>
    match sweepRun now id report b with
    | (.ok report, b) => sweepRuns now ids report b
    | (.error why, b) => (.error why, b)

def sweep (b : Broker) (now : Timestamp) : Except Refusal SweepReport × Broker :=
  sweepRuns now b.ledger.ids ⟨0, 0, 0, 0⟩ b

end Broker

end Orchestration
