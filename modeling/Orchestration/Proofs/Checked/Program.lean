import Orchestration.Proofs.Checked.Graph
import Orchestration.Proofs.Run.History

namespace Orchestration

namespace Checked

def nextAttempt (attempt : UInt32) : Option UInt32 :=
  if attempt.toNat + 1 < 4294967296 then some (attempt + 1) else none

def lastAttempt (attempt : UInt32) : Option UInt32 :=
  if 1 ≤ attempt.toNat then some (attempt - 1) else none

def chargeFor (r : RunRecord) (cost : Cents) : Option Charge := do
  let actual := max cost 0
  let charged ← match r.budget with
    | none => some actual
    | some budget => do
      let left ← Cents.ofInt? (budget.value - r.cost.value)
      some (min actual (max left 0))
  let overrun ← Cents.ofInt? (actual.value - charged.value)
  some ⟨charged, overrun⟩

structure Plan where
  nodes : List Node
  graph : Graph
  /-- Where the steps stand, as they were numbered when the run began. -/
  index : List (Uuid × Nat)

structure Run where
  record : RunRecord
  steps : List Step
  waiting : List Nat
  reserved : Cents

structure Released where
  run : Run
  ready : List Uuid

namespace Run

def materialize (nodes : List Node) (record : RunRecord) (stepId : Nat → Uuid) :
    Option (Except Flaw (Plan × Run)) := do
  match ← Graph.ofNodes nodes with
  | .error flaw => some (.error flaw)
  | .ok graph =>
    let steps := nodes.mapIdx fun i node => Step.pending (stepId i) record.id node.id
    let waiting := graph.dependencies.map (·.length)
    let ready (step : Step) (waits : Nat) :=
      if waits = 0 then { step with status := .ready } else step
    let index := steps.mapIdx fun i step => (step.id, i)
    some (.ok (⟨nodes, graph, index⟩, ⟨record, List.zipWith ready steps waiting, waiting, 0⟩))

def isActive (s : Run) : Bool := s.record.status.isActive

def modifyStep (s : Run) (i : Nat) (f : Step → Step) : Option Run := do
  let step ← s.steps[i]?
  some { s with steps := s.steps.set i (f step) }

def releaseLease (q : Plan) (s : Run) (i : Nat) : Option Run := do
  let step ← s.steps[i]?
  match step.lease with
  | none => some s
  | some _ =>
    let node ← q.nodes[i]?
    let returned ← s.modifyStep i fun step => { step with lease := none }
    some { returned with reserved := max (s.reserved - node.estimatedCost) 0 }

def stopSteps (s : Run) (now : Timestamp) : Run :=
  { s with steps := s.steps.map (Orchestration.Run.stopStep now) }

def endStatus (s : Run) : RunStatus :=
  if s.steps.all (·.status = .succeeded) then .succeeded
  else if s.record.policy = .tolerant && s.steps.any (·.status = .succeeded) then .partialSuccess
  else .failed

def nextStatus? (s : Run) : Option RunStatus :=
  if s.record.status.isTerminal then none
  else if s.record.status = .canceling then
    if s.steps.any (·.status.isInFlight) then none else some .canceled
  else if s.steps.all (·.status.isTerminal) then some s.endStatus
  else none

def refresh (s : Run) (now : Timestamp) : Run :=
  match s.nextStatus? with
  | none => s
  | some status =>
    let error :=
      if status = .failed && s.record.error.isNone then some "no step succeeded"
      else s.record.error
    { s with record := { s.record with status, error, endedAt := some now } }

end Run

namespace Released

def modifyStep (c : Released) (i : Nat) (f : Step → Step) : Option Released := do
  let run ← c.run.modifyStep i f
  some { c with run }

def push (c : Released) (i : Nat) : Option Released := do
  let step ← c.run.steps[i]?
  some { c with ready := c.ready ++ [step.id] }

def settleFor (c : Released) (d : Nat) : Option Released := do
  let waits ← c.run.waiting[d]?
  let left ← waits.ppred
  let c := { c with run := { c.run with waiting := c.run.waiting.set d left } }
  let step ← c.run.steps[d]?
  if c.run.isActive && left = 0 && step.status = .pending then
    let c ← c.modifyStep d fun step => { step with status := .ready }
    c.push d
  else some c

def settle (q : Plan) (c : Released) (i : Nat) : Option Released := do
  let dependents ← q.graph.dependents[i]?
  dependents.foldlM settleFor c

def skipFor (q : Plan) (now : Timestamp) (failed : String) (c : Released) (d : Nat) :
    Option Released := do
  let step ← c.run.steps[d]?
  if step.status = .pending then
    let c ← c.modifyStep d fun step =>
      { step with
        status := .skipped
        error := some ("dependency '" ++ failed ++ "' failed")
        endedAt := some now }
    c.settle q d
  else some c

def stepFailed (q : Plan) (c : Released) (i : Nat) (now : Timestamp) : Option Released := do
  let step ← c.run.steps[i]?
  match c.run.record.policy with
  | .failFast =>
    let reason := "step '" ++ step.nodeId ++ "' failed: " ++ step.error.getD "unknown error"
    let stopped := c.run.stopSteps now
    some
      { c with
        run := { stopped with
          record := { stopped.record with
            status := .failed, error := some reason, endedAt := some now } } }
  | .tolerant =>
    let dependents ← q.graph.dependents[i]?
    dependents.foldlM (skipFor q now step.nodeId) c

def retry (c : Released) (i : Nat) (now : Timestamp) (settings : Scheduling) : Option Released := do
  let step ← c.run.steps[i]?
  let attempt ← nextAttempt step.attempt
  let failed ← lastAttempt attempt
  let delay := settings.retryDelayMs failed
  if delay = 0 then
    let c ← c.modifyStep i fun step =>
      { step with attempt := attempt, status := .ready, retryAt := none }
    c.push i
  else
    c.modifyStep i fun step =>
      { step with
        attempt := attempt, status := .retrying, retryAt := some (now.after (millis delay)) }

def refresh (c : Released) (now : Timestamp) : Released := { c with run := c.run.refresh now }

end Released

namespace Run

def inputFor (q : Plan) (s : Run) (i : Nat) : Option Json := do
  let dependencies ← q.graph.dependencies[i]?
  let outputs ← dependencies.mapM fun d => do
    let step ← s.steps[d]?
    some (step.nodeId, step.output.getD .null)
  some (.ofMembers [("run", s.record.input), ("dependencies", .ofMembers outputs)])

def reject (q : Plan) (s : Run) (i : Nat) (why : Refusal) (now : Timestamp) : Option (Grant × Run) := do
  let failed ← s.modifyStep i fun step =>
    { step with status := .failed, error := some why.message, endedAt := some now }
  let c ← Released.stepFailed q ⟨failed, []⟩ i now
  some (.rejected why c.ready, (c.refresh now).run)

def lease (q : Plan) (s : Run) (i : Nat) (worker : String) (leaseId : Uuid) (now : Timestamp)
    (settings : Scheduling) : Option (Grant × Run) := do
  let node ← q.nodes[i]?
  let lease : Lease := ⟨leaseId, worker, now.after (settings.ttl node), false⟩
  let input ← s.inputFor q i
  let leased ← s.modifyStep i fun step =>
    { step with
      status := .dispatched
      lease := some lease
      input := input
      retryAt := none
      startedAt := some (step.startedAt.getD now) }
  let record :=
    if s.record.status = .queued then
      { s.record with status := .running, startedAt := some now }
    else s.record
  let step ← leased.steps[i]?
  some (.leased ⟨step, lease, node.kind, node.config⟩,
    { leased with record := record, reserved := s.reserved + node.estimatedCost })

def grant (q : Plan) (s : Run) (stepId : Uuid) (worker : String) (leaseId : Uuid) (now : Timestamp)
    (settings : Scheduling) : Option (Except Refusal Grant × Run) :=
  match q.index.lookup stepId with
  | none => some (.error (.missing (.step stepId)), s)
  | some i => do
    let step ← s.steps[i]?
    if !s.isActive || step.status ≠ .ready then some (.ok .stale, s)
    else
      let node ← q.nodes[i]?
      let granted ← match s.record.overBudget? s.reserved node with
        | some why => s.reject q i why now
        | none => s.lease q i worker leaseId now settings
      some (.ok granted.1, granted.2)

def renew (q : Plan) (s : Run) (stepId : Uuid) (worker : String) (now : Timestamp)
    (settings : Scheduling) : Option (Except Refusal Renewal × Run) :=
  match q.index.lookup stepId with
  | none => some (.error (.missing (.step stepId)), s)
  | some i => do
    let step ← s.steps[i]?
    let held := step.status.isInFlight &&
      step.lease.any fun lease => lease.worker = worker && now < lease.expiresAt
    if !held then some (.error (.leaseLost stepId worker), s)
    else if step.lease.any (·.abandoned) then
      let released ← s.releaseLease q i
      let skipped ← released.modifyStep i fun step =>
        { step with status := .skipped, endedAt := some now }
      let s := skipped.refresh now
      some (.ok (.abandoned s.record.status), s)
    else
      let node ← q.nodes[i]?
      let running ← s.modifyStep i fun step =>
        if step.status = .dispatched then { step with status := .running } else step
      let step ← running.steps[i]?
      match step.lease with
      | none => some (.error (.internal ("step " ++ stepId.text ++ " lost its lease")), running)
      | some lease =>
        let lease := { lease with expiresAt := now.after (settings.ttl node) }
        let renewed ← running.modifyStep i fun step => { step with lease := some lease }
        some (.ok (.renewed lease), renewed)

def pay (q : Plan) (s : Run) (i : Nat) (cost : Cents) : Option Run := do
  let released ← s.releaseLease q i
  let paid ← released.modifyStep i fun step => { step with cost := step.cost + cost }
  if paid.record.status.isTerminal then some paid
  else
    let charge ← chargeFor paid.record cost
    some { paid with record := { paid.record with cost := paid.record.cost + charge.charged } }

def conclude (q : Plan) (s : Run) (i : Nat) (report : Report) (now : Timestamp)
    (settings : Scheduling) : Option Released := do
  let step ← s.steps[i]?
  let abandoned := step.lease.any (·.abandoned) || !s.isActive
  let paid ← s.pay q i (max report.cost 0)
  match report.verdict with
  | .succeeded =>
    let done ← paid.modifyStep i fun step =>
      { step with
        status := .succeeded
        output := some (report.output.getD .null)
        error := none
        endedAt := some now }
    if abandoned then some ⟨done, []⟩ else Released.settle q ⟨done, []⟩ i
  | .failed =>
    let node ← q.nodes[i]?
    let why := Refusal.stepFailed node.id (report.error.getD "step failed")
    let noted ← paid.modifyStep i fun step => { step with error := some why.message }
    if !abandoned && report.retryable && step.attempt < node.retryLimit then
      Released.retry ⟨noted, []⟩ i now settings
    else
      let failed ← noted.modifyStep i fun step => { step with status := .failed, endedAt := some now }
      if abandoned then some ⟨failed, []⟩ else Released.stepFailed q ⟨failed, []⟩ i now

def accept (q : Plan) (s : Run) (stepId : Uuid) (report : Report) (now : Timestamp)
    (settings : Scheduling) : Option (Except Refusal Receipt × Run) :=
  match q.index.lookup stepId with
  | none => some (.error (.missing (.step stepId)), s)
  | some i => do
    let step ← s.steps[i]?
    let held := step.status.isInFlight &&
      step.lease.any fun l => l.id = report.lease && now < l.expiresAt
    if step.status.isTerminal then some (.ok (.duplicate step.status), s)
    else if !held then some (.ok (.stale step.status), s)
    else
      let concluded ← s.conclude q i report now settings
      let c := concluded.refresh now
      let step ← c.run.steps[i]?
      some (.ok (.applied step.status c.ready), c.run)

end Run

namespace Released

def expire (q : Plan) (c : Released) (i : Nat) (now : Timestamp) (settings : Scheduling) :
    Option Released := do
  let run ← c.run.releaseLease q i
  let c ← modifyStep { c with run } i fun step => { step with error := some "lease expired" }
  let node ← q.nodes[i]?
  let step ← c.run.steps[i]?
  if !c.run.isActive then
    c.modifyStep i fun step => { step with status := .skipped, endedAt := some now }
  else if step.attempt < node.retryLimit then c.retry i now settings
  else
    let c ← c.modifyStep i fun step => { step with status := .failed, endedAt := some now }
    c.stepFailed q i now

def promote (c : Released) (i : Nat) : Option Released := do
  let c ← c.modifyStep i fun step => { step with status := .ready, retryAt := none }
  c.push i

end Released

structure Sweeping where
  released : Released
  expired : Nat
  promoted : Nat

def Sweeping.visit (q : Plan) (now : Timestamp) (settings : Scheduling) (w : Sweeping) (i : Nat) :
    Option Sweeping := do
  let step ← w.released.run.steps[i]?
  if step.status.isInFlight && step.lease.any (·.expiresAt ≤ now) then
    let released ← w.released.expire q i now settings
    some { w with released, expired := w.expired + 1 }
  else if step.status = .retrying && step.retryAt.any (· ≤ now) then
    let released ← w.released.promote i
    some { w with released, promoted := w.promoted + 1 }
  else some w

namespace Run

def sweep (q : Plan) (s : Run) (now : Timestamp) (settings : Scheduling) : Option (Sweep × Run) := do
  let w ← (List.range s.steps.length).foldlM (Sweeping.visit q now settings) ⟨⟨s, []⟩, 0, 0⟩
  let c := if 0 < w.expired then w.released.refresh now else w.released
  some (⟨w.expired, w.promoted, c.ready⟩, c.run)

def cancel (s : Run) (now : Timestamp) : Bool × Run :=
  if s.record.status.isTerminal || s.record.status = .canceling then (false, s)
  else
    let canceling := { s with record := { s.record with status := .canceling } }
    (true, (canceling.stopSteps now).refresh now)

def handle (q : Plan) (s : Run) : Event → Option (Outcome × Run)
  | .grant step worker lease now settings => do
    let (result, s) ← s.grant q step worker lease now settings
    some (.granted result, s)
  | .renew step worker now settings => do
    let (result, s) ← s.renew q step worker now settings
    some (.renewed result, s)
  | .accept step report now settings => do
    let (result, s) ← s.accept q step report now settings
    some (.accepted result, s)
  | .sweep now settings => do
    let (found, s) ← s.sweep q now settings
    some (.swept found, s)
  | .cancel now =>
    let (stopped, s) := s.cancel now
    some (.canceled stopped, s)

def play (q : Plan) (s : Run) : List Event → Option (Log × Run)
  | [] => some ([], s)
  | e :: events => do
    let (answer, s) ← s.handle q e
    let (log, s) ← s.play q events
    some ((e, answer) :: log, s)

end Run

def course (nodes : List Node) (record : RunRecord) (stepId : Nat → Uuid) (events : List Event) :
    Option (Except Flaw (Log × Run)) := do
  match ← Run.materialize nodes record stepId with
  | .error flaw => some (.error flaw)
  | .ok (q, s) => do some (.ok (← s.play q events))

end Checked

end Orchestration
