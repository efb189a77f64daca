import Orchestration.Run.State

namespace Orchestration

inductive Grant where
  | leased (assignment : Assignment)
  /-- The budget does not allow the step. It failed, and `ready` became ready. -/
  | rejected (why : Refusal) (ready : List Uuid)
  /-- The step is not ready, or the run has stopped. -/
  | stale

inductive Renewal where
  | renewed (lease : Lease)
  /-- The run stopped. The step was skipped and its lease released. -/
  | abandoned (status : RunStatus)

inductive Receipt where
  | applied (status : StepStatus) (ready : List Uuid)
  /-- The step had ended before. -/
  | duplicate (status : StepStatus)
  /-- The report quotes another lease than the step's, or one that expired. -/
  | stale (status : StepStatus)

structure Sweep where
  expired : Nat
  promoted : Nat
  ready : List Uuid

namespace Run

variable {p : Plan}

/-- What a worker gets to see for step `i`: the input of the run, and the outputs of the
dependencies under their node ids. -/
def inputFor (s : Run p) (i : Fin p.size) : Json :=
  let outputs := (p.dependencies i).map fun d =>
    ((s.step d).nodeId, (s.step d).output.getD .null)
  Json.ofMembers [("run", s.record.input), ("dependencies", .ofMembers outputs)]

def reject (s : Run p) (i : Fin p.size) (why : Refusal) (now : Timestamp) : Grant × Run p :=
  let failed := s.modifyStep i fun step =>
    { step with status := .failed, error := some why.message, endedAt := some now }
  let c := (Released.stepFailed ⟨failed, []⟩ i now).refresh now
  (.rejected why c.ready, c.run)

/-- The step is dispatched under a new lease. The first lease of a run starts it. -/
def lease (s : Run p) (i : Fin p.size) (worker : String) (leaseId : Uuid) (now : Timestamp)
    (settings : Scheduling) : Grant × Run p :=
  let node := p.node i
  let lease : Lease := ⟨leaseId, worker, now.after (settings.ttl node), false⟩
  let input := s.inputFor i
  let leased := s.modifyStep i fun step =>
    { step with
      status := .dispatched
      lease := some lease
      input := input
      retryAt := none
      startedAt := some (step.startedAt.getD now) }
  let record :=
    if s.record.status = .queued then
      { s.record with status := .running, startedAt := some now }
    else s.record
  (.leased ⟨leased.step i, lease, node.kind, node.config⟩,
    { leased with record := record, reserved := s.reserved + node.estimatedCost })

def grant (s : Run p) (stepId : Uuid) (worker : String) (leaseId : Uuid) (now : Timestamp)
    (settings : Scheduling) : Except Refusal Grant × Run p :=
  match s.indexOf? stepId with
  | none => (.error (.missing (.step stepId)), s)
  | some i =>
    if !s.isActive || (s.step i).status ≠ .ready then (.ok .stale, s)
    else
      let (grant, s) := match s.record.overBudget? s.reserved (p.node i) with
        | some why => s.reject i why now
        | none => s.lease i worker leaseId now settings
      (.ok grant, s)

def heldBy (s : Run p) (i : Fin p.size) (worker : String) (now : Timestamp) : Bool :=
  (s.step i).status.isInFlight &&
    (s.step i).lease.any fun lease => lease.worker = worker && now < lease.expiresAt

/-- Renews the lease that `worker` holds on a step, or takes it away if the run has stopped. The first
renewal shows that the worker is at work. -/
def renew (s : Run p) (stepId : Uuid) (worker : String) (now : Timestamp)
    (settings : Scheduling) : Except Refusal Renewal × Run p :=
  match s.indexOf? stepId with
  | none => (.error (.missing (.step stepId)), s)
  | some i =>
    if !s.heldBy i worker now then (.error (.leaseLost stepId worker), s)
    else if (s.step i).lease.any (·.abandoned) then
      let skipped := (s.releaseLease i).modifyStep i fun step =>
        { step with status := .skipped, endedAt := some now }
      let s := skipped.refresh now
      (.ok (.abandoned s.record.status), s)
    else
      let running := s.modifyStep i fun step =>
        if step.status = .dispatched then { step with status := .running } else step
      match (running.step i).lease with
      | none => (.error (.internal ("step " ++ stepId.text ++ " lost its lease")), running)
      | some lease =>
        let lease := { lease with expiresAt := now.after (settings.ttl (p.node i)) }
        (.ok (.renewed lease), running.modifyStep i fun step => { step with lease := some lease })

/-- Takes step `i` back from its worker, and charges what it cost to the run unless that has
ended. -/
def pay (s : Run p) (i : Fin p.size) (cost : Cents) : Run p :=
  let paid := (s.releaseLease i).modifyStep i fun step => { step with cost := step.cost + cost }
  if paid.record.status.isTerminal then paid
  else { paid with record := paid.record.charge cost }

/-- Ends step `i`, or the present attempt of it, as the report says. An abandoned step has no further
attempt, and nothing follows from its end. -/
def conclude (s : Run p) (i : Fin p.size) (report : Report) (now : Timestamp)
    (settings : Scheduling) : Released p :=
  let abandoned := (s.step i).lease.any (·.abandoned) || !s.isActive
  let paid := s.pay i (max report.cost 0)
  match report.verdict with
  | .succeeded =>
    let done := paid.modifyStep i fun step =>
      { step with
        status := .succeeded
        output := some (report.output.getD .null)
        error := none
        endedAt := some now }
    if abandoned then ⟨done, []⟩ else Released.settle ⟨done, []⟩ i
  | .failed =>
    let why := Refusal.stepFailed (p.node i).id (report.error.getD "step failed")
    let noted := paid.modifyStep i fun step => { step with error := some why.message }
    if !abandoned && report.retryable && (s.step i).attempt < (p.node i).retryLimit then
      Released.retry ⟨noted, []⟩ i now settings
    else
      let failed := noted.modifyStep i fun step =>
        { step with status := .failed, endedAt := some now }
      if abandoned then ⟨failed, []⟩ else Released.stepFailed ⟨failed, []⟩ i now

def apply (s : Run p) (i : Fin p.size) (report : Report) (now : Timestamp)
    (settings : Scheduling) : Receipt × Run p :=
  let c := (s.conclude i report now settings).refresh now
  (.applied (c.run.step i).status c.ready, c.run)

def accepts (s : Run p) (i : Fin p.size) (lease : Uuid) (now : Timestamp) : Bool :=
  (s.step i).status.isInFlight &&
    (s.step i).lease.any fun l => l.id = lease && now < l.expiresAt

def accept (s : Run p) (stepId : Uuid) (report : Report) (now : Timestamp)
    (settings : Scheduling) : Except Refusal Receipt × Run p :=
  match s.indexOf? stepId with
  | none => (.error (.missing (.step stepId)), s)
  | some i =>
    let status := (s.step i).status
    if status.isTerminal then (.ok (.duplicate status), s)
    else if !s.accepts i report.lease now then (.ok (.stale status), s)
    else
      let (receipt, s) := s.apply i report now settings
      (.ok receipt, s)

end Run

namespace Released

variable {p : Plan}

def expire (c : Released p) (i : Fin p.size) (now : Timestamp) (settings : Scheduling) :
    Released p :=
  let c := { c with run := c.run.releaseLease i }
  let c := c.modifyStep i fun step => { step with error := some "lease expired" }
  if !c.run.isActive then
    c.modifyStep i fun step => { step with status := .skipped, endedAt := some now }
  else if (c.run.step i).attempt < (p.node i).retryLimit then c.retry i now settings
  else
    -- What this sweep made ready before may be skipped now; it stays named.
    (c.modifyStep i fun step => { step with status := .failed, endedAt := some now }).stepFailed
      i now

def promote (c : Released p) (i : Fin p.size) : Released p :=
  (c.modifyStep i fun step => { step with status := .ready, retryAt := none }).push i

end Released

structure Sweeping (p : Plan) where
  released : Released p
  expired : Nat
  promoted : Nat

namespace Sweeping

variable {p : Plan}

def visit (now : Timestamp) (settings : Scheduling) (w : Sweeping p) (i : Fin p.size) :
    Sweeping p :=
  if w.released.run.leaseExpired now i then
    { w with released := w.released.expire i now settings, expired := w.expired + 1 }
  else if w.released.run.retryDue now i then
    { w with released := w.released.promote i, promoted := w.promoted + 1 }
  else w

end Sweeping

namespace Run

variable {p : Plan}

/-- Takes back expired leases and makes steps ready whose wait is over, in declaration order. -/
def sweep (s : Run p) (now : Timestamp) (settings : Scheduling) : Sweep × Run p :=
  let w := (List.finRange p.size).foldl (Sweeping.visit now settings) ⟨⟨s, []⟩, 0, 0⟩
  -- A wait that is over ends no step, so that there is nothing to refresh for.
  let c := if 0 < w.expired then w.released.refresh now else w.released
  (⟨w.expired, w.promoted, c.ready⟩, c.run)

/-- Stops the run. False if it had stopped before. -/
def cancel (s : Run p) (now : Timestamp) : Bool × Run p :=
  if s.record.status.isTerminal || s.record.status = .canceling then (false, s)
  else
    let canceling := { s with record := { s.record with status := .canceling } }
    (true, (canceling.stopSteps now).refresh now)

end Run

end Orchestration
