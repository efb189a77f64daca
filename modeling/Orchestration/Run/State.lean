import Orchestration.Run.Budget
import Orchestration.Run.Plan
import Orchestration.Run.Record
import Orchestration.Settings.Scheduling

namespace Orchestration

structure Run (p : Plan) where
  record : RunRecord
  steps : Vector Step p.size
  waiting : Vector Nat p.size
  /-- The estimates of the steps under lease. -/
  reserved : Cents

namespace Run

variable {p : Plan}

def step (s : Run p) (i : Fin p.size) : Step := s.steps[i]

def modifyStep (s : Run p) (i : Fin p.size) (f : Step → Step) : Run p :=
  { s with steps := s.steps.set i (f (s.step i)) }

def start (p : Plan) (record : RunRecord) (stepId : Nat → Uuid) : Run p where
  record := record
  steps := Vector.ofFn fun i : Fin p.size =>
    let step := Step.pending (stepId i) record.id (p.node i).id
    if p.dependencies i = [] then { step with status := .ready } else step
  waiting := Vector.ofFn fun i => (p.dependencies i).length
  reserved := 0

def view (s : Run p) : RunView := ⟨s.record, s.steps.toList⟩

def stepIds (s : Run p) : List Uuid := s.steps.toList.map (·.id)

def readySteps (s : Run p) : List Uuid :=
  (s.steps.toList.filter (·.status = .ready)).map (·.id)

def isActive (s : Run p) : Bool := s.record.status.isActive

def indexOf? (s : Run p) (id : Uuid) : Option (Fin p.size) :=
  (List.finRange p.size).find? fun i => (s.step i).id = id

def leaseExpired (s : Run p) (now : Timestamp) (i : Fin p.size) : Bool :=
  (s.step i).status.isInFlight && (s.step i).lease.any (·.expiresAt ≤ now)

def retryDue (s : Run p) (now : Timestamp) (i : Fin p.size) : Bool :=
  (s.step i).status = .retrying && (s.step i).retryAt.any (· ≤ now)

def overdue (s : Run p) (now : Timestamp) : Bool :=
  (List.finRange p.size).any fun i => s.leaseExpired now i || s.retryDue now i

def releaseLease (s : Run p) (i : Fin p.size) : Run p :=
  match (s.step i).lease with
  | none => s
  | some _ =>
    { s.modifyStep i fun step => { step with lease := none } with
      reserved := max (s.reserved - (p.node i).estimatedCost) 0 }

def stopStep (now : Timestamp) (step : Step) : Step :=
  match step.status with
  | .pending | .ready | .retrying =>
    { step with status := .skipped, retryAt := none, endedAt := some now }
  | .dispatched | .running =>
    { step with lease := step.lease.map fun lease => { lease with abandoned := true } }
  | .succeeded | .failed | .skipped => step

/-- Skips what has not started, and marks the leases of what is under way as abandoned. -/
def stopSteps (s : Run p) (now : Timestamp) : Run p :=
  { s with steps := Vector.ofFn fun i => stopStep now (s.step i) }

def endStatus (s : Run p) : RunStatus :=
  let steps := s.steps.toList
  if steps.all (·.status = .succeeded) then .succeeded
  else if s.record.policy = .tolerant && steps.any (·.status = .succeeded) then .partialSuccess
  else .failed

def nextStatus? (s : Run p) : Option RunStatus :=
  let steps := s.steps.toList
  if s.record.status.isTerminal then none
  else if s.record.status = .canceling then
    if steps.any (·.status.isInFlight) then none else some .canceled
  else if steps.all (·.status.isTerminal) then some s.endStatus
  else none

def refresh (s : Run p) (now : Timestamp) : Run p :=
  match s.nextStatus? with
  | none => s
  | some status =>
    let error :=
      if status = .failed && s.record.error.isNone then some "no step succeeded"
      else s.record.error
    { s with record := { s.record with status, error, endedAt := some now } }

end Run

/-- A run with the steps that a transition made ready, in the order in which they became so. -/
structure Released (p : Plan) where
  run : Run p
  ready : List Uuid

namespace Released

variable {p : Plan}

def modifyStep (c : Released p) (i : Fin p.size) (f : Step → Step) : Released p :=
  { c with run := c.run.modifyStep i f }

def push (c : Released p) (i : Fin p.size) : Released p :=
  { c with ready := c.ready ++ [(c.run.step i).id] }

/-- One more dependency of `d` is settled. With the last one, `d` becomes ready. -/
def settleFor (c : Released p) (d : Fin p.size) : Released p :=
  let left := c.run.waiting[d] - 1
  let c := { c with run := { c.run with waiting := c.run.waiting.set d left } }
  if c.run.isActive && left = 0 && (c.run.step d).status = .pending then
    (c.modifyStep d fun step => { step with status := .ready }).push d
  else c

def settle (c : Released p) (i : Fin p.size) : Released p :=
  (p.dependents i).foldl settleFor c

/-- Skips `d`, which waits for the failed node. A skipped step counts as settled. -/
def skipFor (now : Timestamp) (failed : String) (c : Released p) (d : Fin p.size) : Released p :=
  if (c.run.step d).status = .pending then
    (c.modifyStep d fun step =>
      { step with
        status := .skipped
        error := some ("dependency '" ++ failed ++ "' failed")
        endedAt := some now }).settle d
  else c

def stepFailed (c : Released p) (i : Fin p.size) (now : Timestamp) : Released p :=
  let step := c.run.step i
  match c.run.record.policy with
  | .failFast =>
    let reason := "step '" ++ step.nodeId ++ "' failed: " ++ step.error.getD "unknown error"
    let stopped := c.run.stopSteps now
    { c with
      run := { stopped with
        record := { stopped.record with
          status := .failed, error := some reason, endedAt := some now } } }
  | .tolerant => (p.dependents i).foldl (skipFor now step.nodeId) c

def retry (c : Released p) (i : Fin p.size) (now : Timestamp) (settings : Scheduling) :
    Released p :=
  let delay := settings.retryDelayMs (c.run.step i).attempt
  if delay = 0 then
    (c.modifyStep i fun step =>
      { step with attempt := step.attempt + 1, status := .ready, retryAt := none }).push i
  else
    c.modifyStep i fun step =>
      { step with
        attempt := step.attempt + 1
        status := .retrying
        retryAt := some (now.after (millis delay)) }

def refresh (c : Released p) (now : Timestamp) : Released p :=
  { c with run := c.run.refresh now }

end Released

end Orchestration
