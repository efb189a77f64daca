import Orchestration.Run.Status
import Orchestration.Workflow.Reference

namespace Orchestration

/-- A worker's claim on a step, exclusive until its deadline. -/
structure Lease where
  id : Uuid
  worker : String
  expiresAt : Timestamp
  /-- The run stopped, and the worker should drop the step. -/
  abandoned : Bool
deriving DecidableEq

structure Step where
  id : Uuid
  runId : Uuid
  nodeId : String
  status : StepStatus
  /-- The attempts before the present one. -/
  attempt : UInt32
  lease : Option Lease
  input : Json
  output : Option Json
  /-- Of all attempts together. -/
  cost : Cents
  error : Option String
  startedAt : Option Timestamp
  endedAt : Option Timestamp
  retryAt : Option Timestamp
deriving Inhabited

namespace Step

def pending (id runId : Uuid) (nodeId : String) : Step :=
  ⟨id, runId, nodeId, .pending, 0, none, .null, none, 0, none, none, none, none⟩

end Step

structure RunRecord where
  id : Uuid
  workflow : Reference
  status : RunStatus
  /-- The most that the run may cost; without one there is no limit. -/
  budget : Option Cents
  cost : Cents
  tags : List String
  input : Json
  policy : FailurePolicy
  error : Option String
  createdAt : Timestamp
  startedAt : Option Timestamp
  endedAt : Option Timestamp

namespace RunRecord

def queued (id : Uuid) (workflow : Reference) (policy : FailurePolicy) (createdAt : Timestamp) :
    RunRecord :=
  ⟨id, workflow, .queued, none, 0, [], .null, policy, none, createdAt, none, none⟩

end RunRecord

structure RunView where
  run : RunRecord
  steps : List Step

namespace RunView

def step? (v : RunView) (nodeId : String) : Option Step := v.steps.find? (·.nodeId == nodeId)

end RunView

structure Assignment where
  step : Step
  lease : Lease
  kind : Kind
  config : Json

inductive Verdict where
  | succeeded
  | failed
deriving DecidableEq

namespace Verdict

def name : Verdict → String
  | .succeeded => "succeeded"
  | .failed => "failed"

def all : List Verdict := [.succeeded, .failed]

end Verdict

structure Report where
  lease : Uuid
  verdict : Verdict
  output : Option Json
  cost : Cents
  error : Option String
  retryable : Bool

namespace Report

def succeeded (lease : Uuid) (output : Json) (cost : Cents) : Report :=
  ⟨lease, .succeeded, some output, cost, none, true⟩

def failed (lease : Uuid) (error : String) (cost : Cents) : Report :=
  ⟨lease, .failed, none, cost, some error, true⟩

def fatal (r : Report) : Report := { r with retryable := false }

end Report

end Orchestration
