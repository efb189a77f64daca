namespace Orchestration

inductive RunStatus where
  | queued
  | running
  /-- Canceled, with steps still under way. -/
  | canceling
  | succeeded
  | failed
  | partialSuccess
  | canceled
deriving DecidableEq, Inhabited

namespace RunStatus

def name : RunStatus → String
  | .queued => "queued"
  | .running => "running"
  | .canceling => "canceling"
  | .succeeded => "succeeded"
  | .failed => "failed"
  | .partialSuccess => "partial_success"
  | .canceled => "canceled"

def all : List RunStatus :=
  [.queued, .running, .canceling, .succeeded, .failed, .partialSuccess, .canceled]

def ofName? (s : String) : Option RunStatus := all.find? (·.name == s)

def isTerminal : RunStatus → Bool
  | .succeeded | .failed | .partialSuccess | .canceled => true
  | .queued | .running | .canceling => false

/-- Whether steps still become ready and are handed out. -/
def isActive : RunStatus → Bool
  | .queued | .running => true
  | _ => false

end RunStatus

inductive StepStatus where
  | pending
  | ready
  | dispatched
  | running
  | succeeded
  | failed
  | retrying
  | skipped
deriving DecidableEq, Inhabited

namespace StepStatus

def name : StepStatus → String
  | .pending => "pending"
  | .ready => "ready"
  | .dispatched => "dispatched"
  | .running => "running"
  | .succeeded => "succeeded"
  | .failed => "failed"
  | .retrying => "retrying"
  | .skipped => "skipped"

def all : List StepStatus :=
  [.pending, .ready, .dispatched, .running, .succeeded, .failed, .retrying, .skipped]

def ofName? (s : String) : Option StepStatus := all.find? (·.name == s)

def isTerminal : StepStatus → Bool
  | .succeeded | .failed | .skipped => true
  | _ => false

def isInFlight : StepStatus → Bool
  | .dispatched | .running => true
  | _ => false

end StepStatus

inductive FailurePolicy where
  /-- The run fails at once, and what has not started is skipped. -/
  | failFast
  /-- Only the dependents of the failed step are skipped. -/
  | tolerant
deriving DecidableEq, Inhabited

namespace FailurePolicy

def name : FailurePolicy → String
  | .failFast => "fail_fast"
  | .tolerant => "tolerant"

def all : List FailurePolicy := [.failFast, .tolerant]

def ofName? (s : String) : Option FailurePolicy := all.find? (·.name == s)

end FailurePolicy

inductive UnknownStatus where
  | run (text : String)
  | step (text : String)

namespace UnknownStatus

def message : UnknownStatus → String
  | .run text => "unknown run status: " ++ text
  | .step text => "unknown step status: " ++ text

end UnknownStatus

end Orchestration
