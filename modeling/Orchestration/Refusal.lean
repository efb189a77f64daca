import Orchestration.Flaw
import Orchestration.Run.Status
import Orchestration.Workflow.Reference

namespace Orchestration

open Text

inductive LedgerError where
  | missing (id : Uuid)
  | taken (id : Uuid)
deriving DecidableEq

namespace LedgerError

def message : LedgerError → String
  | .missing id => "record not found: " ++ id.text
  | .taken id => "record already exists: " ++ id.text

end LedgerError

inductive Missing where
  | step (id : Uuid)
  | run (id : Uuid)
  | record (id : Uuid)
  | workflow (reference : Reference)
  | workflowName (name : String)
deriving DecidableEq

namespace Missing

def message : Missing → String
  | .step id => "step not found: " ++ id.text
  | .run id => "run not found: " ++ id.text
  | .record id => "record not found: " ++ id.text
  | .workflow reference => "spec not found: " ++ reference.text
  | .workflowName name => "spec not found: " ++ name

end Missing

inductive Refusal where
  | flawed (flaw : Flaw)
  | missing (what : Missing)
  | overBudget (node : String) (committed estimate budget : Cents)
  | leaseLost (step : Uuid) (worker : String)
  | stepFailed (node message : String)
  | runStopped (run : Uuid) (status : RunStatus)
  | ledger (error : LedgerError)
  | internal (what : String)
deriving DecidableEq

namespace Refusal

def message : Refusal → String
  | .flawed flaw => "validation failed: " ++ flaw.message
  | .missing what => what.message
  | .overBudget node committed estimate budget =>
    "budget exceeded for node '" ++ node ++ "': " ++ decimal committed.value ++ " committed + " ++
      decimal estimate.value ++ " estimated > " ++ decimal budget.value ++ " budget"
  | .leaseLost step worker =>
    "lease on step " ++ step.text ++ " is not held by worker '" ++ worker ++ "'"
  | .stepFailed node message => "worker reported failure for node '" ++ node ++ "': " ++ message
  | .runStopped run status =>
    "run " ++ run.text ++ " is " ++ status.name ++ "; step work is abandoned"
  | .ledger error => "store error: " ++ error.message
  | .internal what => "internal error: " ++ what

/-- A ledger without the record reports it missing; all else is the ledger's own affair. -/
def ofLedger : LedgerError → Refusal
  | .missing id => .missing (.record id)
  | error => .ledger error

end Refusal

end Orchestration
