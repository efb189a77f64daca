import Orchestration.Refusal
import Orchestration.Run.Record

namespace Orchestration

namespace RunRecord

/-- Refuses a node whose estimate does not fit beside what is spent and what is reserved for the
steps under way. -/
def overBudget? (r : RunRecord) (reserved : Cents) (node : Node) : Option Refusal :=
  match r.budget with
  | none => none
  | some budget =>
    let committed := r.cost + reserved
    if budget < committed + node.estimatedCost then
      some (.overBudget node.id committed node.estimatedCost budget)
    else none

end RunRecord

/-- What a run pays of a reported cost, and what is beyond its budget. -/
structure Charge where
  charged : Cents
  overrun : Cents

namespace RunRecord

def chargeFor (r : RunRecord) (cost : Cents) : Charge :=
  let actual := max cost 0
  match r.budget with
  | none => ⟨actual, 0⟩
  | some budget =>
    let charged := min actual (max (budget - r.cost) 0)
    ⟨charged, actual - charged⟩

def charge (r : RunRecord) (cost : Cents) : RunRecord :=
  { r with cost := r.cost + (r.chargeFor cost).charged }

end RunRecord

end Orchestration
