import Orchestration.Cents
import Orchestration.Json.Basic
import Orchestration.Text.Decimal
import Orchestration.Workflow.Node

namespace Orchestration

inductive ExecutionError where
  | retryable (message : String)
  | fatal (message : String)
deriving DecidableEq

namespace ExecutionError

def message : ExecutionError → String
  | .retryable message => "retryable node error: " ++ message
  | .fatal message => "fatal node error: " ++ message

def isRetryable : ExecutionError → Bool
  | .retryable _ => true
  | .fatal _ => false

end ExecutionError

structure Product where
  output : Json
  cost : Cents

structure Task where
  config : Json
  input : Json
  nodeId : String
  attempt : UInt32

inductive Script where
  | succeed (value : Json) (cost : Cents)
  | fail (error : ExecutionError)

inductive Executor where
  | simulated (kind : Kind)
  | scripted (name : String) (script : Script)

namespace Executor

def delayMs (e : Executor) (t : Task) : Nat :=
  match e with
  | .simulated _ => ((t.config.member? "delay_ms").bind Json.natural?).getD 0
  | .scripted _ _ => 0

def configuredCost (config : Json) : Cents :=
  match config.member? "cost_cents" with
  | some (.int n) => (Cents.ofInt? n).getD 0
  | _ => 0

/-- An object with the members of `extra`, if that is an object, over its own. -/
def objectWith (members : List (String × Json)) (extra : Option Json) : Json :=
  .ofMembers (members ++ (extra.bind Json.members?).getD [])

def simulate (kind : Kind) (t : Task) : Except ExecutionError Product :=
  match (t.config.member? "fatal").bind Json.string? with
  | some message => .error (.fatal message)
  | none =>
    let failing := ((t.config.member? "fail_attempts").bind Json.natural?).getD 0
    if t.attempt.toNat < failing then
      .error (.retryable ("simulated failure on attempt " ++ Text.natural t.attempt.toNat))
    else
      .ok ⟨objectWith [("node", .string t.nodeId), ("kind", .string kind.name),
          ("attempt", .int t.attempt.toNat), ("input", t.input)] (t.config.member? "output"),
        configuredCost t.config⟩

def execute (e : Executor) (t : Task) : Except ExecutionError Product :=
  match e with
  | .simulated kind => simulate kind t
  | .scripted name (.succeed value cost) =>
    .ok ⟨objectWith [("executor", .string name)] (some value), cost⟩
  | .scripted _ (.fail error) => .error error

end Executor

structure Toolbox where
  llm : Executor
  function : Executor
  tool : Executor

namespace Toolbox

def executor (t : Toolbox) : Kind → Executor
  | .llm => t.llm
  | .function => t.function
  | .tool => t.tool

def simulated : Toolbox := ⟨.simulated .llm, .simulated .function, .simulated .tool⟩

end Toolbox

end Orchestration
