import Orchestration.Cents
import Orchestration.Json.Basic

namespace Orchestration

/-- What executes a node: a language model, a function of its input, or an external tool. -/
inductive Kind where
  | llm
  | function
  | tool
deriving DecidableEq, Inhabited

namespace Kind

def name : Kind → String
  | .llm => "llm"
  | .function => "function"
  | .tool => "tool"

def all : List Kind := [.llm, .function, .tool]

end Kind

structure Node where
  id : String
  kind : Kind
  /-- The ids of the nodes that this one waits for. A repeated id counts once. -/
  dependsOn : List String
  /-- How many times a failed attempt may be repeated. -/
  retryLimit : UInt32
  /-- How long a lease lasts; without one the settings decide. -/
  timeoutSecs : Option UInt64
  estimatedCost : Cents
  /-- For the executor alone. -/
  config : Json

namespace Node

def named (id : String) : Node := ⟨id, .function, [], 0, none, 0, .null⟩

instance : Inhabited Node := ⟨named ""⟩

end Node

structure Definition where
  description : String
  nodes : List Node

namespace Definition

def ofNodes (nodes : List Node) : Definition := ⟨"", nodes⟩

end Definition

end Orchestration
