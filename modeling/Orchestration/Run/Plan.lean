import Orchestration.Workflow.Graph
import Orchestration.Workflow.Reference

namespace Orchestration

structure Plan where
  workflow : Workflow
  graph : Graph workflow.nodes.length

namespace Plan

def ofWorkflow (w : Workflow) : Except Flaw Plan :=
  match Graph.ofNodes w.nodes with
  | .ok g => .ok ⟨w, g⟩
  | .error flaw => .error flaw

abbrev size (p : Plan) : Nat := p.workflow.nodes.length

def node (p : Plan) (i : Fin p.size) : Node := p.workflow.nodes[i]

def dependencies (p : Plan) (i : Fin p.size) : List (Fin p.size) := p.graph.dependencies[i]

def dependents (p : Plan) (i : Fin p.size) : List (Fin p.size) := p.graph.dependents[i]

end Plan

end Orchestration
