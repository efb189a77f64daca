import Orchestration.Flaw
import Orchestration.Workflow.Node

namespace Orchestration

structure Graph (n : Nat) where
  /-- The nodes that a node waits for, in the order that it names them. -/
  dependencies : Vector (List (Fin n)) n
  dependents : Vector (List (Fin n)) n
  order : List (Fin n)

namespace Graph

def indexOf? (nodes : List Node) (id : String) : Option (Fin nodes.length) :=
  nodes.findFinIdx? (·.id == id)

def firstRepeated? (seen : List String) : List String → Option String
  | [] => none
  | id :: ids => if id ∈ seen then some id else firstRepeated? (id :: seen) ids

def entryFlaw? (nodes : List Node) (node : Node) (dependency : String) : Option Flaw :=
  if dependency = node.id then some (.selfDependency node.id)
  else if (indexOf? nodes dependency).isNone then some (.unknownDependency node.id dependency)
  else none

def nodeFlaw? (nodes : List Node) (node : Node) : Option Flaw :=
  if node.estimatedCost < 0 then some (.negativeCost node.id node.estimatedCost)
  else if node.timeoutSecs = some 0 then some (.zeroTimeout node.id)
  else node.dependsOn.findSome? (entryFlaw? nodes node)

def nodesFlaw? (nodes : List Node) : Option Flaw :=
  match nodes with
  | [] => some .emptyWorkflow
  | _ =>
    match firstRepeated? [] (nodes.map (·.id)) with
    | some id => some (.duplicateNode id)
    | none => nodes.findSome? (nodeFlaw? nodes)

def dependenciesOf (nodes : List Node) (i : Fin nodes.length) : List (Fin nodes.length) :=
  (nodes[i].dependsOn.filterMap (indexOf? nodes)).eraseDups

def dependencyTable (nodes : List Node) : Vector (List (Fin nodes.length)) nodes.length :=
  Vector.ofFn (dependenciesOf nodes)

def dependentTable {n : Nat} (dependencies : Vector (List (Fin n)) n) :
    Vector (List (Fin n)) n :=
  Vector.ofFn fun j => (List.finRange n).filter fun i => dependencies[i].contains j

structure Sorting (n : Nat) where
  waiting : Vector Nat n
  queue : List (Fin n)
  order : List (Fin n)

namespace Sorting

variable {n : Nat}

def start (dependencies : Vector (List (Fin n)) n) : Sorting n :=
  let waiting := Vector.ofFn fun i => (dependencies.get i).length
  ⟨waiting, (List.finRange n).filter fun i => waiting[i] == 0, []⟩

def release (s : Sorting n) (d : Fin n) : Sorting n :=
  let left := s.waiting[d] - 1
  { s with
    waiting := s.waiting.set d left
    queue := if left = 0 then s.queue ++ [d] else s.queue }

def visit (dependents : Vector (List (Fin n)) n) (s : Sorting n) (i : Fin n)
    (rest : List (Fin n)) : Sorting n :=
  dependents[i].foldl release { s with queue := rest, order := s.order ++ [i] }

def run (dependents : Vector (List (Fin n)) n) : Nat → Sorting n → Sorting n
  | 0, s => s
  | fuel + 1, s =>
    match s.queue with
    | [] => s
    | i :: rest => run dependents fuel (s.visit dependents i rest)

def stuck (s : Sorting n) : List (Fin n) :=
  (List.finRange n).filter fun i => 0 < s.waiting[i]

end Sorting

/-- Sorting visits no node twice, so that as many visits as nodes are enough. -/
def sort (nodes : List Node) : Sorting nodes.length :=
  let dependencies := dependencyTable nodes
  Sorting.run (dependentTable dependencies) nodes.length (Sorting.start dependencies)

def ofNodes (nodes : List Node) : Except Flaw (Graph nodes.length) :=
  match nodesFlaw? nodes with
  | some flaw => .error flaw
  | none =>
    let sorted := sort nodes
    if sorted.order.length = nodes.length then
      .ok ⟨dependencyTable nodes, dependentTable (dependencyTable nodes), sorted.order⟩
    else .error (.cycle (sorted.stuck.map fun i => nodes[i].id))

def executionOrder (nodes : List Node) : Except Flaw (List String) :=
  (ofNodes nodes).map fun g => g.order.map fun i => nodes[i].id

end Graph

end Orchestration
