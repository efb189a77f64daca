import Orchestration.Refusal
import Orchestration.Text.Blank
import Orchestration.Workflow.Graph

namespace Orchestration

structure Catalog where
  /-- The versions of each name, oldest first. -/
  shelves : List (String × List Workflow)

namespace Catalog

def empty : Catalog := ⟨[]⟩

def versionsOf (c : Catalog) (name : String) : List Workflow := (c.shelves.lookup name).getD []

def append (name : String) (w : Workflow) :
    List (String × List Workflow) → List (String × List Workflow)
  | [] => [(name, [w])]
  | (k, ws) :: shelves =>
    if k = name then (k, ws ++ [w]) :: shelves else (k, ws) :: append name w shelves

def register (c : Catalog) (name : String) (definition : Definition) (now : Timestamp)
    (id : Uuid) : Except Refusal Workflow × Catalog :=
  let name := Text.trim name
  if name = "" then (.error (.flawed .emptyName), c)
  else match Graph.ofNodes definition.nodes with
    | .error flaw => (.error (.flawed flaw), c)
    | .ok _ =>
      let version := (c.versionsOf name).length + 1
      if version < UInt32.size then
        let w : Workflow :=
          ⟨id, name, .ofNat version, definition.description, definition.nodes, now⟩
        (.ok w, ⟨append name w c.shelves⟩)
      else (.error (.internal ("spec '" ++ name ++ "' has too many versions")), c)

/-- The version asked for. Versions count from one. -/
def select? (versions : List Workflow) : Version → Option Workflow
  | .latest => versions.getLast?
  | .exact n => if n = 0 then none else versions[n.toNat - 1]?

def get (c : Catalog) (name : String) (version : Version) : Except Refusal Workflow :=
  let name := Text.trim name
  match select? (c.versionsOf name) version with
  | some w => .ok w
  | none => .error (.missing (.workflow ⟨name, version⟩))

def history (c : Catalog) (name : String) : Except Refusal (List Workflow) :=
  let name := Text.trim name
  match c.shelves.lookup name with
  | some ws => .ok ws
  | none => .error (.missing (.workflowName name))

/-- The latest version of every name, in the order of the names. -/
def newest (c : Catalog) : List Workflow :=
  (c.shelves.mergeSort fun a b => a.1 ≤ b.1).filterMap (·.2.getLast?)

end Catalog

end Orchestration
