import Orchestration.Text.Decimal
import Orchestration.Time.Timestamp
import Orchestration.Uuid
import Orchestration.Workflow.Node

namespace Orchestration

inductive Version where
  | latest
  | exact (n : UInt32)
deriving DecidableEq

namespace Version

def text : Version → String
  | .latest => "latest"
  | .exact n => "v" ++ Text.natural n.toNat

end Version

structure Reference where
  name : String
  version : Version
deriving DecidableEq

namespace Reference

def text (r : Reference) : String := r.name ++ "@" ++ r.version.text

end Reference

structure Workflow where
  id : Uuid
  name : String
  version : UInt32
  description : String
  nodes : List Node
  createdAt : Timestamp

namespace Workflow

def node? (w : Workflow) (id : String) : Option Node := w.nodes.find? (·.id == id)

def reference (w : Workflow) : Reference := ⟨w.name, .exact w.version⟩

end Workflow

end Orchestration
