import Orchestration.Json.Scalars
import Orchestration.Workflow.Reference

namespace Orchestration

namespace Kind

def toJson (k : Kind) : Json := .string k.name

def decode : Decoder Kind := .named all name

end Kind

namespace Node

def schema : List Field :=
  [⟨"id", [], false⟩, ⟨"kind", [], true⟩, ⟨"depends_on", ["dependsOn"], true⟩,
    ⟨"retry_limit", [], true⟩, ⟨"timeout_secs", [], true⟩, ⟨"estimated_cost_cents", [], true⟩,
    ⟨"config", [], true⟩]

def toJson (n : Node) : Json :=
  .object [
    ("id", .string n.id),
    ("kind", n.kind.toJson),
    ("depends_on", .ofStrings n.dependsOn),
    ("retry_limit", .ofUInt32 n.retryLimit),
    ("timeout_secs", .ofOption .ofUInt64 n.timeoutSecs),
    ("estimated_cost_cents", .ofCents n.estimatedCost),
    ("config", n.config)]

def decode : Decoder Node := fun room j => do
  let f ← Fields.read schema room j
  let id ← f.required "id" .string
  let kind ← f.orElse "kind" Kind.decode .function
  let dependsOn ← f.orElse "depends_on" (.list .string) []
  let retryLimit ← f.orElse "retry_limit" .uint32 0
  let timeoutSecs ← f.optional "timeout_secs" .uint64
  let estimatedCost ← f.orElse "estimated_cost_cents" .cents 0
  let config ← f.orElse "config" .json .null
  some ⟨id, kind, dependsOn, retryLimit, timeoutSecs, estimatedCost, config⟩

end Node

namespace Definition

def schema : List Field := [⟨"description", [], true⟩, ⟨"nodes", [], false⟩]

def toJson (d : Definition) : Json :=
  .object [("description", .string d.description), ("nodes", .array (d.nodes.map Node.toJson))]

def decode : Decoder Definition := fun room j => do
  let f ← Fields.read schema room j
  let description ← f.orElse "description" .string ""
  let nodes ← f.required "nodes" (.list Node.decode)
  some ⟨description, nodes⟩

end Definition

namespace Version

def toJson : Version → Json
  | .latest => .string "latest"
  | .exact n => .object [("exact", .ofUInt32 n)]

def decode : Decoder Version
  | _, .string "latest" => some .latest
  | _ + 1, .object [("latest", .null)] => some .latest
  | room + 1, .object [("exact", j)] => (Decoder.uint32 room j).map .exact
  | _, _ => none

end Version

namespace Reference

def schema : List Field := [⟨"name", [], false⟩, ⟨"version", [], true⟩]

def toJson (r : Reference) : Json :=
  .object [("name", .string r.name), ("version", r.version.toJson)]

def decode : Decoder Reference := fun room j => do
  let f ← Fields.read schema room j
  let name ← f.required "name" .string
  let version ← f.orElse "version" Version.decode .latest
  some ⟨name, version⟩

end Reference

namespace Workflow

def schema : List Field :=
  [⟨"id", [], false⟩, ⟨"name", [], false⟩, ⟨"version", [], false⟩, ⟨"description", [], false⟩,
    ⟨"nodes", [], false⟩, ⟨"created_at", [], false⟩]

def toJson (w : Workflow) : Json :=
  .object [
    ("id", .ofUuid w.id),
    ("name", .string w.name),
    ("version", .ofUInt32 w.version),
    ("description", .string w.description),
    ("nodes", .array (w.nodes.map Node.toJson)),
    ("created_at", .ofTimestamp w.createdAt)]

def summary (w : Workflow) : Json :=
  .object [
    ("id", .ofUuid w.id),
    ("name", .string w.name),
    ("version", .ofUInt32 w.version),
    ("ref", .string w.reference.text),
    ("nodes", .ofNat w.nodes.length),
    ("created_at", .ofTimestamp w.createdAt)]

def decode : Decoder Workflow := fun room j => do
  let f ← Fields.read schema room j
  let id ← f.required "id" .uuid
  let name ← f.required "name" .string
  let version ← f.required "version" .uint32
  let description ← f.required "description" .string
  let nodes ← f.required "nodes" (.list Node.decode)
  let createdAt ← f.required "created_at" .timestamp
  some ⟨id, name, version, description, nodes, createdAt⟩

end Workflow

end Orchestration
