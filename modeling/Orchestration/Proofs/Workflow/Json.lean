import Orchestration.Workflow.Json
import Orchestration.Proofs.Json.Decoding

namespace Orchestration

def Json.renameKey (old new : String) : Json → Json
  | .object members => .object (members.map fun (k, v) => (if k = old then new else k, v))
  | v => v

theorem Kind.returns (k : Kind) : decode.Returns k.toJson k :=
  ⟨.string _, fun _ _ => by cases k <;> rfl⟩

namespace Node

def members (n : Node) : List (String × Json) :=
  [("id", .string n.id), ("kind", n.kind.toJson), ("depends_on", .ofStrings n.dependsOn),
    ("retry_limit", .ofUInt32 n.retryLimit), ("timeout_secs", .ofOption .ofUInt64 n.timeoutSecs),
    ("estimated_cost_cents", .ofCents n.estimatedCost), ("config", n.config)]

/-- The JSON form of a node, or this with `dependsOn` in place of `depends_on`. -/
def Spells (j : Json) (n : Node) : Prop :=
  j = n.toJson ∨ j = n.toJson.renameKey "depends_on" "dependsOn"

theorem exists_members {j : Json} {n : Node} (spells : Spells j n) : ∃ ms, j = .object ms ∧
    ms.map (fun m => (Fields.nameOf? schema m.1, m.2)) = n.members.map fun m => (some m.1, m.2) := by
  rcases spells with rfl | rfl
  · exact ⟨_, rfl, rfl⟩
  · exact ⟨_, rfl, rfl⟩

theorem returns {n : Node} (exact : n.config.Exact) {j : Json} (spells : Spells j n) :
    decode.Returns j n := by
  have id := Decoder.string_returns n.id
  have kind := n.kind.returns
  have dependsOn := Decoder.strings_returns n.dependsOn
  have retryLimit := Decoder.uint32_returns n.retryLimit
  have timeoutSecs := Decoder.nullable_returns Decoder.uint64_returns (fun _ same => nomatch same)
    n.timeoutSecs
  have estimatedCost := Decoder.cents_returns n.estimatedCost
  have config := Decoder.json_returns exact
  obtain ⟨ms, rfl, keys⟩ := exists_members spells
  apply Decoder.returns_object n.members keys rfl (by decide)
  case each =>
    simp [members, id.legible, kind.legible, dependsOn.legible, retryLimit.legible, timeoutSecs.legible,
      estimatedCost.legible, config.legible]
  case decodes =>
    intro f holds
    rw [holds.required "id" rfl id, holds.orElse "kind" rfl kind,
      holds.orElse "depends_on" rfl dependsOn, holds.orElse "retry_limit" rfl retryLimit,
      holds.optional "timeout_secs" rfl timeoutSecs,
      holds.orElse "estimated_cost_cents" rfl estimatedCost, holds.orElse "config" rfl config]
    rfl

end Node

namespace Definition

/-- The JSON form of a definition, with the nodes in any of their forms. -/
def Spells (j : Json) (d : Definition) : Prop :=
  ∃ js, List.Forall₂ Node.Spells js d.nodes ∧
    j = .object [("description", .string d.description), ("nodes", .array js)]

theorem spells_toJson (d : Definition) : Spells d.toJson d := by
  refine ⟨d.nodes.map Node.toJson, ?_, rfl⟩
  rw [List.forall₂_map_left_iff]
  exact List.forall₂_same.mpr fun n _ => .inl rfl

theorem returns {d : Definition} (exact : ∀ n ∈ d.nodes, n.config.Exact) {j : Json}
    (spells : Spells j d) : decode.Returns j d := by
  obtain ⟨js, each, rfl⟩ := spells
  have description := Decoder.string_returns d.description
  have nodes : (Decoder.list Node.decode).Returns (.array js) d.nodes := by
    apply Decoder.list_returns
    generalize d.nodes = nodes at each exact
    induction each with
    | nil => exact .nil
    | cons first rest ih =>
      obtain ⟨here, there⟩ := List.forall_mem_cons.mp exact
      exact .cons (Node.returns here first) (ih there)
  apply Decoder.returns_record rfl (by decide) (by decide)
  case each => simp [description.legible, nodes.legible]
  case decodes =>
    intro f holds
    rw [holds.orElse "description" rfl description, holds.required "nodes" rfl nodes]
    rfl

end Definition

theorem Version.returns (v : Version) : decode.Returns v.toJson v := by
  cases v with
  | latest => exact ⟨.string _, fun _ _ => by rfl⟩
  | exact n =>
    have number := Decoder.uint32_returns n
    constructor
    case legible => exact .object (by simp [number.legible])
    case reads =>
      intro room fits
      obtain ⟨room, rfl, inside⟩ := Json.room_of_object fits
      have read := number.reads room (inside _ (List.mem_singleton_self _))
      show (Decoder.uint32 room (.ofUInt32 n)).map Version.exact = some (.exact n)
      rw [read, Option.map_some]

theorem Reference.returns (r : Reference) : decode.Returns r.toJson r := by
  have name := Decoder.string_returns r.name
  have version := r.version.returns
  apply Decoder.returns_record rfl (by decide) (by decide)
  case each => simp [name.legible, version.legible]
  case decodes =>
    intro f holds
    rw [holds.required "name" rfl name, holds.orElse "version" rfl version]
    rfl

theorem Workflow.returns {w : Workflow} (exact : ∀ n ∈ w.nodes, n.config.Exact) :
    decode.Returns w.toJson w := by
  have id := Decoder.uuid_returns w.id
  have name := Decoder.string_returns w.name
  have version := Decoder.uint32_returns w.version
  have description := Decoder.string_returns w.description
  have nodes := Decoder.list_returns_map fun n member => Node.returns (exact n member) (.inl rfl)
  have createdAt := Decoder.timestamp_returns w.createdAt
  apply Decoder.returns_record rfl (by decide) (by decide)
  case each =>
    simp [id.legible, name.legible, version.legible, description.legible, nodes.legible, createdAt.legible]
  case decodes =>
    intro f holds
    rw [holds.required "id" rfl id, holds.required "name" rfl name,
      holds.required "version" rfl version, holds.required "description" rfl description,
      holds.required "nodes" rfl nodes, holds.required "created_at" rfl createdAt]
    rfl

end Orchestration
