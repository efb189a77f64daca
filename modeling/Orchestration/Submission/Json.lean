import Orchestration.Run.Json
import Orchestration.Submission

namespace Orchestration

namespace Submission

def schema : List Field :=
  [⟨"spec", [], false⟩, ⟨"budget_cents", [], true⟩, ⟨"tags", [], true⟩, ⟨"input", [], true⟩,
    ⟨"policy", [], true⟩]

def toJson (s : Submission) : Json :=
  .object [
    ("spec", s.workflow.toJson),
    ("budget_cents", .ofOption .ofCents s.budget),
    ("tags", .ofStrings s.tags),
    ("input", s.input),
    ("policy", .ofOption FailurePolicy.toJson s.policy)]

def decode : Decoder Submission := fun room j => do
  let f ← Fields.read schema room j
  let workflow ← f.required "spec" Reference.decode
  let budget ← f.optional "budget_cents" .cents
  let tags ← f.orElse "tags" (.list .string) []
  let input ← f.orElse "input" .json .null
  let policy ← f.optional "policy" FailurePolicy.decode
  some ⟨workflow, budget, tags, input, policy⟩

end Submission

namespace RunFilter

def schema : List Field :=
  [⟨"status", [], true⟩, ⟨"spec_name", [], true⟩, ⟨"tag", [], true⟩]

def toJson (f : RunFilter) : Json :=
  .object [
    ("status", .ofOption RunStatus.toJson f.status),
    ("spec_name", .ofOption .string f.name),
    ("tag", .ofOption .string f.tag)]

def decode : Decoder RunFilter := fun room j => do
  let f ← Fields.read schema room j
  let status ← f.optional "status" RunStatus.decode
  let name ← f.optional "spec_name" .string
  let tag ← f.optional "tag" .string
  some ⟨status, name, tag⟩

end RunFilter

end Orchestration
