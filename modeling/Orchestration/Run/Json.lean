import Orchestration.Run.Record
import Orchestration.Workflow.Json

namespace Orchestration

namespace RunStatus

def toJson (s : RunStatus) : Json := .string s.name

def decode : Decoder RunStatus := .named all name

end RunStatus

namespace StepStatus

def toJson (s : StepStatus) : Json := .string s.name

def decode : Decoder StepStatus := .named all name

end StepStatus

namespace FailurePolicy

def toJson (p : FailurePolicy) : Json := .string p.name

def decode : Decoder FailurePolicy := .named all name

end FailurePolicy

namespace Lease

def schema : List Field :=
  [⟨"id", [], false⟩, ⟨"worker_id", [], false⟩, ⟨"expires_at", [], false⟩,
    ⟨"abandoned", [], false⟩]

def toJson (l : Lease) : Json :=
  .object [
    ("id", .ofUuid l.id),
    ("worker_id", .string l.worker),
    ("expires_at", .ofTimestamp l.expiresAt),
    ("abandoned", .bool l.abandoned)]

def decode : Decoder Lease := fun room j => do
  let f ← Fields.read schema room j
  let id ← f.required "id" .uuid
  let worker ← f.required "worker_id" .string
  let expiresAt ← f.required "expires_at" .timestamp
  let abandoned ← f.required "abandoned" .bool
  some ⟨id, worker, expiresAt, abandoned⟩

end Lease

namespace Step

def schema : List Field :=
  [⟨"id", [], false⟩, ⟨"run_id", [], false⟩, ⟨"node_id", [], false⟩, ⟨"status", [], false⟩,
    ⟨"attempt_count", [], false⟩, ⟨"lease", [], false⟩, ⟨"input", [], false⟩,
    ⟨"output", [], false⟩, ⟨"cost_cents", [], false⟩, ⟨"error", [], false⟩,
    ⟨"started_at", [], false⟩, ⟨"ended_at", [], false⟩, ⟨"retry_at", [], false⟩]

def toJson (s : Step) : Json :=
  .object [
    ("id", .ofUuid s.id),
    ("run_id", .ofUuid s.runId),
    ("node_id", .string s.nodeId),
    ("status", s.status.toJson),
    ("attempt_count", .ofUInt32 s.attempt),
    ("lease", .ofOption Lease.toJson s.lease),
    ("input", s.input),
    ("output", s.output.getD .null),
    ("cost_cents", .ofCents s.cost),
    ("error", .ofOption .string s.error),
    ("started_at", .ofOption .ofTimestamp s.startedAt),
    ("ended_at", .ofOption .ofTimestamp s.endedAt),
    ("retry_at", .ofOption .ofTimestamp s.retryAt)]

def decode : Decoder Step := fun room j => do
  let f ← Fields.read schema room j
  let id ← f.required "id" .uuid
  let runId ← f.required "run_id" .uuid
  let nodeId ← f.required "node_id" .string
  let status ← f.required "status" StepStatus.decode
  let attempt ← f.required "attempt_count" .uint32
  let lease ← f.optional "lease" Lease.decode
  let input ← f.required "input" .json
  let output ← f.optional "output" .json
  let cost ← f.required "cost_cents" .cents
  let error ← f.optional "error" .string
  let startedAt ← f.optional "started_at" .timestamp
  let endedAt ← f.optional "ended_at" .timestamp
  let retryAt ← f.optional "retry_at" .timestamp
  some ⟨id, runId, nodeId, status, attempt, lease, input, output, cost, error, startedAt, endedAt,
    retryAt⟩

end Step

namespace RunRecord

def schema : List Field :=
  [⟨"id", [], false⟩, ⟨"spec_ref", [], false⟩, ⟨"status", [], false⟩,
    ⟨"budget_cents", [], false⟩, ⟨"accumulated_cost_cents", [], false⟩, ⟨"tags", [], false⟩,
    ⟨"input", [], false⟩, ⟨"policy", [], false⟩, ⟨"error", [], false⟩,
    ⟨"created_at", [], false⟩, ⟨"started_at", [], false⟩, ⟨"ended_at", [], false⟩]

def toJson (r : RunRecord) : Json :=
  .object [
    ("id", .ofUuid r.id),
    ("spec_ref", r.workflow.toJson),
    ("status", r.status.toJson),
    ("budget_cents", .ofOption .ofCents r.budget),
    ("accumulated_cost_cents", .ofCents r.cost),
    ("tags", .ofStrings r.tags),
    ("input", r.input),
    ("policy", r.policy.toJson),
    ("error", .ofOption .string r.error),
    ("created_at", .ofTimestamp r.createdAt),
    ("started_at", .ofOption .ofTimestamp r.startedAt),
    ("ended_at", .ofOption .ofTimestamp r.endedAt)]

def decode : Decoder RunRecord := fun room j => do
  let f ← Fields.read schema room j
  let id ← f.required "id" .uuid
  let workflow ← f.required "spec_ref" Reference.decode
  let status ← f.required "status" RunStatus.decode
  let budget ← f.optional "budget_cents" .cents
  let cost ← f.required "accumulated_cost_cents" .cents
  let tags ← f.required "tags" (.list .string)
  let input ← f.required "input" .json
  let policy ← f.required "policy" FailurePolicy.decode
  let error ← f.optional "error" .string
  let createdAt ← f.required "created_at" .timestamp
  let startedAt ← f.optional "started_at" .timestamp
  let endedAt ← f.optional "ended_at" .timestamp
  some ⟨id, workflow, status, budget, cost, tags, input, policy, error, createdAt, startedAt,
    endedAt⟩

end RunRecord

namespace RunView

def schema : List Field := [⟨"run", [], false⟩, ⟨"steps", [], false⟩]

def toJson (v : RunView) : Json :=
  .object [("run", v.run.toJson), ("steps", .array (v.steps.map Step.toJson))]

def decode : Decoder RunView := fun room j => do
  let f ← Fields.read schema room j
  let run ← f.required "run" RunRecord.decode
  let steps ← f.required "steps" (.list Step.decode)
  some ⟨run, steps⟩

end RunView

namespace Assignment

def schema : List Field :=
  [⟨"step", [], false⟩, ⟨"lease", [], false⟩, ⟨"kind", [], false⟩, ⟨"config", [], false⟩]

def toJson (a : Assignment) : Json :=
  .object [
    ("step", a.step.toJson),
    ("lease", a.lease.toJson),
    ("kind", a.kind.toJson),
    ("config", a.config)]

def decode : Decoder Assignment := fun room j => do
  let f ← Fields.read schema room j
  let step ← f.required "step" Step.decode
  let lease ← f.required "lease" Lease.decode
  let kind ← f.required "kind" Kind.decode
  let config ← f.required "config" .json
  some ⟨step, lease, kind, config⟩

end Assignment

namespace Verdict

def toJson (v : Verdict) : Json := .string v.name

def decode : Decoder Verdict := .named all name

end Verdict

namespace Report

def schema : List Field :=
  [⟨"lease_id", [], false⟩, ⟨"status", [], false⟩, ⟨"output", [], true⟩,
    ⟨"actual_cost_cents", [], true⟩, ⟨"error", [], true⟩, ⟨"retryable", [], true⟩]

def toJson (r : Report) : Json :=
  .object [
    ("lease_id", .ofUuid r.lease),
    ("status", r.verdict.toJson),
    ("output", r.output.getD .null),
    ("actual_cost_cents", .ofCents r.cost),
    ("error", .ofOption .string r.error),
    ("retryable", .bool r.retryable)]

def decode : Decoder Report := fun room j => do
  let f ← Fields.read schema room j
  let lease ← f.required "lease_id" .uuid
  let verdict ← f.required "status" Verdict.decode
  let output ← f.optional "output" .json
  let cost ← f.orElse "actual_cost_cents" .cents 0
  let error ← f.optional "error" .string
  let retryable ← f.orElse "retryable" .bool true
  some ⟨lease, verdict, output, cost, error, retryable⟩

end Report

end Orchestration
