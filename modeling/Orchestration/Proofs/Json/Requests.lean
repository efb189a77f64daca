import Orchestration.Submission.Json
import Orchestration.Settings.Json
import Orchestration.Proofs.Run.Json
import Orchestration.Proofs.Workflow.Dependencies

namespace Orchestration

theorem Submission.returns {s : Submission} (input : s.input.Exact) : decode.Returns s.toJson s := by
  have workflow := s.workflow.returns
  have budget := Decoder.optional_cents_returns s.budget
  have tags := Decoder.strings_returns s.tags
  have input := Decoder.json_returns input
  have policy := Decoder.nullable_returns FailurePolicy.returns (fun _ same => nomatch same) s.policy
  apply Decoder.returns_record rfl (by decide) (by decide)
  case each => simp [workflow.legible, budget.legible, tags.legible, input.legible, policy.legible]
  case decodes =>
    intro f holds
    rw [holds.required "spec" rfl workflow, holds.optional "budget_cents" rfl budget,
      holds.orElse "tags" rfl tags, holds.orElse "input" rfl input,
      holds.optional "policy" rfl policy]
    rfl

theorem RunFilter.returns (f : RunFilter) : decode.Returns f.toJson f := by
  have status := Decoder.nullable_returns RunStatus.returns (fun _ same => nomatch same) f.status
  have name := Decoder.optional_strings_returns f.name
  have tag := Decoder.optional_strings_returns f.tag
  apply Decoder.returns_record rfl (by decide) (by decide)
  case each => simp [status.legible, name.legible, tag.legible]
  case decodes =>
    intro f holds
    rw [holds.optional "status" rfl status, holds.optional "spec_name" rfl name,
      holds.optional "tag" rfl tag]
    rfl

theorem Json.depth_ofOption {α : Type} {f : α → Json} (flat : ∀ a, (f a).depth = 0) (o : Option α) :
    (ofOption f o).depth = 0 := by
  cases o with
  | none => rfl
  | some a => exact flat a

theorem RunFilter.depth_toJson (f : RunFilter) : f.toJson.depth = 1 := by
  have status := Json.depth_ofOption (f := RunStatus.toJson) (fun _ => rfl) f.status
  have name := Json.depth_ofOption (f := .string) (fun _ => rfl) f.name
  have tag := Json.depth_ofOption (f := .string) (fun _ => rfl) f.tag
  simp [toJson, Json.depth, Json.membersDepth, status, name, tag]

theorem Scheduling.returns (c : Scheduling) : decode.Returns c.toJson c := by
  have leaseTtlSecs := Decoder.uint64_returns c.leaseTtlSecs
  have sweepIntervalMs := Decoder.uint64_returns c.sweepIntervalMs
  have retryBaseDelayMs := Decoder.uint64_returns c.retryBaseDelayMs
  have retryMaxDelayMs := Decoder.uint64_returns c.retryMaxDelayMs
  have failurePolicy := c.failurePolicy.returns
  apply Decoder.returns_record rfl (by decide) (by decide)
  case each =>
    simp [leaseTtlSecs.legible, sweepIntervalMs.legible, retryBaseDelayMs.legible, retryMaxDelayMs.legible,
      failurePolicy.legible]
  case decodes =>
    intro f holds
    dsimp only
    rw [holds.orElse "default_lease_ttl_secs" rfl leaseTtlSecs,
      holds.orElse "sweep_interval_ms" rfl sweepIntervalMs,
      holds.orElse "retry_base_delay_ms" rfl retryBaseDelayMs,
      holds.orElse "retry_max_delay_ms" rfl retryMaxDelayMs,
      holds.orElse "default_failure_policy" rfl failurePolicy]
    rfl

theorem Pool.returns (p : Pool) : decode.Returns p.toJson p := by
  have pollIntervalMs := Decoder.uint64_returns p.pollIntervalMs
  have heartbeatIntervalMs := Decoder.uint64_returns p.heartbeatIntervalMs
  have workers := Decoder.uint64_returns p.workers
  apply Decoder.returns_record rfl (by decide) (by decide)
  case each => simp [pollIntervalMs.legible, heartbeatIntervalMs.legible, workers.legible]
  case decodes =>
    intro f holds
    dsimp only
    rw [holds.orElse "poll_interval_ms" rfl pollIntervalMs,
      holds.orElse "heartbeat_interval_ms" rfl heartbeatIntervalMs,
      holds.orElse "workers" rfl workers]
    rfl

namespace Json

/-- What is written as JSON is read as it was, as long as it does not nest too deep. Each node of a
definition may have either name for what it depends on. -/
theorem requests_recover :
    (∀ d : Definition, (∀ n ∈ d.nodes, n.config.Exact) →
      Definition.Spells d.toJson d ∧
        ∀ j, Definition.Spells j d → j.depth ≤ textDepth → Definition.decode.Recovers j d) ∧
      (∀ w : Workflow, (∀ n ∈ w.nodes, n.config.Exact) → w.toJson.depth ≤ textDepth →
        Workflow.decode.Recovers w.toJson w) ∧
      (∀ s : Submission, s.input.Exact → s.toJson.depth ≤ textDepth →
        Submission.decode.Recovers s.toJson s) ∧
      (∀ f : RunFilter, RunFilter.decode.Recovers f.toJson f) ∧
      (∀ c : Scheduling, Scheduling.decode.Recovers c.toJson c) ∧
      ∀ p : Pool, Pool.decode.Recovers p.toJson p := by
  refine ⟨fun d exact => ⟨d.spells_toJson, fun j spells fits => ?_⟩, fun w exact fits => ?_,
    fun s exact fits => ?_, fun f => ?_, fun c => ?_, fun p => ?_⟩
  · exact (Definition.returns exact spells).recovers fits
  · exact (Workflow.returns exact).recovers fits
  · exact (Submission.returns exact).recovers fits
  · have flat : f.toJson.depth ≤ textDepth := by
      rw [f.depth_toJson]
      decide
    exact f.returns.recovers flat
  · have flat : c.toJson.depth ≤ textDepth := by
      rw [show c.toJson.depth = 1 from rfl]
      decide
    exact c.returns.recovers flat
  · have flat : p.toJson.depth ≤ textDepth := by
      rw [show p.toJson.depth = 1 from rfl]
      decide
    exact p.returns.recovers flat

/-- The second node names what it depends on in the other way. -/
theorem pair_recovers :
    let nodes := Workflow.pair.nodes
    let forms := nodes.map fun n =>
      if n.id = "b" then n.toJson.renameKey "depends_on" "dependsOn" else n.toJson
    Definition.decode.Recovers (.object [("description", .string ""), ("nodes", .array forms)])
        (.ofNodes nodes) ∧
      Workflow.decode.Recovers Workflow.pair.toJson .pair := by
  intro nodes forms
  have exact : ∀ n ∈ nodes, n.config.Exact := by decide
  obtain ⟨definitions, workflows, -⟩ := requests_recover
  have spells : Definition.Spells (.object [("description", .string ""), ("nodes", .array forms)])
      (.ofNodes nodes) := ⟨forms, .cons (.inl rfl) (.cons (.inr rfl) .nil), rfl⟩
  exact ⟨(definitions (.ofNodes nodes) exact).2 _ spells (by decide),
    workflows .pair exact (by decide)⟩

end Json

end Orchestration
