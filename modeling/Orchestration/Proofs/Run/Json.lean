import Orchestration.Run.Json
import Orchestration.Proofs.Run.Shape
import Orchestration.Proofs.Workflow.Json

namespace Orchestration

theorem RunStatus.returns (s : RunStatus) : decode.Returns s.toJson s :=
  ⟨.string _, fun _ _ => by cases s <;> rfl⟩

theorem StepStatus.returns (s : StepStatus) : decode.Returns s.toJson s :=
  ⟨.string _, fun _ _ => by cases s <;> rfl⟩

theorem FailurePolicy.returns (p : FailurePolicy) : decode.Returns p.toJson p :=
  ⟨.string _, fun _ _ => by cases p <;> rfl⟩

theorem Decoder.optional_strings_returns (o : Option String) :
    (nullable string).Returns (.ofOption .string o) o :=
  nullable_returns string_returns (fun _ same => nomatch same) o

theorem Decoder.optional_timestamps_returns (o : Option Timestamp) :
    (nullable timestamp).Returns (.ofOption .ofTimestamp o) o :=
  nullable_returns timestamp_returns (fun _ same => nomatch same) o

theorem Decoder.optional_cents_returns (o : Option Cents) :
    (nullable cents).Returns (.ofOption .ofCents o) o :=
  nullable_returns cents_returns (fun _ same => nomatch same) o

theorem Lease.returns (l : Lease) : decode.Returns l.toJson l := by
  have id := Decoder.uuid_returns l.id
  have worker := Decoder.string_returns l.worker
  have expiresAt := Decoder.timestamp_returns l.expiresAt
  have abandoned := Decoder.bool_returns l.abandoned
  apply Decoder.returns_record rfl (by decide) (by decide)
  case each => simp [id.legible, worker.legible, expiresAt.legible, abandoned.legible]
  case decodes =>
    intro f holds
    rw [holds.required "id" rfl id, holds.required "worker_id" rfl worker,
      holds.required "expires_at" rfl expiresAt, holds.required "abandoned" rfl abandoned]
    rfl

/-- What an optional value is read as: null stands for none. -/
def Json.present? : Json → Option Json
  | .null => none
  | j => some j

instance (o : Option Json) : Decidable (o = some .null) :=
  match o with
  | some .null => isTrue rfl
  | none | some (.bool _) | some (.int _) | some (.number _) | some (.string _) | some (.array _)
  | some (.object _) | some .unreadable => isFalse nofun

theorem Decoder.output_returns {o : Option Json} (exact : ∀ j ∈ o, j.Exact) :
    (nullable json).Returns (o.getD .null) (o.bind Json.present?) := by
  cases o with
  | none => exact ⟨.null, fun _ _ => rfl⟩
  | some j =>
    have value := json_returns (exact j rfl)
    refine ⟨value.legible, fun room fits => ?_⟩
    have read := value.reads room fits
    show nullable json room j = some (Json.present? j)
    unfold Json.present?
    split
    · rfl
    · rename_i present
      rw [nullable_of_ne_null present, read, Option.map_some]

namespace Step

/-- The step without an output that is null. -/
def withoutNull (s : Step) : Step := { s with output := s.output.bind Json.present? }

def withNull (s : Step) : Step :=
  { s with output := if s.status = .succeeded then some (s.output.getD .null) else s.output }

theorem withoutNull_eq_iff (s : Step) : s.withoutNull = s ↔ s.output ≠ some .null := by
  have output : s.withoutNull = s ↔ s.output.bind Json.present? = s.output := by
    constructor
    · exact congrArg Step.output
    · intro same
      unfold withoutNull
      rw [same]
  rw [output]
  cases s.output with
  | none => simp
  | some j => cases j <;> simp [Json.present?]

theorem withNull_withoutNull {s : Step} (shaped : s.Shaped) : s.withoutNull.withNull = s := by
  have has := shaped.output
  have output : (if s.status = .succeeded then some ((s.output.bind Json.present?).getD .null)
      else s.output.bind Json.present?) = s.output := by
    by_cases succeeded : s.status = .succeeded
    · obtain ⟨j, some⟩ := Option.isSome_iff_exists.mp (has.mpr succeeded)
      rw [if_pos succeeded, some]
      cases j <;> rfl
    · have none := has.not.mpr succeeded
      rw [Option.not_isSome_iff_eq_none] at none
      rw [if_neg succeeded, none]
      rfl
  show { s with output := if s.status = .succeeded then some ((s.output.bind Json.present?).getD .null)
    else s.output.bind Json.present? } = s
  rw [output]

theorem returns {s : Step} (input : s.input.Exact) (output : ∀ j ∈ s.output, j.Exact) :
    decode.Returns s.toJson s.withoutNull := by
  have id := Decoder.uuid_returns s.id
  have runId := Decoder.uuid_returns s.runId
  have nodeId := Decoder.string_returns s.nodeId
  have status := s.status.returns
  have attempt := Decoder.uint32_returns s.attempt
  have lease := Decoder.nullable_returns Lease.returns (fun _ same => nomatch same) s.lease
  have input := Decoder.json_returns input
  have output := Decoder.output_returns output
  have cost := Decoder.cents_returns s.cost
  have error := Decoder.optional_strings_returns s.error
  have startedAt := Decoder.optional_timestamps_returns s.startedAt
  have endedAt := Decoder.optional_timestamps_returns s.endedAt
  have retryAt := Decoder.optional_timestamps_returns s.retryAt
  apply Decoder.returns_record rfl (by decide) (by decide)
  case each =>
    simp [id.legible, runId.legible, nodeId.legible, status.legible, attempt.legible, lease.legible, input.legible,
      output.legible, cost.legible, error.legible, startedAt.legible, endedAt.legible, retryAt.legible]
  case decodes =>
    intro f holds
    rw [holds.required "id" rfl id, holds.required "run_id" rfl runId,
      holds.required "node_id" rfl nodeId, holds.required "status" rfl status,
      holds.required "attempt_count" rfl attempt, holds.optional "lease" rfl lease,
      holds.required "input" rfl input, holds.optional "output" rfl output,
      holds.required "cost_cents" rfl cost, holds.optional "error" rfl error,
      holds.optional "started_at" rfl startedAt, holds.optional "ended_at" rfl endedAt,
      holds.optional "retry_at" rfl retryAt]
    rfl

end Step

theorem RunRecord.returns {r : RunRecord} (input : r.input.Exact) : decode.Returns r.toJson r := by
  have id := Decoder.uuid_returns r.id
  have workflow := r.workflow.returns
  have status := r.status.returns
  have budget := Decoder.optional_cents_returns r.budget
  have cost := Decoder.cents_returns r.cost
  have tags := Decoder.strings_returns r.tags
  have input := Decoder.json_returns input
  have policy := r.policy.returns
  have error := Decoder.optional_strings_returns r.error
  have createdAt := Decoder.timestamp_returns r.createdAt
  have startedAt := Decoder.optional_timestamps_returns r.startedAt
  have endedAt := Decoder.optional_timestamps_returns r.endedAt
  apply Decoder.returns_record rfl (by decide) (by decide)
  case each =>
    simp [id.legible, workflow.legible, status.legible, budget.legible, cost.legible, tags.legible, input.legible,
      policy.legible, error.legible, createdAt.legible, startedAt.legible, endedAt.legible]
  case decodes =>
    intro f holds
    rw [holds.required "id" rfl id, holds.required "spec_ref" rfl workflow,
      holds.required "status" rfl status, holds.optional "budget_cents" rfl budget,
      holds.required "accumulated_cost_cents" rfl cost, holds.required "tags" rfl tags,
      holds.required "input" rfl input, holds.required "policy" rfl policy,
      holds.optional "error" rfl error, holds.required "created_at" rfl createdAt,
      holds.optional "started_at" rfl startedAt, holds.optional "ended_at" rfl endedAt]
    rfl

theorem Run.inputFor_exact {p : Plan} {s : Run p} (run : s.record.input.Exact)
    (outputs : ∀ d, ∀ j ∈ (s.step d).output, j.Exact) (i : Fin p.size) : (s.inputFor i).Exact := by
  unfold inputFor
  apply Json.exact_ofMembers
  rw [List.forall_mem_cons, List.forall_mem_singleton]
  refine ⟨run, Json.exact_ofMembers fun m member => ?_⟩
  obtain ⟨d, -, rfl⟩ := List.mem_map.mp member
  cases output : (s.step d).output with
  | none => exact .null
  | some j => exact outputs d j output

namespace RunView

structure Exact (v : RunView) : Prop where
  run : v.run.input.Exact
  input : ∀ s ∈ v.steps, s.input.Exact
  output : ∀ s ∈ v.steps, ∀ j ∈ s.output, j.Exact

def withoutNull (v : RunView) : RunView := { v with steps := v.steps.map Step.withoutNull }

def withNull (v : RunView) : RunView := { v with steps := v.steps.map Step.withNull }

theorem returns {v : RunView} (exact : v.Exact) : decode.Returns v.toJson v.withoutNull := by
  have run := RunRecord.returns exact.run
  have steps : (Decoder.list Step.decode).Returns (.array (v.steps.map Step.toJson))
      (v.steps.map Step.withoutNull) := by
    apply Decoder.list_returns
    rw [List.forall₂_map_left_iff, List.forall₂_map_right_iff]
    exact List.forall₂_same.mpr fun s member =>
      Step.returns (exact.input s member) (exact.output s member)
  apply Decoder.returns_record rfl (by decide) (by decide)
  case each => simp [run.legible, steps.legible]
  case decodes =>
    intro f holds
    rw [holds.required "run" rfl run, holds.required "steps" rfl steps]
    rfl

theorem withoutNull_eq_iff (v : RunView) :
    v.withoutNull = v ↔ ∀ s ∈ v.steps, s.output ≠ some .null := by
  have steps : v.withoutNull = v ↔ v.steps.map Step.withoutNull = v.steps := by
    constructor
    · exact congrArg RunView.steps
    · intro same
      unfold withoutNull
      rw [same]
  have each := List.map_inj_left (l := v.steps) (f := Step.withoutNull) (g := id)
  rw [List.map_id] at each
  rw [steps, each]
  exact forall₂_congr fun s _ => s.withoutNull_eq_iff

/-- After any events a view is decoded from its text as it is but for outputs that are null, which are
absent then. The steps with an output are those that succeeded, so that it can be had back. -/
theorem recovers_after {w : Workflow} {p : Plan} (built : Plan.ofWorkflow w = .ok p)
    {record : RunRecord} (fresh : record.Fresh) (stepId : Nat → Uuid) (events : List Event) :
    let v := ((Run.start p record stepId).after events).view
    (v.Exact → v.toJson.depth ≤ Json.textDepth → decode.Recovers v.toJson v.withoutNull) ∧
      (v.withoutNull = v ↔ ∀ s ∈ v.steps, s.output ≠ some .null) ∧
      (∀ s ∈ v.steps, s.output.isSome ↔ s.status = .succeeded) ∧ v.withoutNull.withNull = v := by
  intro v
  have ordered := Plan.ordered built
  have shaped : ((Run.start p record stepId).after events).Shaped :=
    (Run.Shaped.start fresh stepId).after ordered (.start ordered fresh stepId) events
  have steps : ∀ s ∈ v.steps, s.Shaped := by
    intro s member
    have listed : s ∈ ((Run.start p record stepId).after events).steps.toList := member
    rw [Run.steps_eq_map, List.mem_map] at listed
    obtain ⟨i, -, rfl⟩ := listed
    exact shaped.steps i
  have restored : v.withoutNull.withNull = v := by
    have each := List.map_inj_left (l := v.steps) (f := Step.withNull ∘ Step.withoutNull) (g := id)
    rw [List.map_id] at each
    unfold withoutNull withNull
    rw [List.map_map, each.mpr fun s member => Step.withNull_withoutNull (steps s member)]
  exact ⟨fun exact fits => (returns exact).recovers fits, v.withoutNull_eq_iff,
    fun s member => (steps s member).output, restored⟩

/-- The answer of a first step is had back. -/
theorem recovers_after_answer :
    let events : List Event :=
      [.grant (.ofNat 0) "worker" (.ofNat 2) .epoch default,
        .accept (.ofNat 0) (Report.succeeded (.ofNat 2) (.string "answer") 0) .epoch default]
    let v := ((Run.pair .failFast).after events).view
    decode.Recovers v.toJson v := by
  intro events v
  have fresh : (RunRecord.queued .nil Workflow.pair.reference .failFast .epoch).Fresh :=
    RunRecord.queued_fresh .nil Workflow.pair.reference .failFast .epoch none [] .null
  obtain ⟨recovers, same, -⟩ := recovers_after Plan.pair_built fresh .ofNat events
  have exact : v.Exact := ⟨by decide +kernel, by decide +kernel, by decide +kernel⟩
  have fits : v.toJson.depth ≤ Json.textDepth := by decide +kernel
  have read := recovers exact fits
  rw [same.mpr (by decide +kernel)] at read
  exact read

/-- A first step that succeeds without an output has one that is null, and it is lost. -/
theorem not_all_recover :
    ¬ ∀ {w : Workflow} {p : Plan}, Plan.ofWorkflow w = .ok p → ∀ {record : RunRecord}, record.Fresh →
      ∀ (stepId : Nat → Uuid) (events : List Event),
        let v := ((Run.start p record stepId).after events).view
        v.Exact → v.toJson.depth ≤ Json.textDepth → decode.ofText? v.toJson.text = some v := by
  intro all
  have fresh : (RunRecord.queued .nil Workflow.pair.reference .failFast .epoch).Fresh :=
    RunRecord.queued_fresh .nil Workflow.pair.reference .failFast .epoch none [] .null
  let events : List Event :=
    [.grant (.ofNat 0) "worker" (.ofNat 2) .epoch default,
      .accept (.ofNat 0) ⟨.ofNat 2, .succeeded, none, 0, none, true⟩ .epoch default]
  let v := ((Run.pair .failFast).after events).view
  have exact : v.Exact := ⟨by decide +kernel, by decide +kernel, by decide +kernel⟩
  have fits : v.toJson.depth ≤ Json.textDepth := by decide +kernel
  have same : decode.ofText? v.toJson.text = some v :=
    all Plan.pair_built fresh .ofNat events exact fits
  have read : decode.ofText? v.toJson.text = some v.withoutNull := ((returns exact).recovers fits).1
  have lost : v.withoutNull = v := Option.some.inj (read.symm.trans same)
  have null : ¬ ∀ s ∈ v.steps, s.output ≠ some .null := by decide +kernel
  exact null (v.withoutNull_eq_iff.mp lost)

end RunView

end Orchestration
