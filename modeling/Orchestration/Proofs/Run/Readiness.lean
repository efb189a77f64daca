import Orchestration.Proofs.Run.Valid

namespace Orchestration

def Plan.DependsOn (p : Plan) (i d : Fin p.size) : Prop := (p.node d).id ∈ (p.node i).dependsOn

namespace Run

variable {p : Plan} {s : Run p}

structure Readiness (s : Run p) (i : Fin p.size) : Prop where
  skipped : (s.step i).status = .skipped ↔ ∃ d, p.DependsOn i d ∧ (s.step d).status = .failed
  pending : (s.step i).status = .pending ↔
    (∀ d, p.DependsOn i d → (s.step d).status ≠ .failed) ∧
      ∃ d, p.DependsOn i d ∧ ¬ (s.step d).status.isTerminal
  otherwise : (s.step i).status ≠ .skipped → (s.step i).status ≠ .pending →
    (∀ d, p.DependsOn i d → (s.step d).status = .succeeded ∨ (s.step d).status = .skipped) ∧
      ((s.step i).status.isOpen ∨ (s.step i).status = .succeeded ∨ (s.step i).status = .failed)

theorem Tracked.readiness (ordered : p.Ordered) (tracked : s.Tracked [] []) (i : Fin p.size) :
    s.Readiness i := by
  have depends (d) : p.DependsOn i d ↔ d ∈ p.dependencies i := (ordered.named i d).symm
  have skipped : (s.step i).status = .skipped ↔
      ∃ d, p.DependsOn i d ∧ (s.step d).status = .failed := by
    simp only [depends]
    constructor
    · exact tracked.skipped i
    · intro ⟨d, member, failed⟩
      simpa using tracked.failed i d member failed
  have waits : 0 < s.waiting.get i ↔
      ∃ d ∈ p.dependencies i, (s.step d).status.isSettled = false := by
    rw [tracked.waiting, List.count_nil, Nat.add_zero, unsettled_pos_iff]
  have open' (d) (failed : (s.step d).status ≠ .failed) :
      (s.step d).status.isSettled = false ↔ ¬ (s.step d).status.isTerminal := by
    cases status : (s.step d).status <;> simp_all [StepStatus.isSettled, StepStatus.isTerminal]
  have pending : (s.step i).status = .pending ↔
      (∀ d, p.DependsOn i d → (s.step d).status ≠ .failed) ∧
        ∃ d, p.DependsOn i d ∧ ¬ (s.step d).status.isTerminal := by
    simp only [depends]
    by_cases none : ∀ d ∈ p.dependencies i, (s.step d).status ≠ .failed
    · rw [tracked.pending i none, waits, and_iff_right none]
      refine exists_congr fun d => and_congr_right fun member => ?_
      exact open' d (none d member)
    -- With a failed dependency the step is skipped, so that it does not wait.
    · refine iff_of_false (fun waits => ?_) fun both => none both.1
      have failed : ∃ d, p.DependsOn i d ∧ (s.step d).status = .failed := by
        simpa [depends] using none
      rw [← skipped, waits] at failed
      cases failed
  refine ⟨skipped, pending, fun kept goes => ⟨?_, ?_⟩⟩
  · intro d member
    have failed : (s.step d).status ≠ .failed := fun failed => kept (skipped.mpr ⟨d, member, failed⟩)
    have ended : (s.step d).status.isTerminal := by
      by_contra waits
      refine goes (pending.mpr ⟨fun f member failed => ?_, d, member, waits⟩)
      exact kept (skipped.mpr ⟨f, member, failed⟩)
    cases status : (s.step d).status <;> simp_all [StepStatus.isTerminal]
  · cases status : (s.step i).status <;> simp_all [StepStatus.isOpen]

/-- After any events a run that goes on, or that tolerates failures and was not canceled, has treated
each step as its dependencies ask for. A run that fails at the first failure goes on only while no
step has failed or been skipped. -/
theorem readiness_after {w : Workflow} (built : Plan.ofWorkflow w = .ok p) {record : RunRecord}
    (fresh : record.Fresh) (stepId : Nat → Uuid) (events : List Event) :
    let s := (start p record stepId).after events
    (s.isActive ∨ record.policy = .tolerant ∧ ((start p record stepId).log events).canceled = false →
        ∀ i, s.Readiness i) ∧
      (s.isActive ∧ record.policy = .failFast →
        ∀ i, (s.step i).status ≠ .failed ∧ (s.step i).status ≠ .skipped) := by
  intro s
  have ordered := Plan.ordered built
  have valid := valid_after ordered fresh stepId events
  have policy : s.record.policy = record.policy :=
    (Valid.start ordered fresh stepId).after_policy ordered events
  constructor
  · intro live i
    rw [← policy] at live
    exact (valid.tracked live).readiness ordered i
  · intro ⟨active, failFast⟩
    exact valid.phase.clean active (policy.trans failFast)

theorem readiness_after_failure :
    ∃ events, (∀ i, ((pair .tolerant).after events).Readiness i) ∧
      (((pair .tolerant).after events).step (0 : Fin 2)).status = .failed ∧
      (((pair .tolerant).after events).step (1 : Fin 2)).status = .skipped := by
  refine ⟨[.grant (.ofNat 0) "worker" (.ofNat 2) .epoch default,
    .accept (.ofNat 0) (Report.failed (.ofNat 2) "no" 0).fatal .epoch default], ?_,
    by decide +kernel, by decide +kernel⟩
  exact (readiness_after Plan.pair_built (RunRecord.queued_fresh ..) .ofNat _).1
    (.inr (by decide +kernel))

end Run

end Orchestration
