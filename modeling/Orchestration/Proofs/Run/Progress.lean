import Orchestration.Proofs.Run.Readiness
import Orchestration.Proofs.Run.Sweep

namespace Orchestration

/-- Whether the event may move a step on: it asks for one, reports on one, or looks after all. -/
def Event.advances : Event → Bool
  | .grant .. | .accept .. | .sweep .. => true
  | .renew .. | .cancel .. => false

namespace Run

variable {p : Plan} {s : Run p} {i : Fin p.size}

theorem Tracked.exists_open (ordered : p.Ordered) (tracked : s.Tracked [] []) (i : Fin p.size)
    (waits : ¬ (s.step i).status.isTerminal) : ∃ j, (s.step j).status.isOpen := by
  obtain ⟨rank, ranked⟩ := ordered.ranked
  -- A pending step waits for one of lower rank that has not ended either.
  induction level : rank i using Nat.strongRecOn generalizing i with
  | ind n ih =>
    by_cases pending : (s.step i).status = .pending
    · obtain ⟨-, d, depends, waits⟩ := ((tracked.readiness ordered i).pending).mp pending
      have member := (ordered.named i d).mpr depends
      exact ih (rank d) (level ▸ ranked i d member) d waits rfl
    · refine ⟨i, ?_⟩
      cases status : (s.step i).status <;>
        simp_all [StepStatus.isOpen, StepStatus.isTerminal]

theorem Valid.exists_open (ordered : p.Ordered) {canceled : Bool} (valid : s.Valid canceled)
    (active : s.isActive) : ∃ i, (s.step i).status.isOpen := by
  obtain ⟨i, waits⟩ := (nextStatus?_of_active active).mp valid.settled
  exact (valid.tracked (.inl active)).exists_open ordered i waits

theorem sweep_moves_inFlight (sound : s.Sound) (settings : Scheduling)
    (flying : (s.step i).status.isInFlight) :
    ∃ now, ((s.sweep now settings).2.step i).status ≠ (s.step i).status := by
  have leased := (sound i).leased
  rw [flying, Option.isSome_iff_exists] at leased
  obtain ⟨l, leased⟩ := leased
  have expired : s.leaseExpired l.expiresAt i :=
    leaseExpired_iff.mpr ⟨flying, l, leased, Int.le_refl _⟩
  have grounded := sweep_expired settings expired
  refine ⟨l.expiresAt, fun same => ?_⟩
  rw [same] at grounded
  exact grounded flying

theorem sweep_moves_retrying (sound : s.Sound) (settings : Scheduling)
    (retrying : (s.step i).status = .retrying) :
    ∃ now, ((s.sweep now settings).2.step i).status ≠ (s.step i).status := by
  obtain ⟨wait, waits⟩ := Option.isSome_iff_exists.mp ((sound i).waits retrying)
  have due : s.retryDue wait i := retryDue_iff.mpr ⟨retrying, wait, waits, Int.le_refl _⟩
  exists wait
  rcases sweep_due settings due with ended | ended <;> simp [ended, retrying]

theorem grant_moves (sound : s.Sound) (found : s.indexOf? (s.step i).id = some i)
    (active : s.isActive) (ready : (s.step i).status = .ready) (worker : String) (leaseId : Uuid)
    (now : Timestamp) (settings : Scheduling) :
    ((s.handle (.grant (s.step i).id worker leaseId now settings)).2.step i).status ≠
      (s.step i).status := by
  obtain ⟨r, t, change, -, same, -⟩ :=
    grant_ready sound found active ready worker leaseId now settings
  have aside := Released.step_act_aside ⟨s, []⟩ i r t now i
  rw [step_replace_self] at aside
  rw [same, step_refresh, ready]
  cases change with
  | lease =>
    have flying := aside.flying rfl
    intro same
    rw [same] at flying
    cases flying
  | reject =>
    rw [aside.eq_of_terminal rfl]
    simp

theorem Valid.exists_move (ordered : p.Ordered) {canceled : Bool} (valid : s.Valid canceled)
    (distinct : ∀ i j, (s.step i).id = (s.step j).id → i = j) (goes : ¬ s.record.status.isTerminal) :
    ∃ i e, e.advances ∧ ((s.handle e).2.step i).status ≠ (s.step i).status := by
  by_cases active : s.isActive
  · obtain ⟨i, opened⟩ := valid.exists_open ordered active
    have found := indexOf?_self distinct i
    cases status : (s.step i).status with
    | ready =>
      refine ⟨i, .grant (s.step i).id "" .nil .epoch default, rfl, ?_⟩
      exact grant_moves valid.sound found active status _ _ _ _
    | retrying =>
      obtain ⟨now, moves⟩ := sweep_moves_retrying valid.sound default status
      exact ⟨i, .sweep now default, rfl, moves⟩
    | dispatched | running =>
      obtain ⟨now, moves⟩ := sweep_moves_inFlight valid.sound default (by rw [status]; rfl)
      exact ⟨i, .sweep now default, rfl, moves⟩
    | _ => rw [status] at opened; cases opened
  · have canceling : s.record.status = .canceling := by
      unfold isActive at active
      cases status : s.record.status <;> simp_all [RunStatus.isActive, RunStatus.isTerminal]
    obtain ⟨i, flying⟩ := (nextStatus?_of_canceling canceling).mp valid.settled
    obtain ⟨now, moves⟩ := sweep_moves_inFlight valid.sound default flying
    exact ⟨i, .sweep now default, rfl, moves⟩

/-- After any events a run that goes on has a step that can take its course, and one that is being
canceled has a step under way. If the ids of the steps differ, a run that has not ended has a step that
some further event moves. -/
theorem progress_after {w : Workflow} (built : Plan.ofWorkflow w = .ok p) {record : RunRecord}
    (fresh : record.Fresh) (stepId : Nat → Uuid) (events : List Event) :
    let s := (start p record stepId).after events
    (s.isActive → ∃ i, (s.step i).status.isOpen) ∧
      (s.record.status = .canceling → ∃ i, (s.step i).status.isInFlight) ∧
      ((∀ i j : Fin p.size, stepId i = stepId j → i = j) → ¬ s.record.status.isTerminal →
        ∃ i e, e.advances ∧ ((s.handle e).2.step i).status ≠ (s.step i).status) := by
  intro s
  have ordered := Plan.ordered built
  have valid := valid_after ordered fresh stepId events
  refine ⟨valid.exists_open ordered, fun canceling => ?_, fun distinct goes => ?_⟩
  · exact (nextStatus?_of_canceling canceling).mp valid.settled
  · exact valid.exists_move ordered (ids_distinct ordered fresh stepId distinct events) goes

theorem progress_after_lease :
    ∃ events, (∃ i, (((pair .failFast).after events).step i).status.isOpen) ∧
      ¬ ((pair .failFast).after events).record.status.isTerminal ∧
      ∃ i e, e.advances ∧ ((((pair .failFast).after events).handle e).2.step i).status ≠
        (((pair .failFast).after events).step i).status := by
  have fresh := RunRecord.queued_fresh .nil Workflow.pair.reference .failFast .epoch none [] .null
  have progress := progress_after Plan.pair_built fresh .ofNat
    [.grant (.ofNat 0) "worker" (.ofNat 2) .epoch default]
  exact ⟨_, progress.1 (by decide +kernel), by decide +kernel,
    progress.2.2 (by decide +kernel) (by decide +kernel)⟩

end Run

end Orchestration
