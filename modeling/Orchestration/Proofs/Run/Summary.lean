import Orchestration.Proofs.Run.Valid

namespace Orchestration

namespace RunStatus

def ofActive (steps : List Step) : RunStatus :=
  if steps.all (·.startedAt.isNone) then .queued else .running

def ofSteps (canceled : Bool) (policy : FailurePolicy) (steps : List Step) : RunStatus :=
  if canceled then if steps.any (·.status.isInFlight) then .canceling else .canceled
  else match policy with
    | .failFast =>
      if steps.any (·.status = .failed) then .failed
      else if steps.all (·.status = .succeeded) then .succeeded
      else ofActive steps
    | .tolerant =>
      if steps.any (!·.status.isTerminal) then ofActive steps
      else if steps.all (·.status = .succeeded) then .succeeded
      else if steps.any (·.status = .succeeded) then .partialSuccess
      else .failed

end RunStatus

variable {p : Plan}

namespace Run

variable {canceled : Bool} {s : Run p}

theorem status_of_active (active : s.isActive)
    (queued : s.record.status = .queued ↔ ∀ i, (s.step i).startedAt = none) :
    s.record.status = RunStatus.ofActive s.steps.toList := by
  have none : s.steps.toList.all (·.startedAt.isNone) ↔ ∀ i, (s.step i).startedAt = none := by
    rw [List.all_eq_true, forall_steps]
    simp only [Option.isNone_iff_eq_none]
  unfold RunStatus.ofActive
  split
  · rename_i idle
    exact queued.mpr (none.mp idle)
  · rename_i started
    have := mt (queued.mp ·) (mt none.mpr started)
    unfold isActive at active
    cases status : s.record.status <;> simp_all [RunStatus.isActive]

theorem any_waits_iff :
    s.steps.toList.any (!·.status.isTerminal) ↔ ∃ i, ¬ (s.step i).status.isTerminal := by
  rw [List.any_eq_true, exists_steps]
  simp only [Bool.not_eq_eq_eq_not, Bool.not_true, Bool.not_eq_true]

theorem Valid.status_eq (valid : s.Valid canceled) :
    s.record.status = RunStatus.ofSteps canceled s.record.policy s.steps.toList := by
  unfold RunStatus.ofSteps
  cases valid.phase with
  | active kept active queued clean =>
    subst kept
    have waits := (nextStatus?_of_active active).mp valid.settled
    rw [if_neg (by simp), status_of_active active queued]
    cases policy : s.record.policy with
    | failFast =>
      dsimp only
      rw [if_neg, if_neg]
      · rw [all_status_iff]
        intro all
        obtain ⟨i, waits⟩ := waits
        rw [all i] at waits
        exact waits rfl
      · rw [any_status_iff]
        intro ⟨i, failed⟩
        exact (clean policy i).1 failed
    | tolerant =>
      dsimp only
      rw [if_pos (any_waits_iff.mpr waits)]
  | canceling heeded status =>
    have flying := (nextStatus?_of_canceling status).mp valid.settled
    rw [if_pos heeded, if_pos (any_inFlight_iff.mpr flying), status]
  | canceled heeded status finished =>
    rw [if_pos heeded, if_neg, status]
    rw [any_inFlight_iff]
    intro ⟨i, flying⟩
    exact StepStatus.not_isTerminal_of_isInFlight flying (finished i)
  | broken kept status policy i failed =>
    subst kept
    rw [if_neg (by simp), policy, status]
    dsimp only
    rw [if_pos (any_status_iff.mpr ⟨i, failed⟩)]
  | ended kept status finished clean =>
    subst kept
    rw [if_neg (by simp), status]
    cases policy : s.record.policy with
    | failFast =>
      have all := clean policy
      dsimp only [endStatus]
      rw [if_pos (all_status_iff.mpr all), if_neg, if_pos (all_status_iff.mpr all)]
      rw [any_status_iff]
      intro ⟨i, failed⟩
      rw [all i] at failed
      cases failed
    | tolerant =>
      dsimp only [endStatus]
      rw [if_neg (any_waits_iff.not.mpr (by simpa using finished))]
      simp [policy]

end Run

theorem Change.started {node : Node} {r r' : RunRecord} {x t : Step} {e : Event} {o : Outcome}
    (change : Change node r x e r' t) (tells : o.Tells t e) :
    (t.startedAt ≠ none ∧ o.assignment? ≠ none) ∨
      (t.startedAt = x.startedAt ∧ o.assignment? = none) := by
  cases change with
  | lease worker leaseId now settings active =>
    cases tells with
    | leased a => exact .inl ⟨by simp, by simp [Outcome.assignment?]⟩
    | rejected _ _ failed => cases failed
  | reject =>
    cases tells with
    | leased _ _ dispatched => cases dispatched
    | rejected => exact .inr ⟨rfl, rfl⟩
  | renew | abandon => cases tells <;> exact .inr ⟨rfl, rfl⟩
  | succeed | fail => cases tells; exact .inr ⟨rfl, rfl⟩
  | retry => cases tells; exact .inr ⟨Step.again_startedAt _ _ _, rfl⟩
  | _ => cases tells

namespace Run

variable {s : Run p}

def Idle (s : Run p) : Prop := ∀ i, (s.step i).startedAt = none

theorem Idle.congr {s s' : Run p} (same : ∀ j, (s'.step j).startedAt = (s.step j).startedAt) :
    s'.Idle ↔ s.Idle :=
  forall_congr' fun j => by rw [same]

theorem Call.idle_iff {e : Event} {result : Outcome × Run p} (call : s.Call e result) :
    result.2.Idle ↔ s.Idle ∧ result.1.assignment? = none := by
  cases call with
  | ignored silent => exact (and_iff_left (Outcome.assignment?_of_not_heeds silent)).symm
  | @heeded i r t o found change tells =>
    have steps (j) : (((Released.act ⟨s, []⟩ i r t e.now).run.refresh e.now).step j).startedAt =
        ((s.replace i r t).step j).startedAt := by
      rw [step_refresh]
      exact (Released.step_act_aside ⟨s, []⟩ i r t e.now j).startedAt_eq
    rw [Idle.congr steps]
    rcases change.started tells with ⟨started, leased⟩ | ⟨same, silent⟩
    · refine iff_of_false (fun idle => started ?_) fun both => leased both.2
      simpa using idle i
    · rw [and_iff_left silent]
      exact Idle.congr fun j => step_replace_congr Step.startedAt same j

theorem sweeping_startedAt {now : Timestamp} {settings : Scheduling} {c c' : Released p}
    (acts : Acts (.sweep now settings) c c') (j : Fin p.size) :
    (c'.run.step j).startedAt = (c.run.step j).startedAt := by
  induction acts with
  | refl => rfl
  | @tail c c' _ act ih =>
    obtain ⟨i, r, t, change, rfl⟩ := act
    have same : t.startedAt = (c.run.step i).startedAt := by
      cases change with
      | reclaim => exact Step.again_startedAt _ _ _
      | _ => rfl
    rw [(Released.step_act_aside c i r t _ j).startedAt_eq, step_replace_congr Step.startedAt same, ih]

theorem handle_idle_iff (sound : s.Sound) (settled : s.nextStatus? = none) (e : Event) :
    (s.handle e).2.Idle ↔ s.Idle ∧ (s.handle e).1.assignment? = none := by
  have handled := handled sound settled e
  generalize s.handle e = result at handled
  cases handled with
  | called call => exact call.idle_iff
  | swept acts =>
    refine Iff.trans (Idle.congr fun j => ?_) (and_iff_left rfl).symm
    rw [step_refresh]
    exact sweeping_startedAt acts j
  | canceled =>
    refine Iff.trans (Idle.congr fun j => ?_) (and_iff_left rfl).symm
    rw [step_refresh, step_halted]
    exact Step.Aside.stop.startedAt_eq
  | declined => exact (and_iff_left rfl).symm

theorem Valid.idle_iff (ordered : p.Ordered) {canceled : Bool} (valid : s.Valid canceled)
    (events : List Event) : (s.after events).Idle ↔ s.Idle ∧ (s.log events).assignments = [] := by
  induction events generalizing s canceled with
  | nil => exact (and_iff_left rfl).symm
  | cons e events ih =>
    rw [after_cons, ih (valid.handle ordered e), handle_idle_iff valid.sound valid.settled, and_assoc]
    refine and_congr_right fun _ => ?_
    simp only [log, Log.assignments, List.filterMap_cons]
    cases (s.handle e).1.assignment? <;> simp

theorem start_idle (record : RunRecord) (stepId : Nat → Uuid) : (start p record stepId).Idle := by
  intro i
  simp only [start, step, Fin.getElem_fin, Vector.getElem_ofFn]
  split <;> rfl

/-- After any events the status of a run follows from its steps, its policy and whether it was
canceled. No step has started as long as none was leased. -/
theorem status_after {w : Workflow} (built : Plan.ofWorkflow w = .ok p) {record : RunRecord}
    (fresh : record.Fresh) (stepId : Nat → Uuid) (events : List Event) :
    let s := (start p record stepId).after events
    let log := (start p record stepId).log events
    s.record.status = RunStatus.ofSteps log.canceled record.policy s.steps.toList ∧
      ((∀ i, (s.step i).startedAt = none) ↔ log.assignments = []) := by
  intro s log
  have ordered := Plan.ordered built
  have start := Valid.start ordered fresh stepId
  constructor
  · have status := (valid_after ordered fresh stepId events).status_eq
    rwa [start.after_policy ordered events] at status
  · exact (start.idle_iff ordered events).trans (and_iff_right (start_idle record stepId))

theorem status_after_mixed :
    ∃ events, ((pair .tolerant).after events).record.status =
        RunStatus.ofSteps ((pair .tolerant).log events).canceled .tolerant
          ((pair .tolerant).after events).steps.toList ∧
      ((pair .tolerant).after events).record.status = .partialSuccess := by
  refine ⟨[.grant (.ofNat 0) "worker" (.ofNat 2) .epoch default,
    .accept (.ofNat 0) (.succeeded (.ofNat 2) .null 0) .epoch default,
    .grant (.ofNat 1) "worker" (.ofNat 3) .epoch default,
    .accept (.ofNat 1) (Report.failed (.ofNat 3) "no" 0).fatal .epoch default], ?_, by decide +kernel⟩
  exact (status_after Plan.pair_built (RunRecord.queued_fresh ..) .ofNat _).1

end Run

end Orchestration
