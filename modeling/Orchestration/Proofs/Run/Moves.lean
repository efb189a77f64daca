import Orchestration.Proofs.Run.Reserving
import Mathlib.Data.Fintype.Defs

namespace Orchestration

instance : Fintype StepStatus := ⟨⟨StepStatus.all, by decide⟩, fun status => by cases status <;> decide⟩

namespace StepStatus

/-- What a step may become by one event. -/
def successors : StepStatus → List StepStatus
  | .pending => [.ready, .skipped]
  | .ready => [.dispatched, .failed, .skipped]
  | .retrying => [.ready, .skipped]
  | .dispatched => [.running, .succeeded, .failed, .skipped, .ready, .retrying]
  | .running => [.succeeded, .failed, .skipped, .ready, .retrying]
  | .succeeded | .failed | .skipped => []

def asides : StepStatus → List StepStatus
  | .pending => [.ready, .skipped]
  | .ready | .retrying => [.skipped]
  | _ => []

/-- What a sweep may make of a step, by itself or along with others. -/
def lapses : StepStatus → List StepStatus
  | .pending | .retrying => [.ready, .skipped]
  | .ready => [.skipped]
  | .dispatched | .running => [.failed, .skipped, .ready, .retrying]
  | .succeeded | .failed | .skipped => []

theorem successors_of_asides : ∀ a b c : StepStatus, b ∈ a :: a.successors → c ∈ b :: b.asides →
    c ∈ a :: a.successors := by
  decide

theorem lapses_of_asides : ∀ a b c : StepStatus, b ∈ a :: a.lapses → c ∈ b :: b.asides →
    c ∈ a :: a.lapses := by
  decide

theorem lapses_trans : ∀ a b c : StepStatus, b ∈ a :: a.lapses → c ∈ b :: b.lapses →
    c ∈ a :: a.lapses := by
  decide

theorem successors_of_lapses : ∀ a b : StepStatus, b ∈ a :: a.lapses → b ∈ a :: a.successors := by
  decide

end StepStatus

theorem Step.Aside.status_mem {s t : Step} {now : Timestamp} (aside : s.Aside now t) :
    t.status ∈ s.status :: s.status.asides := by
  cases aside with
  | same => exact List.mem_cons_self ..
  | wake pending | skip pending => simp [pending, StepStatus.asides]
  | stop =>
    unfold Run.stopStep
    cases status : s.status <;> simp [status, StepStatus.asides]

theorem StepStatus.successors_of_isInFlight {status : StepStatus} (flying : status.isInFlight) :
    [.succeeded, .failed, .skipped, .ready, .retrying] ⊆ status.successors := by
  cases status with
  | dispatched | running => decide
  | _ => cases flying

theorem Step.again_status_mem (s : Step) (now : Timestamp) (settings : Scheduling) :
    (s.again now settings).status ∈ [StepStatus.ready, .retrying] := by
  rcases s.again_status now settings with ready | retrying
  · simp [ready]
  · simp [retrying]

namespace Change

variable {node : Node} {r r' : RunRecord} {s t : Step} {e : Event}

theorem status_mem (change : Change node r s e r' t) : t.status ∈ s.status :: s.status.successors := by
  have landed (flying : s.status.isInFlight) {next : StepStatus}
      (member : next ∈ [StepStatus.succeeded, .failed, .skipped, .ready, .retrying]) :
      next ∈ s.status :: s.status.successors :=
    List.mem_cons_of_mem _ (StepStatus.successors_of_isInFlight flying member)
  have again (flying : s.status.isInFlight) (u : Step) (now : Timestamp) (settings : Scheduling) :
      (u.again now settings).status ∈ s.status :: s.status.successors := by
    apply landed flying
    have member := u.again_status_mem now settings
    simp only [List.mem_cons] at member ⊢
    tauto
  cases change with
  | lease _ _ _ _ _ ready | reject _ _ _ _ _ ready => simp [ready, StepStatus.successors]
  | renew _ _ _ _ flying =>
    cases status : s.status with
    | dispatched | running => simp [StepStatus.successors]
    | _ => rw [status] at flying; cases flying
  | abandon _ _ _ _ flying | succeed _ _ _ _ _ flying | fail _ _ _ _ _ flying
  | drop _ _ _ _ flying | expire _ _ _ _ flying => exact landed flying (by simp)
  | retry _ _ _ _ _ flying | reclaim _ _ _ _ flying => exact again flying _ _ _
  | promote _ _ _ retrying => simp [retrying, StepStatus.successors]

theorem lapse_mem {now : Timestamp} {settings : Scheduling}
    (change : Change node r s (.sweep now settings) r' t) : t.status ∈ s.status :: s.status.lapses := by
  have landed (flying : s.status.isInFlight) : s.status.lapses = [.failed, .skipped, .ready, .retrying] := by
    cases status : s.status with
    | dispatched | running => rfl
    | _ => rw [status] at flying; cases flying
  cases change with
  | drop _ _ _ _ flying | expire _ _ _ _ flying => simp [landed flying]
  | reclaim _ _ _ _ flying =>
    have member := Step.again_status_mem
      { s with lease := none, error := some "lease expired" } now settings
    rw [landed flying]
    simp only [List.mem_cons] at member ⊢
    tauto
  | promote _ _ _ retrying => simp [retrying, StepStatus.lapses]

end Change

namespace Run

variable {p : Plan} {s : Run p}

theorem act_status_mem (c : Released p) {i : Fin p.size} (r : RunRecord) {t : Step} (now : Timestamp)
    {next : StepStatus → List StepStatus}
    (along : ∀ a b c : StepStatus, b ∈ a :: next a → c ∈ b :: b.asides → c ∈ a :: next a)
    (own : t.status ∈ (c.run.step i).status :: next (c.run.step i).status) (j : Fin p.size) :
    ((c.act i r t now).run.step j).status ∈ (c.run.step j).status :: next (c.run.step j).status := by
  have aside := (c.step_act_aside i r t now j).status_mem
  refine along _ _ _ ?_ aside
  rw [step_replace]
  split
  · subst j
    exact own
  · exact List.mem_cons_self ..

theorem Call.status_mem {e : Event} {result : Outcome × Run p} (call : s.Call e result)
    (j : Fin p.size) : (result.2.step j).status ∈ (s.step j).status :: (s.step j).status.successors := by
  cases call with
  | ignored => exact List.mem_cons_self ..
  | @heeded i r t o found change =>
    rw [step_refresh]
    exact act_status_mem ⟨s, []⟩ r e.now StepStatus.successors_of_asides change.status_mem j

theorem sweeping_status_mem {now : Timestamp} {settings : Scheduling} {c c' : Released p}
    (acts : Acts (.sweep now settings) c c') (j : Fin p.size) :
    (c'.run.step j).status ∈ (c.run.step j).status :: (c.run.step j).status.lapses := by
  induction acts with
  | refl => exact List.mem_cons_self ..
  | @tail c₁ c₂ _ act ih =>
    obtain ⟨i, r, t, change, rfl⟩ := act
    have next := act_status_mem c₁ r now StepStatus.lapses_of_asides change.lapse_mem j
    exact StepStatus.lapses_trans _ _ _ ih next

theorem handle_status_mem (sound : s.Sound) (settled : s.nextStatus? = none) (e : Event)
    (j : Fin p.size) :
    ((s.handle e).2.step j).status ∈ (s.step j).status :: (s.step j).status.successors := by
  have handled := handled sound settled e
  generalize s.handle e = result at handled
  cases handled with
  | called call => exact call.status_mem j
  | swept acts =>
    -- A sweep may change a step twice; unlike `successors`, `lapses` is transitive.
    apply StepStatus.successors_of_lapses
    rw [step_refresh]
    exact sweeping_status_mem acts j
  | @canceled now =>
    have aside : (s.step j).Aside now (stopStep now (s.step j)) := .stop
    apply StepStatus.successors_of_lapses
    rw [step_refresh, step_halted]
    exact StepStatus.lapses_of_asides _ _ _ (List.mem_cons_self ..) aside.status_mem
  | declined => exact List.mem_cons_self ..

/-- After any events no event changes a step that has ended, or the record of a run that has. Of the
other steps each stays where it stands or takes one step of the state machine. -/
theorem moves_after {w : Workflow} (built : Plan.ofWorkflow w = .ok p) {record : RunRecord}
    (fresh : record.Fresh) (stepId : Nat → Uuid) (events : List Event) (e : Event) :
    let s := (start p record stepId).after events
    (∀ i, (s.step i).status.isTerminal → (s.handle e).2.step i = s.step i) ∧
      (s.record.status.isTerminal → (s.handle e).2.record = s.record) ∧
      ∀ i, ((s.handle e).2.step i).status = (s.step i).status ∨
        ((s.handle e).2.step i).status ∈ (s.step i).status.successors := by
  intro s
  have valid := valid_after (Plan.ordered built) fresh stepId events
  refine ⟨fun i ended => ?_, fun ended => ?_, fun i => ?_⟩
  · exact handle_terminal valid.sound valid.settled e ended
  · exact handle_record valid.sound valid.settled ended e
  · exact List.mem_cons.mp (handle_status_mem valid.sound valid.settled e i)

/-- A result that comes in after its run has failed is kept with its step alone. -/
theorem moves_after_failure :
    let record := RunRecord.queued .nil Workflow.priced.reference .failFast .epoch
    let events : List Event :=
      [.grant (.ofNat 0) "first" (.ofNat 2) .epoch default,
        .grant (.ofNat 1) "second" (.ofNat 3) .epoch default,
        .accept (.ofNat 0) (.failed (.ofNat 2) "no" 0) .epoch default]
    let s := (start .priced record .ofNat).after events
    let s' := (s.handle (.accept (.ofNat 1) (.succeeded (.ofNat 3) .null 0) .epoch default)).2
    s.record.status = .failed ∧ s'.record = s.record ∧
      (s.step (0 : Fin 2)).status = .failed ∧ s'.step (0 : Fin 2) = s.step (0 : Fin 2) ∧
      (s.step (1 : Fin 2)).status = .dispatched ∧ (s'.step (1 : Fin 2)).status = .succeeded ∧
      (s'.step (1 : Fin 2)).status ∈ (s.step (1 : Fin 2)).status.successors := by
  intro record events s s'
  have fresh : record.Fresh :=
    RunRecord.queued_fresh .nil Workflow.priced.reference .failFast .epoch none [] .null
  have moves := moves_after Plan.priced_built fresh .ofNat events
    (.accept (.ofNat 1) (.succeeded (.ofNat 3) .null 0) .epoch default)
  have failed : s.record.status = .failed := by decide +kernel
  have ended : (s.step (0 : Fin 2)).status = .failed := by decide +kernel
  have before : (s.step (1 : Fin 2)).status = .dispatched := by decide +kernel
  have later : (s'.step (1 : Fin 2)).status = .succeeded := by decide +kernel
  have changed : (s'.step (1 : Fin 2)).status ≠ (s.step (1 : Fin 2)).status := by
    rw [before, later]
    decide
  simp only [s', s, events, record] at moves failed ended before later changed ⊢
  exact ⟨failed, moves.2.1 (congrArg RunStatus.isTerminal failed), ended,
    moves.1 (0 : Fin 2) (congrArg StepStatus.isTerminal ended), before, later,
    (moves.2.2 (1 : Fin 2)).resolve_left changed⟩

end Run

end Orchestration
