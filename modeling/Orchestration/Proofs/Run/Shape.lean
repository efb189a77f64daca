import Orchestration.Proofs.Run.Valid

namespace Orchestration

theorem Cents.pay_nonneg {paid : Cents} (nonneg : 0 ≤ paid) (cost : Cents) : 0 ≤ paid + max cost 0 := by
  rw [le_iff, value_zero] at nonneg ⊢
  rw [value_add, value_max, value_zero]
  omega

structure Step.Shaped (s : Step) : Prop where
  lease : s.lease.isSome ↔ s.status.isInFlight
  retryAt : s.retryAt.isSome ↔ s.status = .retrying
  endedAt : s.endedAt.isSome ↔ s.status.isTerminal
  output : s.output.isSome ↔ s.status = .succeeded
  failed : s.status = .failed → s.error.isSome
  succeeded : s.status = .succeeded → s.error = none
  startedAt : s.status.isInFlight ∨ s.status = .retrying ∨ s.status = .succeeded → s.startedAt.isSome
  pending : s.status = .pending →
    s.attempt = 0 ∧ s.cost = 0 ∧ s.error = none ∧ s.startedAt = none
  cost : 0 ≤ s.cost

namespace Step.Shaped

variable {s : Step}

theorem of_pending (id runId : Uuid) (nodeId : String) : (Step.pending id runId nodeId).Shaped := by
  constructor <;> simp [Step.pending, StepStatus.isInFlight, StepStatus.isTerminal, Cents.le_iff]

theorem opened (shaped : s.Shaped) (waits : ¬ s.status.isTerminal) :
    s.endedAt = none ∧ s.output = none := by
  have endedAt := shaped.endedAt.not.mpr waits
  have output : ¬ s.output.isSome := by
    rw [shaped.output]
    intro succeeded
    rw [succeeded] at waits
    exact waits rfl
  simpa using And.intro endedAt output

theorem calm (shaped : s.Shaped) (active : s.status ≠ .retrying) : s.retryAt = none := by
  simpa using shaped.retryAt.not.mpr active

theorem free (shaped : s.Shaped) (grounded : s.status.isInFlight = false) : s.lease = none := by
  simpa [grounded] using shaped.lease

theorem again (free : s.lease = none) (ended : s.endedAt = none) (output : s.output = none)
    (started : s.startedAt.isSome) (cost : 0 ≤ s.cost) (now : Timestamp) (settings : Scheduling) :
    (s.again now settings).Shaped := by
  unfold Step.again
  dsimp only
  split <;> constructor <;>
    simp [StepStatus.isInFlight, StepStatus.isTerminal, free, ended, output, started, cost]

end Step.Shaped

theorem Change.shaped {node : Node} {r r' : RunRecord} {s t : Step} {e : Event}
    (change : Change node r s e r' t) (shaped : s.Shaped) : t.Shaped := by
  obtain ⟨ended, output⟩ := shaped.opened change.not_terminal
  have cost := shaped.cost
  have paid (report : Report) := Cents.pay_nonneg cost report.cost
  have started (flying : s.status.isInFlight) : s.startedAt.isSome := shaped.startedAt (.inl flying)
  have calm (flying : s.status.isInFlight) : s.retryAt = none :=
    shaped.calm fun retrying => by rw [retrying] at flying; cases flying
  cases change with
  | lease _ _ _ _ _ ready =>
    constructor <;> simp [StepStatus.isInFlight, StepStatus.isTerminal, ended, output, cost]
  | reject _ _ _ _ _ ready =>
    have free := shaped.free (by rw [ready]; rfl)
    have calm := shaped.calm (by simp [ready])
    constructor <;> simp [StepStatus.isInFlight, StepStatus.isTerminal, output, cost, free, calm]
  | renew _ _ _ _ flying =>
    constructor <;>
      simp [StepStatus.isInFlight, StepStatus.isTerminal, ended, output, cost, calm flying,
        started flying]
  | abandon _ _ _ _ flying | drop _ _ _ _ flying | expire _ _ _ _ flying =>
    constructor <;>
      simp [StepStatus.isInFlight, StepStatus.isTerminal, output, cost, calm flying]
  | succeed _ report _ _ _ flying | fail _ report _ _ _ flying =>
    constructor <;>
      simp [StepStatus.isInFlight, StepStatus.isTerminal, Step.returned, output, paid report,
        calm flying, started flying]
  | retry _ report now settings _ flying =>
    let noted : Step := { s.returned (max report.cost 0) with error := some (report.complaint node) }
    exact Step.Shaped.again (s := noted) rfl ended output (started flying) (paid report) now settings
  | reclaim _ now settings _ flying =>
    let noted : Step := { s with lease := none, error := some "lease expired" }
    exact Step.Shaped.again (s := noted) rfl ended output (started flying) cost now settings
  | promote _ _ _ retrying =>
    have free := shaped.free (by rw [retrying]; rfl)
    constructor <;> simp [StepStatus.isInFlight, StepStatus.isTerminal, ended, output, cost, free]

theorem Step.Shaped.aside {s t : Step} {now : Timestamp} (shaped : s.Shaped) (aside : s.Aside now t) :
    t.Shaped := by
  have cost := shaped.cost
  cases aside with
  | same => exact shaped
  | wake pending =>
    obtain ⟨ended, output⟩ := shaped.opened (by simp [pending, StepStatus.isTerminal])
    have free := shaped.free (by rw [pending]; rfl)
    have calm := shaped.calm (by simp [pending])
    constructor <;>
      simp [StepStatus.isInFlight, StepStatus.isTerminal, ended, output, cost, free, calm]
  | skip pending =>
    obtain ⟨-, output⟩ := shaped.opened (by simp [pending, StepStatus.isTerminal])
    have free := shaped.free (by rw [pending]; rfl)
    have calm := shaped.calm (by simp [pending])
    constructor <;> simp [StepStatus.isInFlight, StepStatus.isTerminal, output, cost, free, calm]
  | stop =>
    unfold Run.stopStep
    split
    case h_4 | h_5 => exact { shaped with lease := by simpa using shaped.lease }
    case h_6 | h_7 | h_8 => exact shaped
    all_goals
      rename_i status
      obtain ⟨-, output⟩ := shaped.opened (by simp [status, StepStatus.isTerminal])
      have free := shaped.free (by rw [status]; rfl)
      constructor <;> simp [StepStatus.isInFlight, StepStatus.isTerminal, output, cost, free]

structure RunRecord.Shaped (r : RunRecord) : Prop where
  endedAt : r.endedAt.isSome ↔ r.status.isTerminal
  error : r.error.isSome ↔ r.status = .failed
  startedAt : r.status = .running → r.startedAt.isSome

namespace RunRecord.Shaped

variable {r : RunRecord}

theorem of_fresh (fresh : r.Fresh) : r.Shaped := by
  constructor <;> simp [fresh.status, fresh.error, fresh.endedAt, RunStatus.isTerminal]

theorem begin (shaped : r.Shaped) (active : r.status.isActive) (now : Timestamp) :
    (r.begin now).Shaped ∧ (r.begin now).startedAt.isSome := by
  obtain ⟨endedAt, error, startedAt⟩ := shaped
  unfold RunRecord.begin
  cases status : r.status with
  | queued =>
    rw [status] at endedAt error
    exact ⟨⟨endedAt, by simpa using error, fun _ => rfl⟩, rfl⟩
  | running => exact ⟨⟨endedAt, error, startedAt⟩, startedAt status⟩
  | _ => rw [status] at active; cases active

theorem paid (shaped : r.Shaped) (cost : Cents) :
    (r.paid cost).Shaped ∧ (r.paid cost).startedAt = r.startedAt := by
  unfold RunRecord.paid
  split
  · exact ⟨shaped, rfl⟩
  · exact ⟨⟨shaped.endedAt, shaped.error, shaped.startedAt⟩, rfl⟩

end RunRecord.Shaped

theorem Change.record_shaped {node : Node} {r r' : RunRecord} {s t : Step} {e : Event}
    (change : Change node r s e r' t) (shaped : r.Shaped) :
    r'.Shaped ∧ (r'.startedAt.isSome ∧ t.startedAt.isSome ∨
      r'.startedAt = r.startedAt ∧ t.startedAt = s.startedAt) := by
  cases change with
  | lease _ _ now _ active =>
    obtain ⟨kept, started⟩ := shaped.begin active now
    exact ⟨kept, .inl ⟨started, rfl⟩⟩
  | succeed _ report | fail _ report =>
    obtain ⟨kept, same⟩ := shaped.paid (max report.cost 0)
    exact ⟨kept, .inr ⟨same, rfl⟩⟩
  | retry _ report =>
    obtain ⟨kept, same⟩ := shaped.paid (max report.cost 0)
    exact ⟨kept, .inr ⟨same, Step.again_startedAt _ _ _⟩⟩
  | reclaim => exact ⟨shaped, .inr ⟨rfl, Step.again_startedAt _ _ _⟩⟩
  | _ => exact ⟨shaped, .inr ⟨rfl, rfl⟩⟩

namespace Run

variable {p : Plan}

structure Shaped (s : Run p) : Prop where
  steps : ∀ i, (s.step i).Shaped
  record : s.record.Shaped
  started : s.record.startedAt.isSome ↔ ∃ i, (s.step i).startedAt.isSome

namespace Shaped

variable {s : Run p}

theorem start {record : RunRecord} (fresh : record.Fresh) (stepId : Nat → Uuid) :
    (start p record stepId).Shaped := by
  have step (i : Fin p.size) : ((Run.start p record stepId).step i).Shaped ∧
      ((Run.start p record stepId).step i).startedAt = none := by
    have pending := Step.Shaped.of_pending (stepId i) record.id (p.node i).id
    simp only [Run.start, Run.step, Fin.getElem_fin, Vector.getElem_ofFn]
    split
    · exact ⟨pending.aside (.wake rfl : Step.Aside .epoch _ _), rfl⟩
    · exact ⟨pending, rfl⟩
  have idle : (Run.start p record stepId).record.startedAt = none := fresh.startedAt
  refine ⟨fun i => (step i).1, .of_fresh fresh, iff_of_false (by simp [idle]) ?_⟩
  rintro ⟨i, started⟩
  rw [(step i).2] at started
  cases started

theorem aside (shaped : s.Shaped) {s' : Run p} (now : Timestamp) (record : s'.record.Shaped)
    (started : s'.record.startedAt = s.record.startedAt)
    (aside : ∀ i, (s.step i).Aside now (s'.step i)) : s'.Shaped := by
  refine ⟨fun i => (shaped.steps i).aside (aside i), record, ?_⟩
  simp only [started, (aside _).startedAt_eq, shaped.started]

theorem act {e : Event} {c c' : Released p} (act : Act e c c') (shaped : c.run.Shaped) :
    c'.run.Shaped := by
  obtain ⟨i, r, t, change, rfl⟩ := act
  obtain ⟨record, startedAt⟩ := change.record_shaped shaped.record
  have replaced : (c.run.replace i r t).Shaped := by
    refine ⟨fun j => ?_, record, ?_⟩
    · rw [step_replace]
      split
      · exact change.shaped (shaped.steps i)
      · exact shaped.steps j
    · rcases startedAt with ⟨run, step⟩ | ⟨run, step⟩
      · exact iff_of_true run ⟨i, by rwa [step_replace_self]⟩
      · rw [replace_record, run, shaped.started]
        refine exists_congr fun j => ?_
        rw [step_replace_congr Step.startedAt step]
  have record : (c.act i r t e.now).run.record.Shaped ∧
      (c.act i r t e.now).run.record.startedAt = r.startedAt := by
    rcases c.act_cases i r t e.now with ⟨-, ripples⟩ | ⟨-, why, same⟩
    · rw [ripples.record]
      exact ⟨record, rfl⟩
    · rw [same]
      exact ⟨⟨iff_of_true rfl rfl, iff_of_true rfl rfl, nofun⟩, rfl⟩
  exact replaced.aside e.now record.1 record.2 (c.step_act_aside i r t e.now)

theorem acts {e : Event} {c c' : Released p} (acts : Acts e c c') (shaped : c.run.Shaped) :
    c'.run.Shaped := by
  induction acts with
  | refl => exact shaped
  | tail _ act ih => exact .act act ih

theorem halted (shaped : s.Shaped) (active : s.isActive) (now : Timestamp) : (s.halted now).Shaped := by
  have record : (s.halted now).record.Shaped := by
    obtain ⟨endedAt, error, -⟩ := shaped.record
    have waits := RunStatus.not_isTerminal_of_isActive active
    have sound : s.record.status ≠ .failed := by
      intro failed
      rw [failed] at waits
      exact waits rfl
    exact ⟨iff_of_false (endedAt.not.mpr waits) nofun, iff_of_false (error.not.mpr sound) nofun, nofun⟩
  refine shaped.aside now record rfl fun i => ?_
  rw [step_halted]
  exact .stop

theorem refresh (shaped : s.Shaped) (now : Timestamp) : (s.refresh now).Shaped := by
  cases next : s.nextStatus? with
  | none => rwa [refresh_eq_self next]
  | some status =>
    have record : (s.refresh now).record.Shaped := by
      have goes : s.record.status ≠ .failed := by
        intro failed
        rcases nextStatus?_eq_some_iff.mp next with ⟨canceling, -⟩ | ⟨active, -⟩
        · cases failed.symm.trans canceling
        · rw [isActive, failed] at active
          cases active
      have ends : status.isTerminal := by
        rcases nextStatus?_eq_some_iff.mp next with ⟨-, -, rfl⟩ | ⟨-, -, rfl⟩
        · rfl
        · exact s.endStatus_isTerminal
      have error : s.record.error = none := by simpa using shaped.record.error.not.mpr goes
      simp only [Run.refresh, next]
      refine ⟨iff_of_true rfl ends, ?_, ?_⟩
      · by_cases failed : status = .failed <;> simp [failed, error]
      · rintro rfl
        cases ends
    refine shaped.aside now record ?_ fun i => ?_
    · simp only [Run.refresh, next]
    · rw [step_refresh]
      exact .same

theorem handle (shaped : s.Shaped) (sound : s.Sound) (settled : s.nextStatus? = none) (e : Event) :
    (s.handle e).2.Shaped := by
  rcases handle_cases sound settled e with ⟨c, acts, same, -⟩ | ⟨active, same, -⟩
  · rw [same]
    exact (Shaped.acts acts shaped).refresh e.now
  · rw [same]
    exact (shaped.halted active e.now).refresh e.now

theorem after {canceled : Bool} (shaped : s.Shaped) (ordered : p.Ordered) (valid : s.Valid canceled)
    (events : List Event) : (s.after events).Shaped := by
  apply valid.preserve (P := Shaped) ordered shaped
  intro s canceled e valid shaped
  exact shaped.handle valid.sound valid.settled e

end Shaped

/-- After any events each field of a step and of the run is filled exactly when the status calls for
it. -/
theorem shaped_after {w : Workflow} (built : Plan.ofWorkflow w = .ok p) {record : RunRecord}
    (fresh : record.Fresh) (stepId : Nat → Uuid) (events : List Event) :
    let s := (start p record stepId).after events
    (∀ i, (s.step i).Shaped) ∧
      (s.record.endedAt.isSome ↔ s.record.status.isTerminal) ∧
      (s.record.error.isSome ↔ s.record.status = .failed) ∧
      (s.record.startedAt.isSome ↔ ∃ i, (s.step i).startedAt.isSome) := by
  intro s
  have ordered := Plan.ordered built
  have shaped : s.Shaped := (Shaped.start fresh stepId).after ordered (.start ordered fresh stepId) events
  exact ⟨shaped.steps, shaped.record.endedAt, shaped.record.error, shaped.started⟩

/-- A first step that fails for good ends its run, and both say why. -/
theorem shaped_after_failure :
    let events : List Event :=
      [.grant (.ofNat 0) "worker" (.ofNat 2) .epoch default,
        .accept (.ofNat 0) (Report.failed (.ofNat 2) "no" 0).fatal .epoch default]
    let s := (pair .failFast).after events
    (s.step (0 : Fin 2)).status = .failed ∧ (s.step (0 : Fin 2)).error.isSome ∧
      (s.step (0 : Fin 2)).endedAt.isSome ∧ s.record.status = .failed ∧ s.record.error.isSome ∧
      s.record.endedAt.isSome := by
  intro events s
  have fresh : (RunRecord.queued .nil Workflow.pair.reference .failFast .epoch).Fresh :=
    RunRecord.queued_fresh .nil Workflow.pair.reference .failFast .epoch none [] .null
  obtain ⟨steps, endedAt, error, -⟩ := shaped_after Plan.pair_built fresh .ofNat events
  have step : (s.step (0 : Fin 2)).status = .failed := by decide +kernel
  have run : s.record.status = .failed := by decide +kernel
  simp only [s, events, pair] at step run ⊢
  exact ⟨step, (steps (0 : Fin 2)).failed step,
    (steps (0 : Fin 2)).endedAt.mpr (congrArg StepStatus.isTerminal step), run, error.mpr run,
    endedAt.mpr (congrArg RunStatus.isTerminal run)⟩

end Run

end Orchestration
