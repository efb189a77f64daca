import Orchestration.Proofs.Run.Tracked

namespace Orchestration

namespace Run

variable {p : Plan}

inductive Phase (canceled : Bool) (s : Run p) : Prop
  | active (kept : canceled = false) (active : s.isActive)
      (queued : s.record.status = .queued ↔ ∀ i, (s.step i).startedAt = none)
      (clean : s.record.policy = .failFast →
        ∀ i, (s.step i).status ≠ .failed ∧ (s.step i).status ≠ .skipped)
  | canceling (stopped : canceled = true) (status : s.record.status = .canceling)
  | canceled (stopped : canceled = true) (status : s.record.status = .canceled)
      (finished : ∀ i, (s.step i).status.isTerminal)
  | broken (kept : canceled = false) (status : s.record.status = .failed)
      (policy : s.record.policy = .failFast) (i : Fin p.size) (failed : (s.step i).status = .failed)
  | ended (kept : canceled = false) (status : s.record.status = s.endStatus)
      (finished : ∀ i, (s.step i).status.isTerminal)
      (clean : s.record.policy = .failFast → ∀ i, (s.step i).status = .succeeded)

theorem endStatus_isTerminal (s : Run p) : s.endStatus.isTerminal := by
  dsimp only [endStatus]
  split
  · rfl
  · split <;> rfl

namespace Phase

variable {canceled : Bool} {s : Run p}

theorem kept (phase : s.Phase canceled) (active : s.isActive) : canceled = false := by
  cases phase with
  | active kept | broken kept | ended kept => exact kept
  | canceling _ status | canceled _ status =>
    rw [isActive, status] at active
    cases active

theorem start (p : Plan) {record : RunRecord} (fresh : record.Fresh) (stepId : Nat → Uuid) :
    (start p record stepId).Phase false := by
  have step (i : Fin p.size) : ((Run.start p record stepId).step i).startedAt = none ∧
      ((Run.start p record stepId).step i).status ≠ .failed ∧
      ((Run.start p record stepId).step i).status ≠ .skipped := by
    simp only [Run.start, step, Fin.getElem_fin, Vector.getElem_ofFn]
    split <;> simp [Step.pending]
  have queued : (Run.start p record stepId).record.status = .queued := fresh.status
  refine .active rfl ?_ ?_ fun _ i => (step i).2
  · rw [isActive, queued]; rfl
  · exact iff_of_true queued fun i => (step i).1

theorem replace (phase : s.Phase canceled) (sound : s.Sound) {i : Fin p.size} {e : Event}
    {r : RunRecord} {t : Step} (change : Change (p.node i) s.record (s.step i) e r t)
    (mild : ¬ Run.breaks r t) : (s.replace i r t).Phase canceled := by
  have waits := change.not_terminal
  have keep (stopped : ¬ s.isActive) : r.status = s.record.status := by
    rcases change.begins with ⟨active, -⟩ | ⟨same, -⟩
    · exact absurd active stopped
    · exact same
  cases phase with
  | active kept active queued clean =>
    have active' : r.status.isActive := change.active_eq.trans active
    refine .active kept active' ?_ ?_
    · rcases change.begins with ⟨-, running, started⟩ | ⟨same, started⟩
      · rw [replace_record, running]
        refine iff_of_false (by simp) fun none => started ?_
        simpa using none i
      · rw [replace_record, same, queued]
        refine forall_congr' fun j => ?_
        rw [step_replace_congr Step.startedAt started]
    · intro failFast j
      rw [replace_record] at failFast
      rw [step_replace]
      split
      · have opened := (change.opens (sound i) active).2
        refine ⟨fun failed => mild ⟨active', failFast, failed⟩, fun skipped => ?_⟩
        rw [skipped] at opened
        simp [StepStatus.isOpen] at opened
      · exact clean (change.policy_eq.symm.trans failFast) j
  | canceling stopped status =>
    exact .canceling stopped ((keep (by simp [isActive, status, RunStatus.isActive])).trans status)
  | canceled stopped status finished => exact absurd (finished i) waits
  | broken kept status policy j failed =>
    -- The step that broke the run has ended, so that it is not the one that changes.
    have other : j ≠ i := by
      intro same
      rw [← same, failed] at waits
      exact waits rfl
    refine .broken kept ?_ (change.policy_eq.trans policy) j ?_
    · exact (keep (by simp [isActive, status, RunStatus.isActive])).trans status
    · rw [step_replace, if_neg other]
      exact failed
  | ended kept status finished clean => exact absurd (finished i) waits

theorem put (phase : s.Phase canceled) {d : Fin p.size} {t : Step}
    (pending : (s.step d).status = .pending) (started : t.startedAt = (s.step d).startedAt)
    (mild : s.record.policy = .failFast → t.status ≠ .failed ∧ t.status ≠ .skipped) :
    (s.put d t).Phase canceled := by
  cases phase with
  | active kept active queued clean =>
    refine .active kept active ?_ fun failFast j => ?_
    · rw [put_record, queued]
      refine forall_congr' fun j => ?_
      rw [step_put_congr Step.startedAt started]
    · rw [step_put]
      split
      · exact mild failFast
      · exact clean failFast j
  | canceling stopped status => exact .canceling stopped status
  | broken kept status policy j failed =>
    refine .broken kept status policy j ?_
    have other : j ≠ d := by
      intro same
      rw [same, pending] at failed
      cases failed
    rw [step_put_of_ne _ _ other]
    exact failed
  | canceled _ _ finished | ended _ _ finished =>
    have finished := finished d
    rw [pending] at finished
    cases finished

theorem ripple (phase : s.Phase canceled) {s' : Run p} {now : Timestamp} (ripple : Ripple now s s') :
    s'.Phase canceled := by
  cases ripple with
  | count =>
    cases phase with
    | active kept active queued clean => exact .active kept active queued clean
    | canceling stopped status => exact .canceling stopped status
    | canceled stopped status finished => exact .canceled stopped status finished
    | broken kept status policy i failed => exact .broken kept status policy i failed
    | ended kept status finished clean => exact .ended kept status finished clean
  | ready d active pending => exact phase.put pending rfl fun _ => by simp
  | skip d why tolerant pending => exact phase.put pending rfl fun failFast => by simp_all

theorem collapse (phase : s.Phase canceled) {i : Fin p.size} {e : Event} {r : RunRecord} {t : Step}
    (change : Change (p.node i) s.record (s.step i) e r t) (breaks : Run.breaks r t) (why : String)
    (now : Timestamp) : ((s.replace i r t).collapse why now).Phase canceled := by
  obtain ⟨goes, failFast, failed⟩ := breaks
  refine .broken (phase.kept (change.active_eq.symm.trans goes)) rfl failFast i ?_
  rw [step_collapse, step_replace_self]
  simp only [stopStep, failed]

theorem refresh (phase : s.Phase canceled) (sound : s.Sound) (now : Timestamp) :
    (s.refresh now).Phase canceled := by
  cases next : s.nextStatus? with
  | none => rwa [refresh_eq_self next]
  | some status =>
    have end' := nextStatus?_eq_some_iff.mp next
    simp only [Run.refresh, next]
    cases phase with
    | active kept active _ clean =>
      rcases end' with ⟨canceling, -⟩ | ⟨-, finished, rfl⟩
      · rw [isActive, canceling] at active
        cases active
      · refine .ended kept rfl finished fun failFast i => ?_
        have finished := finished i
        obtain ⟨failed, skipped⟩ := clean failFast i
        show (s.step i).status = .succeeded
        cases status : (s.step i).status <;> simp_all [StepStatus.isTerminal]
    | canceling heeded canceling =>
      have stopped : s.isActive = false := by rw [isActive, canceling]; rfl
      rcases end' with ⟨-, grounded, rfl⟩ | ⟨active, -⟩
      · refine .canceled heeded rfl fun i => ?_
        exact ((sound i).stopped stopped).resolve_right (grounded i)
      · rw [stopped] at active
        cases active
    | canceled _ ended | broken _ ended | ended _ ended =>
      have none : s.nextStatus? = none := by
        refine nextStatus?_eq_none_iff.mpr (.inl ?_)
        rw [ended]
        first | rfl | exact s.endStatus_isTerminal
      rw [none] at next
      cases next

theorem halt (s : Run p) (now : Timestamp) : (s.halted now).Phase true := .canceling rfl rfl

theorem clean (phase : s.Phase canceled) (active : s.isActive) (failFast : s.record.policy = .failFast)
    (i : Fin p.size) : (s.step i).status ≠ .failed ∧ (s.step i).status ≠ .skipped := by
  cases phase with
  | active _ _ _ clean => exact clean failFast i
  | ended _ _ _ clean => rw [clean failFast i]; decide
  | canceling _ status | canceled _ status | broken _ status =>
    rw [isActive, status] at active
    cases active

theorem all_ended (phase : s.Phase canceled) (kept : canceled = false) (stopped : ¬ s.isActive)
    (tolerant : s.record.policy = .tolerant) (i : Fin p.size) : (s.step i).status.isTerminal := by
  cases phase with
  | active _ active => exact absurd active stopped
  | canceling heeded | canceled heeded => rw [kept] at heeded; cases heeded
  | broken _ _ failFast => rw [tolerant] at failFast; cases failFast
  | ended _ _ finished => exact finished i

theorem acts (phase : s.Phase canceled) (sound : s.Sound) {e : Event} {c : Released p}
    (acts : Acts e ⟨s, []⟩ c) : c.run.Phase canceled := by
  have kept : c.run.Sound ∧ c.run.Phase canceled := by
    refine acts.preserve (P := fun s => s.Sound ∧ s.Phase canceled) ⟨sound, phase⟩ ?_ ?_ ?_
    · intro s i r t ⟨sound, phase⟩ change mild
      exact ⟨sound.replace change, phase.replace sound change mild⟩
    · intro s s' ⟨sound, phase⟩ ripple
      exact ⟨sound.ripple ripple, phase.ripple ripple⟩
    · intro s i r t why ⟨sound, phase⟩ change breaks
      exact ⟨(sound.replace change).stop _ _ rfl, phase.collapse change breaks why e.now⟩
  exact kept.2

end Phase

end Run

end Orchestration
