import Orchestration.Proofs.Run.Phase

namespace Orchestration

variable {p : Plan}

namespace Acts

variable {e : Event} {c c' : Released p}

theorem submitted_eq (acts : Acts e c c') :
    c'.run.record.submitted = c.run.record.submitted := by
  refine acts.preserve (P := fun s => s.record.submitted = c.run.record.submitted) rfl ?_ ?_ ?_
  · exact fun s i r t same change _ => change.submitted_eq.trans same
  · exact fun s s' same ripple => by rw [ripple.record, same]
  · exact fun s i r t why same change _ => change.submitted_eq.trans same

theorem policy_eq (acts : Acts e c c') : c'.run.record.policy = c.run.record.policy :=
  (congrArg RunRecord.policy acts.submitted_eq :)

theorem active_of (acts : Acts e c c') (active : c'.run.isActive) : c.run.isActive := by
  revert active
  refine acts.preserve (P := fun s => s.isActive → c.run.isActive) id ?_ ?_ ?_
  · exact fun s i r t went change _ active => went (change.active_eq.symm.trans active)
  · exact fun s s' went ripple active => went (by rwa [Run.isActive, ripple.record] at active)
  · exact fun s i r t why went change _ active => absurd active Bool.false_ne_true

theorem active_of_tolerant (acts : Acts e c c') (tolerant : c.run.record.policy = .tolerant)
    (active : c.run.isActive) : c'.run.isActive := by
  have kept : c'.run.record.policy = .tolerant ∧ c'.run.isActive := by
    refine acts.preserve (P := fun s => s.record.policy = .tolerant ∧ s.isActive)
      ⟨tolerant, active⟩ ?_ ?_ ?_
    · intro s i r t ⟨tolerant, active⟩ change _
      exact ⟨change.policy_eq.trans tolerant, change.active_eq.trans active⟩
    · intro s s' ⟨tolerant, active⟩ ripple
      rw [Run.isActive, ripple.record]
      exact ⟨tolerant, active⟩
    · intro s i r t why ⟨tolerant, _⟩ change breaks
      have failFast := breaks.2.1
      rw [change.policy_eq, tolerant] at failFast
      cases failFast
  exact kept.2

theorem eq_of_ended (acts : Acts e c c') (ended : ∀ i, (c.run.step i).status.isTerminal) :
    c' = c := by
  rcases Relation.ReflTransGen.cases_head acts with rfl | ⟨_, ⟨i, r, t, change, -⟩, -⟩
  · rfl
  · exact absurd (ended i) change.not_terminal

theorem tracked (ordered : p.Ordered) (acts : Acts e c c') (sound : c.run.Sound)
    (tracked : c.run.isActive → c.run.Tracked [] []) (active : c'.run.isActive) :
    c'.run.Tracked [] [] := by
  revert active
  induction acts with
  | refl => exact tracked
  | tail acts act ih => exact Run.Tracked.act ordered (Run.Sound.acts acts sound) ih act

end Acts

namespace Run

/-- What holds of a run that was `canceled` or not. The counters matter as long as steps can become
ready, and stay as they are once a run has come to its own end. -/
structure Valid (canceled : Bool) (s : Run p) : Prop where
  sound : s.Sound
  settled : s.nextStatus? = none
  phase : s.Phase canceled
  tracked : s.isActive ∨ s.record.policy = .tolerant ∧ canceled = false → s.Tracked [] []

namespace Valid

variable {canceled : Bool} {s : Run p}

theorem start (ordered : p.Ordered) {record : RunRecord} (fresh : record.Fresh)
    (stepId : Nat → Uuid) : (start p record stepId).Valid false := by
  refine ⟨start_sound fresh stepId, ?_, .start p fresh stepId, fun _ => .start record stepId⟩
  refine nextStatus?_eq_none_iff.mpr (.inr (.inr ⟨?_, ⟨0, ordered.nonempty⟩, ?_⟩))
  · simp [isActive, Run.start, fresh.status, RunStatus.isActive]
  · simp only [Run.start, step, Fin.getElem_fin, Vector.getElem_ofFn]
    split <;> simp [Step.pending, StepStatus.isTerminal]

theorem handle (ordered : p.Ordered) (valid : s.Valid canceled) (e : Event) :
    (s.handle e).2.Valid (canceled || (s.handle e).1.stops) := by
  obtain ⟨sound, settled, phase, tracked⟩ := valid
  rcases handle_cases sound settled e with ⟨c, acts, same, keeps⟩ | ⟨-, same, stops⟩
  · refine ⟨sound.handle settled e, handle_settled sound settled e, ?_, ?_⟩
    · rw [same, keeps, Bool.or_false]
      exact (phase.acts sound acts).refresh (Sound.acts acts sound) e.now
    · rw [same, keeps, Bool.or_false, refresh_policy, acts.policy_eq]
      intro live
      have after : c.run.Tracked [] [] := by
        by_cases active : s.isActive
        · refine acts.tracked ordered sound (fun active => tracked (.inl active)) ?_
          rcases live with active' | ⟨tolerant, -⟩
          · exact isActive_of_refresh active'
          · exact acts.active_of_tolerant tolerant active
        · -- A run that has come to its own end has no act left to change it.
          rcases live with active' | ⟨tolerant, kept⟩
          · exact absurd (acts.active_of (isActive_of_refresh active')) active
          · rw [acts.eq_of_ended (phase.all_ended kept active tolerant)]
            exact tracked (.inr ⟨tolerant, kept⟩)
      exact after.congr (refresh_waiting c.run e.now) fun j => .inl (by rw [step_refresh])
  · have halted := (Phase.halt s e.now).refresh (sound.stop _ e.now rfl) e.now
    refine ⟨sound.handle settled e, handle_settled sound settled e, ?_, ?_⟩
    · rwa [same, stops, Bool.or_true]
    · rw [same, stops, Bool.or_true]
      intro live
      rcases live with active | ⟨-, kept⟩
      · cases halted.kept active
      · cases kept

theorem after (ordered : p.Ordered) (valid : s.Valid canceled) (events : List Event) :
    (s.after events).Valid (canceled || (s.log events).canceled) := by
  induction events generalizing s canceled with
  | nil => simpa [Log.canceled, log] using valid
  | cons e events ih =>
    have rest := ih (valid.handle ordered e)
    rwa [Bool.or_assoc] at rest

theorem preserve_mem {P : Run p → Prop} {events : List Event} (ordered : p.Ordered)
    (valid : s.Valid canceled) (before : P s)
    (handle : ∀ s canceled, ∀ e ∈ events, s.Valid canceled → P s → P (s.handle e).2) :
    P (s.after events) := by
  induction events generalizing s canceled with
  | nil => exact before
  | cons e events ih =>
    apply ih (valid.handle ordered e) (handle s canceled e (List.mem_cons_self ..) valid before)
    exact fun s canceled e member => handle s canceled e (List.mem_cons_of_mem _ member)

/-- What each event keeps in a valid run is kept by any events. -/
theorem preserve {P : Run p → Prop} (ordered : p.Ordered) (valid : s.Valid canceled) (before : P s)
    (handle : ∀ s canceled e, s.Valid canceled → P s → P (s.handle e).2) (events : List Event) :
    P (s.after events) :=
  valid.preserve_mem ordered before fun s canceled e _ => handle s canceled e

end Valid

theorem handle_submitted {s : Run p} (sound : s.Sound) (settled : s.nextStatus? = none) (e : Event) :
    (s.handle e).2.record.submitted = s.record.submitted := by
  rcases handle_cases sound settled e with ⟨c, acts, same, -⟩ | ⟨-, same, -⟩
  · rw [same, refresh_submitted, acts.submitted_eq]
  · rw [same, refresh_submitted]
    rfl

theorem handle_policy {s : Run p} (sound : s.Sound) (settled : s.nextStatus? = none) (e : Event) :
    (s.handle e).2.record.policy = s.record.policy :=
  (congrArg RunRecord.policy (handle_submitted sound settled e) :)

theorem start_begun (record : RunRecord) (stepId : Nat → Uuid) (i : Fin p.size) :
    ((start p record stepId).step i).begun = .pending (stepId i) record.id (p.node i).id := by
  simp only [start, step, Fin.getElem_fin, Vector.getElem_ofFn]
  split <;> rfl

theorem start_id (record : RunRecord) (stepId : Nat → Uuid) (i : Fin p.size) :
    ((start p record stepId).step i).id = stepId i :=
  (congrArg Step.id (start_begun record stepId i) :)

theorem handle_begun {s : Run p} (sound : s.Sound) (settled : s.nextStatus? = none) (e : Event)
    (i : Fin p.size) : ((s.handle e).2.step i).begun = (s.step i).begun := by
  have relates : e.Relates (p.node i) fun s t => t.begun = s.begun := by
    constructor
    case refl => exact fun _ => rfl
    case trans => exact fun _ _ _ first second => second.trans first
    case change => exact fun _ _ _ _ change => change.begun_eq
    case aside => exact fun _ _ aside => aside.begun_eq
  exact relates.handle sound settled

theorem handle_id {s : Run p} (sound : s.Sound) (settled : s.nextStatus? = none) (e : Event)
    (i : Fin p.size) : ((s.handle e).2.step i).id = (s.step i).id :=
  (congrArg Step.id (handle_begun sound settled e i) :)

theorem handle_terminal {s : Run p} (sound : s.Sound) (settled : s.nextStatus? = none) (e : Event)
    {i : Fin p.size} (ended : (s.step i).status.isTerminal) :
    (s.handle e).2.step i = s.step i := by
  have relates : e.Relates (p.node i) fun s t => s.status.isTerminal → t = s := by
    constructor
    case refl => exact fun _ _ => rfl
    case change => exact fun _ _ _ _ change ended => absurd ended change.not_terminal
    case aside => exact fun _ _ aside ended => aside.eq_of_terminal ended
    case trans =>
      intro s t u first second ended
      obtain rfl := first ended
      exact second ended
  exact relates.handle sound settled ended

section After

variable {canceled : Bool} {s : Run p} (ordered : p.Ordered) (valid : s.Valid canceled)
  (events : List Event)

include ordered valid

theorem Valid.after_begun (i : Fin p.size) : ((s.after events).step i).begun = (s.step i).begun := by
  refine valid.preserve (P := fun s' => (s'.step i).begun = (s.step i).begun) ordered rfl ?_ events
  intro s' canceled e valid same
  exact (handle_begun valid.sound valid.settled e i).trans same

theorem Valid.after_id (i : Fin p.size) : ((s.after events).step i).id = (s.step i).id :=
  (congrArg Step.id (valid.after_begun ordered events i) :)

theorem Valid.after_terminal {i : Fin p.size} (ended : (s.step i).status.isTerminal) :
    (s.after events).step i = s.step i := by
  refine valid.preserve (P := fun s' => s'.step i = s.step i) ordered rfl ?_ events
  intro s' canceled e valid same
  rw [← same] at ended ⊢
  exact handle_terminal valid.sound valid.settled e ended

theorem Valid.after_submitted : (s.after events).record.submitted = s.record.submitted := by
  refine valid.preserve (P := fun s' => s'.record.submitted = s.record.submitted) ordered rfl ?_ events
  intro s' canceled e valid same
  exact (handle_submitted valid.sound valid.settled e).trans same

theorem Valid.after_policy : (s.after events).record.policy = s.record.policy :=
  (congrArg RunRecord.policy (valid.after_submitted ordered events) :)

end After

theorem valid_after (ordered : p.Ordered) {record : RunRecord} (fresh : record.Fresh)
    (stepId : Nat → Uuid) (events : List Event) :
    ((start p record stepId).after events).Valid ((start p record stepId).log events).canceled := by
  have valid := (Valid.start ordered fresh stepId).after ordered events
  rwa [Bool.false_or] at valid

theorem ids_distinct (ordered : p.Ordered) {record : RunRecord} (fresh : record.Fresh)
    (stepId : Nat → Uuid) (distinct : ∀ i j : Fin p.size, stepId i = stepId j → i = j)
    (events : List Event) (i j : Fin p.size)
    (same : (((start p record stepId).after events).step i).id =
      (((start p record stepId).after events).step j).id) : i = j := by
  have start := Valid.start ordered fresh stepId
  rw [start.after_id ordered, start.after_id ordered, start_id, start_id] at same
  exact distinct i j same

def pair (policy : FailurePolicy) : Run .pair :=
  start .pair (.queued .nil Workflow.pair.reference policy .epoch) .ofNat

end Run

end Orchestration
