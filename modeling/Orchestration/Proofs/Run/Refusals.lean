import Orchestration.Proofs.Run.Valid

namespace Orchestration

def Outcome.declines : Outcome → Bool
  | .granted (.error _) | .granted (.ok .stale) | .renewed (.error _) | .accepted (.error _)
  | .accepted (.ok (.duplicate _)) | .accepted (.ok (.stale _)) | .canceled false => true
  | _ => false

namespace Run

variable {p : Plan} {s : Run p} {id : Uuid} {now : Timestamp} {settings : Scheduling} {why : Refusal}

theorem grant_declined {worker : String} {lease : Uuid}
    (declined : (Outcome.granted (s.grant id worker lease now settings).1).declines) :
    (s.grant id worker lease now settings).2 = s := by
  unfold grant at *
  split
  · rfl
  · rename_i i found
    simp only [found] at declined
    split
    · rfl
    · rename_i free
      rw [if_neg free] at declined
      cases budget : s.record.overBudget? s.reserved (p.node i) with
      | none | some =>
        rw [budget] at declined
        cases declined

theorem grant_of_error {worker : String} {lease : Uuid}
    (refused : (s.grant id worker lease now settings).1 = .error why) :
    (s.grant id worker lease now settings).2 = s :=
  grant_declined (by rw [refused]; rfl)

theorem heldBy_of_renewed {worker : String} {renewal : Renewal}
    (renewed : (s.renew id worker now settings).1 = .ok renewal) :
    ∃ i, s.indexOf? id = some i ∧ s.heldBy i worker now := by
  cases found : s.indexOf? id with
  | none =>
    simp only [renew, found] at renewed
    cases renewed
  | some i =>
    by_cases held : s.heldBy i worker now
    · exact ⟨i, rfl, held⟩
    · simp only [renew, found, held, Bool.not_false, if_true] at renewed
      cases renewed

theorem renew_refused {worker : String} (refused : (s.renew id worker now settings).1 = .error why) :
    (s.renew id worker now settings).2 = s ∧
      (why = .missing (.step id) ∨ why = .leaseLost id worker) := by
  cases found : s.indexOf? id with
  | none =>
    simp only [renew, found] at refused ⊢
    exact ⟨trivial, .inl (Except.error.inj refused).symm⟩
  | some i =>
    by_cases held : s.heldBy i worker now
    · obtain ⟨flying, l, leased, rfl, alive⟩ := heldBy_iff.mp held
      rw [renew_eq found flying leased alive] at refused
      split at refused <;> cases refused
    · simp only [renew, found, held, Bool.not_false, if_true] at refused ⊢
      exact ⟨trivial, .inr (Except.error.inj refused).symm⟩

theorem renew_of_error {worker : String} (refused : (s.renew id worker now settings).1 = .error why) :
    (s.renew id worker now settings).2 = s :=
  (renew_refused refused).1

theorem accept_declined {report : Report}
    (declined : (Outcome.accepted (s.accept id report now settings).1).declines) :
    (s.accept id report now settings).2 = s := by
  unfold accept at *
  dsimp only at *
  split
  · rfl
  · rename_i i found
    simp only [found] at declined
    split
    · rfl
    · rename_i waits
      rw [if_neg waits] at declined
      split
      · rfl
      · rename_i accepted
        rw [if_neg accepted] at declined
        cases declined

theorem accept_of_error {report : Report} (refused : (s.accept id report now settings).1 = .error why) :
    (s.accept id report now settings).2 = s :=
  accept_declined (by rw [refused]; rfl)

theorem handle_declined {e : Event} (declined : (s.handle e).1.declines) : (s.handle e).2 = s := by
  cases e with
  | grant step worker lease now settings => exact grant_declined declined
  | renew step worker now settings =>
    cases refused : (s.renew step worker now settings).1 with
    | error why => exact renew_of_error refused
    | ok renewal =>
      simp only [handle, refused] at declined
      cases declined
  | accept step report now settings => exact accept_declined declined
  | sweep => cases declined
  | cancel now =>
    simp only [handle, cancel_eq] at declined ⊢
    split
    · rename_i active
      rw [if_pos active] at declined
      cases declined
    · rfl

structure Renews (s : Run p) (i : Fin p.size) (deadline : Timestamp) (l : Lease) (s' : Run p) : Prop where
  held : (s.step i).status.isInFlight
  lease : ∃ old, (s.step i).lease = some old ∧ l = { old with expiresAt := deadline }
  only : s' = s.modifyStep i fun step =>
    { step with
      status := if step.status = .dispatched then .running else step.status
      lease := some l }

theorem renews {worker : String} {l : Lease} {s' : Run p}
    (renewed : s.renew id worker now settings = (.ok (.renewed l), s')) :
    ∃ i, s.indexOf? id = some i ∧ s.Renews i (now.after (settings.ttl (p.node i))) l s' := by
  obtain ⟨i, found, held⟩ := heldBy_of_renewed (congrArg Prod.fst renewed)
  obtain ⟨flying, old, leased, rfl, alive⟩ := heldBy_iff.mp held
  rw [renew_eq found flying leased alive] at renewed
  split at renewed
  · cases renewed
  · cases renewed
    have running : (if (s.step i).status = .dispatched then .running else (s.step i).status) =
        StepStatus.running := by
      cases status : (s.step i).status <;> simp_all [StepStatus.isInFlight]
    refine ⟨i, found, flying, ⟨old, leased, rfl⟩, ?_⟩
    rw [modifyStep_eq_put, running]

/-- A call that is declined leaves the run as it was. A renewal is declined only for want of the step
or of the lease, and where it is heeded the run is the same but for that step's status and the
deadline of its lease. -/
theorem declined_unchanged (s : Run p) :
    (∀ e, (s.handle e).1.declines → (s.handle e).2 = s) ∧
      (∀ e what, (s.handle e).1 ≠ .renewed (.error (.internal what))) ∧
      ∀ id worker now settings l s',
        s.handle (.renew id worker now settings) = (.renewed (.ok (.renewed l)), s') →
        ∃ i, s.indexOf? id = some i ∧ s.Renews i (now.after (settings.ttl (p.node i))) l s' := by
  refine ⟨fun e => handle_declined, ?_, ?_⟩
  · intro e what refused
    cases e with
    | renew step worker now settings =>
      have refused : (s.renew step worker now settings).1 = .error (.internal what) :=
        Outcome.renewed.inj refused
      rcases (renew_refused refused).2 with missing | lost
      · cases missing
      · cases lost
    | _ => cases refused
  · intro id worker now settings l s' renewed
    apply renews
    rcases same : s.renew id worker now settings with ⟨result, left⟩
    simp only [handle, same] at renewed
    cases renewed
    rfl

/-- A report that quotes another lease, and the heartbeat of the worker that holds the lease. -/
theorem declined_unchanged_stale :
    let s := (pair .tolerant).after [.grant (.ofNat 0) "worker" (.ofNat 2) .epoch default]
    let late : Event := .accept (.ofNat 0) (Report.succeeded (.ofNat 3) .null 0) .epoch default
    let beat := Timestamp.epoch.after (seconds 5)
    let l : Lease := ⟨.ofNat 2, "worker", beat.after (seconds 1800), false⟩
    let s' := (s.handle (.renew (.ofNat 0) "worker" beat default)).2
    (s.handle late).1.declines ∧ (s.handle late).2 = s ∧
      (∀ e what, (s.handle e).1 ≠ .renewed (.error (.internal what))) ∧
      s.handle (.renew (.ofNat 0) "worker" beat default) = (.renewed (.ok (.renewed l)), s') ∧
      ∃ i, s.indexOf? (.ofNat 0) = some i ∧
        s.Renews i (beat.after (Scheduling.ttl default (Plan.pair.node i))) l s' := by
  intro s late beat l s'
  obtain ⟨unchanged, answered, renews⟩ := declined_unchanged s
  have declined : (s.handle late).1.declines := by decide +kernel
  have renewed : s.handle (.renew (.ofNat 0) "worker" beat default) =
      (.renewed (.ok (.renewed l)), s') := by rfl
  exact ⟨declined, unchanged late declined, answered, renewed, renews _ _ _ _ _ _ renewed⟩

end Run

end Orchestration
