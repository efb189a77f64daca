import Orchestration.Proofs.Run.Stopped
import Orchestration.Proofs.Run.Sweep
import Orchestration.Proofs.Run.Waking

namespace Orchestration

variable {p : Plan} {now : Timestamp} {settings : Scheduling} {i : Fin p.size}

theorem Change.skips {node : Node} {r r' : RunRecord} {s t : Step}
    (change : Change node r s (.sweep now settings) r' t) (sound : s.Sound false)
    (stopped : ¬ r.status.isActive) : t.status = .skipped := by
  cases change with
  | drop => rfl
  | expire _ _ _ _ _ _ active | reclaim _ _ _ _ _ _ active => exact absurd active stopped
  | promote _ _ _ retrying =>
    rcases sound.stopped rfl with ended | flying
    · rw [retrying] at ended
      cases ended
    · rw [retrying] at flying
      cases flying

namespace Sweeping

theorem leaseExpired_visit (w : Sweeping p) {j : Fin p.size} (other : i ≠ j) :
    (w.visit now settings j).released.run.leaseExpired now i = w.released.run.leaseExpired now i := by
  rw [Bool.eq_iff_iff, Run.leaseExpired_iff, Run.leaseExpired_iff]
  exact (w.visit_elsewhere other).expired_iff

theorem visit_count (w : Sweeping p) (i : Fin p.size) :
    (w.visit now settings i).expired =
      w.expired + if w.released.run.leaseExpired now i then 1 else 0 := by
  unfold visit
  split
  · rfl
  · split <;> rfl

theorem visits_count (now : Timestamp) (settings : Scheduling) {steps : List (Fin p.size)}
    (distinct : steps.Nodup) (w : Sweeping p) :
    (steps.foldl (visit now settings) w).expired =
      w.expired + steps.countP (w.released.run.leaseExpired now) := by
  induction steps generalizing w with
  | nil => rfl
  | cons i steps ih =>
    obtain ⟨new, distinct⟩ := List.nodup_cons.mp distinct
    have same : steps.countP ((w.visit now settings i).released.run.leaseExpired now) =
        steps.countP (w.released.run.leaseExpired now) := by
      refine List.countP_congr fun j member => ?_
      rw [w.leaseExpired_visit (ne_of_mem_of_not_mem member new)]
    rw [List.foldl_cons, ih distinct, same, visit_count, List.countP_cons]
    omega

end Sweeping

namespace Acts

variable {c c' : Released p}

theorem grounded (acts : Acts (.sweep now settings) c c')
    (grounded : ¬ (c.run.step i).status.isInFlight) : ¬ (c'.run.step i).status.isInFlight := by
  induction acts with
  | refl => exact grounded
  | @tail c₁ c₂ acts act ih =>
    obtain ⟨j, r, t, change, rfl⟩ := act
    have aside := c₁.step_act_aside j r t now i
    refine aside.grounded ?_
    rw [Run.step_replace]
    split
    · exact change.grounded_of_sweep
    · exact ih

theorem skips (acts : Acts (.sweep now settings) c c') (sound : c.run.Sound)
    (stopped : ¬ c.run.isActive)
    (held : (c.run.step i).status.isInFlight ∨ (c.run.step i).status = .skipped) :
    (c'.run.step i).status.isInFlight ∨ (c'.run.step i).status = .skipped := by
  induction acts with
  | refl => exact held
  | @tail c₁ c₂ acts act ih =>
    have inactive : ¬ c₁.run.isActive := fun active => stopped (Acts.active_of acts active)
    have sound : c₁.run.Sound := Run.Sound.acts acts sound
    obtain ⟨j, r, t, change, rfl⟩ := act
    have skipped := change.skips (sound.step_of_inactive inactive j) inactive
    have inactive' : ¬ r.status.isActive := by
      rw [change.active_eq]
      exact inactive
    have same := Released.act_of_stopped c₁ j (t := t) now inactive' (by simp [skipped])
    dsimp only [Event.now]
    rw [same, Run.step_replace]
    split
    · exact .inr skipped
    · exact ih

end Acts

namespace Run

variable {s : Run p}

theorem Reserved.idle (reserved : s.Reserved) (idle : ∀ i, ¬ (s.step i).status.isInFlight) :
    s.reserved = 0 := by
  have none : s.underWay = 0 := by
    unfold underWay
    simp only [idle, Bool.false_eq_true, if_false, Finset.sum_const_zero]
  have least := reserved.least
  have most := reserved.most
  apply Cents.ext
  rw [Cents.value_zero]
  omega

def AllExpired (s : Run p) (now : Timestamp) : Prop :=
  ∀ i l, (s.step i).lease = some l → l.expiresAt ≤ now

theorem allExpired_iff : s.AllExpired now ↔ ∀ i, (s.step i).lease.all (·.expiresAt ≤ now) := by
  simp [AllExpired, Option.all_eq_true]

theorem AllExpired.leaseExpired (expired : s.AllExpired now) (sound : s.Sound) (i : Fin p.size) :
    s.leaseExpired now i = (s.step i).lease.isSome := by
  rw [Bool.eq_iff_iff, leaseExpired_iff, (sound i).leased]
  refine ⟨And.left, fun flying => ⟨flying, ?_⟩⟩
  have leased := (sound i).leased
  rw [flying, Option.isSome_iff_exists] at leased
  obtain ⟨l, held⟩ := leased
  exact ⟨l, held, expired i l held⟩

theorem sweep_expired_count (s : Run p) (now : Timestamp) (settings : Scheduling) :
    (s.sweep now settings).1.expired = (List.finRange p.size).countP (s.leaseExpired now) := by
  have counted := Sweeping.visits_count now settings (List.nodup_finRange p.size) ⟨⟨s, []⟩, 0, 0⟩
  rw [Nat.zero_add] at counted
  exact counted

theorem sweep_drains (sound : s.Sound) (settled : s.nextStatus? = none) (expired : s.AllExpired now)
    (settings : Scheduling) (i : Fin p.size) :
    ¬ ((s.sweep now settings).2.step i).status.isInFlight := by
  by_cases flying : (s.step i).status.isInFlight
  · apply sweep_expired
    rw [expired.leaseExpired sound, (sound i).leased, flying]
  · obtain ⟨c, acts, same, -⟩ := sweep_acts settled now settings
    rw [same, step_refresh]
    exact Acts.grounded acts flying

theorem sweep_skips (sound : s.Sound) (settled : s.nextStatus? = none) (stopped : ¬ s.isActive)
    (expired : s.AllExpired now) (settings : Scheduling) {i : Fin p.size}
    (flying : (s.step i).status.isInFlight) :
    ((s.sweep now settings).2.step i).status = .skipped := by
  have grounded := sweep_drains sound settled expired settings i
  obtain ⟨c, acts, same, -⟩ := sweep_acts settled now settings
  rw [same, step_refresh] at grounded ⊢
  exact (Acts.skips acts sound stopped (.inl flying)).resolve_left grounded

theorem sweep_cancels (sound : s.Sound) (settled : s.nextStatus? = none)
    (canceling : s.record.status = .canceling) (expired : s.AllExpired now) (settings : Scheduling) :
    (s.sweep now settings).2.record.status = .canceled ∧
      (s.sweep now settings).2.record.endedAt = some now := by
  have stopped : ¬ s.isActive := by
    rw [isActive, canceling]
    decide
  have drained := sweep_drains sound settled expired settings
  obtain ⟨c, acts, same, -⟩ := sweep_acts settled now settings
  simp only [same, step_refresh] at drained ⊢
  have still := (Acts.status_of_stopped acts stopped).trans canceling
  have next : c.run.nextStatus? = some .canceled :=
    nextStatus?_eq_some_iff.mpr (.inl ⟨still, drained, rfl⟩)
  simp only [refresh, next, and_self]

structure Drains (s : Run p) (now : Timestamp) (found : Sweep) (s' : Run p) : Prop where
  skipped : ∀ i, (s.step i).status.isInFlight → (s'.step i).status = .skipped
  reserved : s'.reserved = 0
  expired : found.expired = s.steps.toList.countP (·.lease.isSome)
  ready : found.ready = []
  canceled : s.record.status = .canceling →
    s'.record.status = .canceled ∧ s'.record.endedAt = some now

theorem Valid.drains {canceled : Bool} (valid : s.Valid canceled) (stopped : ¬ s.isActive)
    (expired : s.AllExpired now) (reserved : (s.sweep now settings).2.Reserved) :
    s.Drains now (s.sweep now settings).1 (s.sweep now settings).2 := by
  obtain ⟨sound, settled, -, -⟩ := valid
  constructor
  case skipped => exact fun i => sweep_skips sound settled stopped expired settings
  case reserved => exact reserved.idle (sweep_drains sound settled expired settings)
  case expired =>
    rw [sweep_expired_count, steps_eq_map, List.countP_map]
    exact List.countP_congr fun i _ => by rw [expired.leaseExpired sound]; rfl
  case ready => exact (handle_of_stopped sound settled stopped (.sweep now settings)).1
  case canceled => exact fun canceling => sweep_cancels sound settled canceling expired settings

/-- After any events, let all leases have expired. A sweep of a run that has stopped skips what is under
way. A sweep of one that goes on, when all waits are over too, leaves nothing under way, and no step
that waits to be tried once more. -/
theorem drained_after {w : Workflow} (built : Plan.ofWorkflow w = .ok p) {record : RunRecord}
    (fresh : record.Fresh) (stepId : Nat → Uuid) (events : List Event) (now : Timestamp)
    (settings : Scheduling) :
    let s := (start p record stepId).after events
    let found := (s.sweep now settings).1
    let s' := (s.sweep now settings).2
    s.AllExpired now →
      (s.record.status = .canceling ∨ s.record.status.isTerminal → s.Drains now found s') ∧
        (s.isActive → (∀ i wait, (s.step i).retryAt = some wait → wait ≤ now) → ∀ i,
          ¬ (s'.step i).status.isInFlight ∧
            ((s.step i).status = .retrying →
              (s'.step i).status = .ready ∨ (s'.step i).status = .skipped)) := by
  intro s found s' expired
  have ordered := Plan.ordered built
  have start := Valid.start ordered fresh stepId
  have valid : s.Valid _ := valid_after ordered fresh stepId events
  refine ⟨fun ended => ?_, fun active waited i => ⟨?_, fun retrying => ?_⟩⟩
  · have stopped : ¬ s.isActive := by
      unfold isActive
      rcases ended with canceling | ended
      · simp [canceling, RunStatus.isActive]
      · cases status : s.record.status <;> simp_all [RunStatus.isActive, RunStatus.isTerminal]
    have reserved := (start.after_reserved (Plan.estimate_nonneg built) ordered
      (start_funded fresh stepId).1 (start_reserved record stepId) (events ++ [.sweep now settings])).2
    rw [after_append] at reserved
    exact valid.drains stopped expired reserved
  · exact sweep_drains valid.sound valid.settled expired settings i
  · obtain ⟨wait, waits⟩ := Option.isSome_iff_exists.mp ((valid.sound i).waits retrying)
    exact sweep_due settings (retryDue_iff.mpr ⟨retrying, wait, waits, waited i wait waits⟩)

/-- Two steps under way whose run is canceled, and the same two where the first waits to be tried once
more. It is ready after the wait, until the second fails and ends the run. -/
theorem drained_after_expiry :
    let settings : Scheduling := { (default : Scheduling) with retryBaseDelayMs := 1000 }
    let run : Run .uneven :=
      start .uneven (.queued .nil Workflow.uneven.reference .failFast .epoch) .ofNat
    let grants : List Event :=
      [.grant (.ofNat 0) "worker" (.ofNat 2) .epoch settings,
        .grant (.ofNat 1) "worker" (.ofNat 3) .epoch settings]
    let canceled := run.after (grants ++ [.cancel .epoch])
    let active := run.after
      (grants ++ [.accept (.ofNat 0) (Report.failed (.ofNat 2) "no" 0) .epoch settings])
    let now := Timestamp.epoch.after (seconds 1800)
    canceled.AllExpired now ∧ canceled.record.status = .canceling ∧
      (canceled.sweep now settings).1.expired = 2 ∧
      canceled.Drains now (canceled.sweep now settings).1 (canceled.sweep now settings).2 ∧
      active.AllExpired now ∧ active.isActive ∧
      (∀ i wait, (active.step i).retryAt = some wait → wait ≤ now) ∧
      (active.step (0 : Fin 2)).status = .retrying ∧
      ∀ i, ¬ ((active.sweep now settings).2.step i).status.isInFlight ∧
        ((active.step i).status = .retrying →
          ((active.sweep now settings).2.step i).status = .ready ∨
            ((active.sweep now settings).2.step i).status = .skipped) := by
  intro settings run grants canceled active now
  have fresh := RunRecord.queued_fresh .nil Workflow.uneven.reference .failFast .epoch none [] .null
  have stopped := drained_after Plan.uneven_built fresh .ofNat (grants ++ [.cancel .epoch]) now
    settings
  have goes := drained_after Plan.uneven_built fresh .ofNat
    (grants ++ [.accept (.ofNat 0) (Report.failed (.ofNat 2) "no" 0) .epoch settings]) now settings
  have expired : canceled.AllExpired now := allExpired_iff.mpr (by decide +kernel)
  have canceling : canceled.record.status = .canceling := by decide +kernel
  have expired' : active.AllExpired now := allExpired_iff.mpr (by decide +kernel)
  have isActive : active.isActive := by decide +kernel
  have waited : ∀ i : Fin 2, (active.step i).retryAt.all (· ≤ now) := by decide +kernel
  have waited (i) (wait) (waits : (active.step i).retryAt = some wait) : wait ≤ now := by
    simpa [waits] using waited i
  exact ⟨expired, canceling, by decide +kernel, (stopped expired).1 (.inl canceling), expired', isActive,
    waited, by decide +kernel, (goes expired').2 isActive waited⟩

end Run

end Orchestration
