import Orchestration.Proofs.Run.Reserving

namespace Orchestration

def Step.Stopped (s : Step) : Prop :=
  s.status.isTerminal ∨ s.status.isInFlight ∧ ∃ l, s.lease = some l ∧ l.abandoned

theorem Step.Sound.to_stopped {s : Step} (sound : s.Sound false) : s.Stopped := by
  rcases sound.stopped rfl with ended | flying
  · exact .inl ended
  · have leased := sound.leased
    rw [flying, Option.isSome_iff_exists] at leased
    obtain ⟨l, held⟩ := leased
    exact .inr ⟨flying, l, held, sound.kept l held⟩

theorem Change.ends {node : Node} {r r' : RunRecord} {s t : Step} {e : Event}
    (change : Change node r s e r' t) (sound : s.Sound false) (stopped : ¬ r.status.isActive) :
    t.status.isTerminal ∧ t.attempt = s.attempt := by
  cases change with
  | lease _ _ _ _ active | reject _ _ _ _ active | retry _ _ _ _ _ _ _ _ _ active
  | expire _ _ _ _ _ _ active | reclaim _ _ _ _ _ _ active => exact absurd active stopped
  | renew l _ _ held _ _ kept => cases kept.symm.trans (sound.kept l held)
  | promote _ _ _ retrying =>
    rcases sound.stopped rfl with ended | flying
    · rw [retrying] at ended; cases ended
    · rw [retrying] at flying; cases flying
  | abandon | succeed | fail | drop => exact ⟨rfl, rfl⟩

namespace Run

variable {p : Plan} {s : Run p}

structure Stopped (s : Run p) : Prop where
  inactive : ¬ s.isActive
  steps : ∀ i, (s.step i).Stopped

theorem Sound.step_of_inactive (sound : s.Sound) (stopped : ¬ s.isActive) (i : Fin p.size) :
    (s.step i).Sound false := by
  have kept := sound i
  rwa [Bool.eq_false_of_not_eq_true stopped] at kept

theorem Sound.to_stopped (sound : s.Sound) (stopped : ¬ s.isActive) : s.Stopped :=
  ⟨stopped, fun i => (sound.step_of_inactive stopped i).to_stopped⟩

theorem act_of_stopped {e : Event} {c c' : Released p} (act : Act e c c') (sound : c.run.Sound)
    (stopped : ¬ c.run.isActive) :
    c'.ready = c.ready ∧ ∀ j, (c'.run.step j).attempt = (c.run.step j).attempt := by
  obtain ⟨i, r, t, change, rfl⟩ := act
  obtain ⟨ended, same⟩ := change.ends (sound.step_of_inactive stopped i) stopped
  have inactive : ¬ r.status.isActive := by
    rw [change.active_eq]
    exact stopped
  have held : t.status ≠ .ready := by
    intro ready
    rw [ready] at ended
    cases ended
  rw [Released.act_of_stopped c i e.now inactive held]
  exact ⟨rfl, step_replace_congr Step.attempt same⟩

theorem acts_of_stopped {e : Event} {c c' : Released p} (acts : Acts e c c') (sound : c.run.Sound)
    (stopped : ¬ c.run.isActive) :
    c'.ready = c.ready ∧ ∀ j, (c'.run.step j).attempt = (c.run.step j).attempt := by
  induction acts with
  | refl => exact ⟨rfl, fun _ => rfl⟩
  | @tail c₁ c₂ acts act ih =>
    have inactive : ¬ c₁.run.isActive := fun active => stopped (Acts.active_of acts active)
    obtain ⟨ready, attempt⟩ := act_of_stopped act (Sound.acts acts sound) inactive
    exact ⟨ready.trans ih.1, fun j => (attempt j).trans (ih.2 j)⟩

theorem handle_of_stopped (sound : s.Sound) (settled : s.nextStatus? = none) (stopped : ¬ s.isActive)
    (e : Event) :
    (s.handle e).1.ready = [] ∧ ∀ j, ((s.handle e).2.step j).attempt = (s.step j).attempt := by
  have handled := handled sound settled e
  generalize s.handle e = result at handled
  cases handled with
  | called call =>
    cases call with
    | ignored _ none => exact ⟨none, fun _ => rfl⟩
    | heeded _ change _ _ named =>
      obtain ⟨ready, attempt⟩ := act_of_stopped (c := ⟨s, []⟩) ⟨_, _, _, change, rfl⟩ sound stopped
      simp only [step_refresh]
      exact ⟨named.trans ready, attempt⟩
  | swept acts named =>
    obtain ⟨ready, attempt⟩ := acts_of_stopped acts sound stopped
    simp only [step_refresh]
    exact ⟨named.trans ready, attempt⟩
  | canceled active => exact absurd active stopped
  | declined => exact ⟨rfl, fun _ => rfl⟩

theorem handle_inactive (sound : s.Sound) (settled : s.nextStatus? = none) (stopped : ¬ s.isActive)
    (e : Event) : ¬ (s.handle e).2.isActive := by
  intro active
  rcases handle_cases sound settled e with ⟨c, acts, same, -⟩ | ⟨was, -⟩
  · rw [same] at active
    exact stopped (acts.active_of (isActive_of_refresh active))
  · exact stopped was

theorem grant_of_stopped (stopped : ¬ s.isActive) {e : Event} {g : Grant}
    (answer : (s.handle e).1 = .granted (.ok g)) : g = .stale := by
  cases e with
  | grant id worker lease now settings =>
    simp only [handle, grant, stopped] at answer
    cases found : s.indexOf? id with
    | none => simp [found] at answer
    | some i => simpa [found, eq_comm] using answer
  | _ => cases answer

theorem renew_of_stopped (sound : s.Sound) (stopped : ¬ s.isActive) {id : Uuid} {i : Fin p.size}
    {worker : String} {now : Timestamp} (found : s.indexOf? id = some i)
    (held : s.heldBy i worker now) (settings : Scheduling) :
    let after := s.handle (.renew id worker now settings)
    (∃ status, after.1 = .renewed (.ok (.abandoned status))) ∧ (after.2.step i).status = .skipped := by
  have heeds := renew_heeds found held settings
  have call := renew_call (s := s) id worker now settings
  generalize s.handle (.renew id worker now settings) = after at heeds call
  cases call with
  | ignored silent => cases heeds.symm.trans silent
  | @heeded j r t o found' change tells =>
    obtain rfl : i = j := by
      rw [change.id_of_renew, found] at found'
      exact Option.some.inj found'
    obtain ⟨ended, -⟩ := change.ends (sound.step_of_inactive stopped i) stopped
    cases tells with
    | renewed l' kept =>
      cases change with
      | renew => cases ended
      | abandon => cases kept
    | abandoned status skipped =>
      have aside := Released.step_act_aside ⟨s, []⟩ i r t now i
      rw [step_replace_self] at aside
      simp only [step_refresh, Event.now]
      rw [aside.eq_of_terminal ended]
      exact ⟨⟨status, rfl⟩, skipped⟩

/-- In a run that goes on no lease is marked as abandoned. Once it has stopped it never goes on again,
whatever comes in. -/
theorem stopped_after {w : Workflow} (built : Plan.ofWorkflow w = .ok p) {record : RunRecord}
    (fresh : record.Fresh) (stepId : Nat → Uuid) (events : List Event) :
    let s := (start p record stepId).after events
    (s.isActive → ∀ i l, (s.step i).lease = some l → l.abandoned = false) ∧
      (¬ s.isActive → ∀ later,
        let s' := s.after later
        s'.Stopped ∧ (∀ i, (s'.step i).attempt = (s.step i).attempt) ∧
          (∀ e g, (s'.handle e).1 = .granted (.ok g) → g = .stale) ∧
          (∀ e, (s'.handle e).1.ready = []) ∧
          ∀ id i l now settings, s'.indexOf? id = some i → (s'.step i).lease = some l →
            now < l.expiresAt →
            let after := s'.handle (.renew id l.worker now settings)
            (∃ status, after.1 = .renewed (.ok (.abandoned status))) ∧
              (after.2.step i).status = .skipped) := by
  intro s
  have ordered := Plan.ordered built
  have valid := valid_after ordered fresh stepId events
  refine ⟨fun active i l held => ?_, fun stopped later => ?_⟩
  · have kept := (valid.sound i).kept l held
    rwa [active] at kept
  · intro s'
    have valid' := valid.after ordered later
    have drained : ¬ s'.isActive ∧ ∀ i, (s'.step i).attempt = (s.step i).attempt := by
      refine valid.preserve (P := fun s' => ¬ s'.isActive ∧ ∀ i, (s'.step i).attempt = (s.step i).attempt)
        ordered ⟨stopped, fun _ => rfl⟩ ?_ later
      intro s canceled e valid ⟨stopped, same⟩
      obtain ⟨-, attempt⟩ := handle_of_stopped valid.sound valid.settled stopped e
      exact ⟨handle_inactive valid.sound valid.settled stopped e, fun i => (attempt i).trans (same i)⟩
    obtain ⟨inactive, attempts⟩ := drained
    refine ⟨valid'.sound.to_stopped inactive, attempts, fun e g => grant_of_stopped inactive, ?_, ?_⟩
    · exact fun e => (handle_of_stopped valid'.sound valid'.settled inactive e).1
    · intro id i l now settings found leased alive
      have flying : (s'.step i).status.isInFlight := by
        rw [← (valid'.sound i).leased, leased]
        rfl
      have held := heldBy_iff.mpr ⟨flying, l, leased, rfl, alive⟩
      exact renew_of_stopped valid'.sound inactive found held settings

/-- A worker that renews its lease after its run was canceled loses the step. -/
theorem stopped_after_cancel :
    let grant : Event := .grant (.ofNat 0) "worker" (.ofNat 2) .epoch default
    let leased := (pair .tolerant).after [grant]
    let canceled := (pair .tolerant).after [grant, .cancel .epoch]
    let answer := canceled.handle (.renew (.ofNat 0) "worker" .epoch default)
    leased.isActive ∧ (∃ l, (leased.step (0 : Fin 2)).lease = some l ∧ l.abandoned = false) ∧
      ¬ canceled.isActive ∧ canceled.Stopped ∧
      (∃ status, answer.1 = .renewed (.ok (.abandoned status))) ∧
      (answer.2.step (0 : Fin 2)).status = .skipped := by
  intro grant leased canceled answer
  have fresh := RunRecord.queued_fresh .nil Workflow.pair.reference .tolerant .epoch none [] .null
  have active : leased.isActive := by decide +kernel
  have inactive : ¬ canceled.isActive := by decide +kernel
  obtain ⟨l, held⟩ : ∃ l, (leased.step (0 : Fin 2)).lease = some l :=
    Option.isSome_iff_exists.mp (by decide +kernel)
  have kept := (stopped_after Plan.pair_built fresh .ofNat [grant]).1 active (0 : Fin 2) l held
  obtain ⟨left, taken⟩ : ∃ left, (canceled.step (0 : Fin 2)).lease = some left :=
    Option.isSome_iff_exists.mp (by decide +kernel)
  have alive : (canceled.step (0 : Fin 2)).lease.all fun l =>
      l.worker = "worker" ∧ Timestamp.epoch < l.expiresAt := by
    decide +kernel
  rw [taken, Option.all_some, decide_eq_true_eq] at alive
  obtain ⟨holder, alive⟩ := alive
  have found : canceled.indexOf? (.ofNat 0) = some (0 : Fin 2) := by rfl
  obtain ⟨stopped, -, -, -, lost⟩ :=
    (stopped_after Plan.pair_built fresh .ofNat [grant, .cancel .epoch]).2 inactive []
  have answered := lost (.ofNat 0) (0 : Fin 2) left .epoch default found taken alive
  rw [holder] at answered
  exact ⟨active, ⟨l, held, kept⟩, inactive, stopped, answered⟩

end Run

end Orchestration
