import Orchestration.Proofs.Run.Ripple

namespace Orchestration

namespace Step.Sound

variable {active : Bool} {s : Step} {now : Timestamp}

theorem stop (sound : s.Sound active) : (Run.stopStep now s).Sound false := by
  unfold Run.stopStep
  cases status : s.status with
  | pending | ready | retrying =>
    exact .of_unleased (sound.unleased (by rw [status]; rfl)) rfl (by simp) fun _ => rfl
  | dispatched | running =>
    have leased := sound.leased
    rw [status] at leased
    refine ⟨by simp [leased, StepStatus.isInFlight], by simp, ?_, fun _ => .inr rfl⟩
    intro l held
    obtain ⟨l', -, rfl⟩ := Option.map_eq_some_iff.mp held
    rfl
  | succeeded | failed | skipped =>
    refine .of_unleased (sound.unleased (by rw [status]; rfl)) (by rw [status]; rfl) ?_ ?_
    · simp [status]
    · simp [status, StepStatus.isTerminal]

theorem wake (sound : s.Sound true) (pending : s.status = .pending) :
    Sound true { s with status := .ready } :=
  .of_unleased (sound.unleased (by rw [pending]; rfl)) rfl (by simp) (by simp)

theorem skip (sound : s.Sound active) (pending : s.status = .pending) (why : String) :
    Sound active { s with status := .skipped, error := some why, endedAt := some now } :=
  .of_unleased (sound.unleased (by rw [pending]; rfl)) rfl (by simp) fun _ => rfl

theorem of_terminal (sound : s.Sound active) (ended : s.status.isTerminal) (active' : Bool) :
    s.Sound active' := by
  have grounded : s.status.isInFlight = false := by
    cases status : s.status <;> simp_all [StepStatus.isTerminal, StepStatus.isInFlight]
  exact .of_unleased (sound.unleased grounded) grounded sound.waits fun _ => ended

end Step.Sound

namespace Run

variable {p : Plan}

theorem start_sound {record : RunRecord} (fresh : record.Fresh) (stepId : Nat → Uuid) :
    (start p record stepId).Sound := by
  intro i
  have active : (start p record stepId).isActive = true := by
    simp [isActive, start, fresh.status, RunStatus.isActive]
  rw [active]
  simp only [step, start, Fin.getElem_fin, Vector.getElem_ofFn]
  split <;> exact .of_unleased rfl rfl (by simp [Step.pending]) (by simp)

namespace Sound

variable {s : Run p}

theorem put (sound : s.Sound) {i : Fin p.size} {t : Step} (new : t.Sound s.isActive) :
    (s.put i t).Sound := by
  intro j
  rw [step_put]
  split
  · exact new
  · exact sound j

theorem replace (sound : s.Sound) {i : Fin p.size} {e : Event} {r : RunRecord} {t : Step}
    (change : Change (p.node i) s.record (s.step i) e r t) : (s.replace i r t).Sound := by
  have active : (s.replace i r t).isActive = s.isActive := change.active_eq
  intro j
  rw [active, step_replace]
  split
  · have new := change.sound (sound i)
    rwa [change.active_eq] at new
  · exact sound j

theorem ripple (sound : s.Sound) {s' : Run p} {now : Timestamp} (ripple : Ripple now s s') :
    s'.Sound := by
  cases ripple with
  | count => exact sound
  | ready d active pending =>
    have old := sound d
    rw [active] at old
    refine sound.put ?_
    rw [active]
    exact old.wake pending
  | skip d why tolerant pending => exact sound.put ((sound d).skip pending why)

theorem stop (sound : s.Sound) (r : RunRecord) (now : Timestamp)
    (stopped : r.status.isActive = false) :
    Sound { s.stopSteps now with record := r } := by
  intro i
  have new : (stopStep now (s.step i)).Sound false := (sound i).stop
  simpa [isActive, stopped, step, stopSteps] using new

theorem refresh (sound : s.Sound) (now : Timestamp) : (s.refresh now).Sound := by
  unfold Run.refresh
  cases next : s.nextStatus? with
  | none => exact sound
  | some status =>
    intro i
    rcases nextStatus?_eq_some_iff.mp next with ⟨canceling, grounded, rfl⟩ | ⟨active, ended, rfl⟩
    · have old := sound i
      have stopped : s.isActive = false := by simp [isActive, canceling, RunStatus.isActive]
      rw [stopped] at old
      exact old
    · exact (sound i).of_terminal (ended i) _

theorem acts {e : Event} {c c' : Released p} (acts : Acts e c c') (sound : c.run.Sound) :
    c'.run.Sound := by
  refine acts.preserve sound ?_ ?_ ?_
  · exact fun s i r t sound change _ => sound.replace change
  · exact fun s s' sound ripple => sound.ripple ripple
  · exact fun s i r t why sound change _ => (sound.replace change).stop _ _ rfl

theorem handle (sound : s.Sound) (settled : s.nextStatus? = none) (e : Event) :
    (s.handle e).2.Sound := by
  rcases handle_cases sound settled e with ⟨c, acts, same, -⟩ | ⟨-, same, -⟩
  · rw [same]
    exact (Sound.acts acts sound).refresh e.now
  · rw [same]
    exact (sound.stop _ e.now rfl).refresh e.now

end Sound

theorem handle_settled {s : Run p} (sound : s.Sound) (settled : s.nextStatus? = none) (e : Event) :
    (s.handle e).2.nextStatus? = none := by
  rcases handle_cases sound settled e with ⟨c, -, same, -⟩ | ⟨-, same, -⟩
  · rw [same]
    exact refresh_settled c.run e.now
  · rw [same]
    exact refresh_settled _ e.now

end Run

end Orchestration
