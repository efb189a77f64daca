import Orchestration.Proofs.Run.Valid

namespace Orchestration

theorem Step.Stirred.failed_iff {s t : Step} {now : Timestamp} (stirred : s.Stirred now t) :
    t.status = .failed ↔ s.status = .failed := by
  cases stirred with
  | same => rfl
  | wake pending | skip pending => simp [pending]

theorem Run.stopStep_failed_iff {s : Step} {now : Timestamp} :
    (stopStep now s).status = .failed ↔ s.status = .failed := by
  unfold stopStep
  split <;> simp [*]

theorem Step.again_open (s : Step) (now : Timestamp) (settings : Scheduling) :
    ¬ (s.again now settings).status.isTerminal := by
  rcases s.again_status now settings with ready | retrying
  · rw [ready]; decide
  · rw [retrying]; decide

theorem Change.ended {node : Node} {r r' : RunRecord} {s t : Step} {e : Event}
    (change : Change node r s e r' t) (ended : t.status.isTerminal) : t.endedAt = some e.now := by
  cases change with
  | lease | renew | promote => cases ended
  | retry | reclaim => exact absurd ended (Step.again_open _ _ _)
  | _ => rfl

theorem Change.sweep_of_stopped {node : Node} {r r' : RunRecord} {s t : Step} {now : Timestamp}
    {settings : Scheduling} (change : Change node r s (.sweep now settings) r' t)
    (stopped : ¬ r.status.isActive) : r' = r ∧ t.status ≠ .failed := by
  cases change with
  | expire _ _ _ _ _ _ active | reclaim _ _ _ _ _ _ active => exact absurd active stopped
  | drop | promote => exact ⟨rfl, nofun⟩

namespace Run

variable {p : Plan}

structure Intact (s : Run p) : Prop where
  active : s.isActive
  failFast : s.record.policy = .failFast
  clean : ∀ j, (s.step j).status ≠ .failed

/-- A run that failed at `now` with step `i`, the only one to fail. -/
structure BrokenBy (s : Run p) (i : Fin p.size) (now : Timestamp) : Prop where
  status : s.record.status = .failed
  ended : s.record.endedAt = some now
  last : (s.step i).endedAt = some now
  failed : ∀ j, (s.step j).status = .failed ↔ j = i

theorem Intact.act {e : Event} {c c' : Released p} (intact : c.run.Intact) (act : Act e c c') :
    c'.run.Intact ∨ ∃ i, c'.run.BrokenBy i e.now := by
  obtain ⟨i, r, t, change, rfl⟩ := act
  have failFast : r.policy = .failFast := change.policy_eq.trans intact.failFast
  have active : r.status.isActive := change.active_eq.trans intact.active
  rcases c.act_cases i r t e.now with ⟨mild, ripples⟩ | ⟨⟨-, -, fails⟩, why, same⟩
  · refine .inl ⟨?_, ?_, fun j => ?_⟩
    · rwa [isActive, ripples.record]
    · rwa [ripples.record]
    · rw [ne_eq, (ripples.stirred j).failed_iff, step_replace]
      split
      · exact fun fails => mild ⟨active, failFast, fails⟩
      · exact intact.clean j
  · have ended : t.status.isTerminal := by
      rw [fails]
      rfl
    refine .inr ⟨i, ?_⟩
    rw [same]
    refine ⟨rfl, rfl, ?_, fun j => ?_⟩
    · rw [step_collapse, step_replace_self, (.stop : t.Aside e.now _).eq_of_terminal ended]
      exact change.ended ended
    · rw [step_collapse, stopStep_failed_iff, step_replace]
      split
      · exact iff_of_true fails ‹_›
      · exact iff_of_false (intact.clean j) ‹_›

theorem BrokenBy.sweep {i : Fin p.size} {now now' : Timestamp} {settings : Scheduling}
    {c c' : Released p} (broken : c.run.BrokenBy i now') (act : Act (.sweep now settings) c c') :
    c'.run.BrokenBy i now' := by
  obtain ⟨d, r, t, change, rfl⟩ := act
  have stopped : ¬ c.run.record.status.isActive := by
    rw [broken.status]
    decide
  obtain ⟨rfl, spared⟩ := change.sweep_of_stopped stopped
  have other : i ≠ d := by
    rintro rfl
    apply change.not_terminal
    rw [(broken.failed i).mpr rfl]
    rfl
  have ripples := c.act_ripples d (r := c.run.record) (t := t) (fun breaks => stopped breaks.1) now
  -- A sweep only skips steps of a stopped run, and no other fails for it.
  have failed (j) : ((c.act d c.run.record t now).run.step j).status = .failed ↔ j = i := by
    rw [(ripples.stirred j).failed_iff, step_replace]
    split
    · subst j
      exact iff_of_false spared other.symm
    · exact broken.failed j
  have old : (c.run.replace d c.run.record t).step i = c.run.step i := by
    rw [step_replace, if_neg other]
  have kept : (c.act d c.run.record t now).run.step i = c.run.step i := by
    rw [← old]
    apply (ripples.stirred i).eq_of_not_pending
    rw [old, (broken.failed i).mpr rfl]
    decide
  show (c.act d c.run.record t now).run.BrokenBy i now'
  refine ⟨?_, ?_, ?_, failed⟩
  · rw [ripples.record]
    exact broken.status
  · rw [ripples.record]
    exact broken.ended
  · rw [kept]
    exact broken.last

theorem Intact.sweep {now : Timestamp} {settings : Scheduling} {c c' : Released p}
    (intact : c.run.Intact) (acts : Acts (.sweep now settings) c c') :
    c'.run.Intact ∨ ∃ i, c'.run.BrokenBy i now := by
  induction acts with
  | refl => exact .inl intact
  | tail _ act ih =>
    rcases ih with intact | ⟨i, broken⟩
    · exact intact.act act
    · exact .inr ⟨i, broken.sweep act⟩

theorem Phase.failed_step {canceled : Bool} {s : Run p} (phase : s.Phase canceled)
    (failed : s.record.status = .failed) (failFast : s.record.policy = .failFast) :
    canceled = false ∧ ∃ i, (s.step i).status = .failed := by
  cases phase with
  | active _ active => rw [isActive, failed] at active; cases active
  | canceling _ status | canceled _ status => cases failed.symm.trans status
  | broken kept _ _ i fails => exact ⟨kept, i, fails⟩
  | ended _ status _ clean =>
    have succeeded : s.endStatus = .succeeded := by
      dsimp only [endStatus]
      rw [if_pos (all_status_iff.mpr (clean failFast))]
    cases failed.symm.trans (status.trans succeeded)

/-- The event that fails a fail-fast run is the end of one step, which alone has failed then. -/
theorem handle_breaks {s : Run p} {canceled : Bool} (ordered : p.Ordered) (valid : s.Valid canceled)
    (active : s.isActive) (failFast : s.record.policy = .failFast) (e : Event)
    (fails : (s.handle e).2.record.status = .failed) : ∃ i, (s.handle e).2.BrokenBy i e.now := by
  have intact : s.Intact := ⟨active, failFast, fun j => (valid.phase.clean active failFast j).1⟩
  have policy : (s.handle e).2.record.policy = .failFast :=
    (handle_policy valid.sound valid.settled e).trans failFast
  obtain ⟨kept, j, failed⟩ := (valid.handle ordered e).phase.failed_step fails policy
  have refreshed {s' : Run p} (same : (s.handle e).2 = s'.refresh e.now)
      (ways : s'.Intact ∨ ∃ i, s'.BrokenBy i e.now) : ∃ i, (s.handle e).2.BrokenBy i e.now := by
    rcases ways with intact' | ⟨i, broken⟩
    · rw [same, step_refresh] at failed
      exact absurd failed (intact'.clean j)
    · refine ⟨i, ?_⟩
      rw [same, refresh_eq_self]
      · exact broken
      · exact nextStatus?_eq_none_iff.mpr (.inl (by rw [broken.status]; rfl))
  have handled := handled valid.sound valid.settled e
  generalize s.handle e = result at handled fails kept refreshed
  cases handled with
  | called call =>
    cases call with
    | heeded found change => exact refreshed rfl (intact.act (c := ⟨s, []⟩) ⟨_, _, _, change, rfl⟩)
    | ignored => rw [isActive, fails] at active; cases active
  | swept acts => exact refreshed rfl (Intact.sweep (c := ⟨s, []⟩) intact acts)
  | canceled => rw [Outcome.stops, Bool.or_true] at kept; cases kept
  | declined stopped => exact absurd active stopped

end Run

end Orchestration
