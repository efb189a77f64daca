import Orchestration.Proofs.Run.Ripple

namespace Orchestration

variable {p : Plan} {now : Timestamp} {settings : Scheduling} {i : Fin p.size}

namespace Step.Aside

variable {s t : Step}

theorem grounded (aside : s.Aside now t) (grounded : ¬ s.status.isInFlight) :
    ¬ t.status.isInFlight := by
  cases aside with
  | same => exact grounded
  | wake | skip => simp [StepStatus.isInFlight]
  | stop => unfold Run.stopStep; split <;> simp_all [StepStatus.isInFlight]

theorem flying (aside : s.Aside now t) (flying : s.status.isInFlight) : t.status.isInFlight := by
  cases aside with
  | same => exact flying
  | wake pending | skip pending => rw [pending] at flying; cases flying
  | stop => unfold Run.stopStep; split <;> simp_all [StepStatus.isInFlight]

theorem retrying (aside : s.Aside now t) (retrying : s.status = .retrying) :
    t = s ∨ t.status = .skipped := by
  cases aside with
  | same => exact .inl rfl
  | wake pending | skip pending => rw [pending] at retrying; cases retrying
  | stop => simp [Run.stopStep, retrying]

theorem ready (aside : s.Aside now t) (ready : s.status = .ready) :
    t.status = .ready ∨ t.status = .skipped := by
  cases aside with
  | same => exact .inl ready
  | wake pending | skip pending => rw [pending] at ready; cases ready
  | stop => simp [Run.stopStep, ready]

theorem expired_iff {time : Timestamp} (aside : s.Aside time t) :
    (t.status.isInFlight ∧ ∃ l, t.lease = some l ∧ l.expiresAt ≤ now) ↔
      s.status.isInFlight ∧ ∃ l, s.lease = some l ∧ l.expiresAt ≤ now := by
  cases aside with
  | same => rfl
  | wake pending | skip pending => simp [pending, StepStatus.isInFlight]
  | stop =>
    unfold Run.stopStep
    split
    case h_4 | h_5 => cases s.lease <;> simp
    all_goals simp_all [StepStatus.isInFlight]

end Step.Aside

namespace Sweeping

theorem visit_elsewhere (w : Sweeping p) {j : Fin p.size} (other : i ≠ j) :
    (w.released.run.step i).Aside now ((w.visit now settings j).released.run.step i) := by
  unfold visit
  by_cases expired : w.released.run.leaseExpired now j
  · obtain ⟨flying, l, leased, past⟩ := Run.leaseExpired_iff.mp expired
    obtain ⟨t, -, same⟩ := Released.expire_eq now settings leased flying past
    have aside := w.released.step_act_aside j w.released.run.record t now i
    rw [Run.step_replace, if_neg other] at aside
    rw [if_pos expired, same]
    exact aside
  · by_cases due : w.released.run.retryDue now j
    · have aside := w.released.step_act_aside j w.released.run.record
        { w.released.run.step j with status := .ready, retryAt := none } now i
      rw [Run.step_replace, if_neg other, ← Released.promote_eq] at aside
      rw [if_neg expired, if_pos due]
      exact aside
    · rw [if_neg expired, if_neg due]
      exact .same

/-- What the end of other steps cannot change holds of a step until it is visited. -/
theorem visits_elsewhere {P : Step → Prop} (now : Timestamp) (settings : Scheduling)
    (kept : ∀ s t, P s → s.Aside now t → P t)
    {steps : List (Fin p.size)} (absent : i ∉ steps) (w : Sweeping p)
    (before : P (w.released.run.step i)) :
    P ((steps.foldl (visit now settings) w).released.run.step i) := by
  induction steps generalizing w with
  | nil => exact before
  | cons j steps ih =>
    rw [List.mem_cons, not_or] at absent
    exact ih absent.2 _ (kept _ _ before (w.visit_elsewhere absent.1))

theorem visit_change (w : Sweeping p) (expired : w.released.run.leaseExpired now i)
    (settings : Scheduling) :
    ∃ t, Change (p.node i) w.released.run.record (w.released.run.step i) (.sweep now settings)
        w.released.run.record t ∧
      t.Aside now ((w.visit now settings i).released.run.step i) := by
  obtain ⟨flying, l, leased, past⟩ := Run.leaseExpired_iff.mp expired
  obtain ⟨t, change, same⟩ := Released.expire_eq now settings leased flying past
  have aside := w.released.step_act_aside i w.released.run.record t now i
  rw [Run.step_replace_self, ← same] at aside
  unfold visit
  rw [if_pos expired]
  exact ⟨t, change, aside⟩

theorem visit_expired (w : Sweeping p) (expired : w.released.run.leaseExpired now i) :
    ¬ ((w.visit now settings i).released.run.step i).status.isInFlight := by
  obtain ⟨t, change, aside⟩ := w.visit_change expired settings
  exact aside.grounded change.grounded_of_sweep

theorem visit_due (w : Sweeping p) (due : w.released.run.retryDue now i) :
    ((w.visit now settings i).released.run.step i).status = .ready ∨
      ((w.visit now settings i).released.run.step i).status = .skipped := by
  have retrying := (Run.retryDue_iff.mp due).1
  have held : ¬ w.released.run.leaseExpired now i := by
    rw [Run.leaseExpired_iff, retrying]
    exact fun expired => nomatch expired.1
  have aside := w.released.step_act_aside i w.released.run.record
    { w.released.run.step i with status := .ready, retryAt := none } now i
  rw [Run.step_replace_self, ← Released.promote_eq] at aside
  unfold visit
  rw [if_neg held, if_pos due]
  exact aside.ready rfl

theorem visit_skipped (w : Sweeping p) (skipped : (w.released.run.step i).status = .skipped) :
    w.visit now settings i = w := by
  unfold visit
  rw [if_neg, if_neg]
  · rw [Run.retryDue_iff, skipped]
    exact fun due => nomatch due.1
  · rw [Run.leaseExpired_iff, skipped]
    exact fun expired => nomatch expired.1

theorem finRange_split (i : Fin p.size) :
    ∃ before after, List.finRange p.size = before ++ i :: after ∧ i ∉ before ∧ i ∉ after := by
  obtain ⟨before, after, split⟩ := List.append_of_mem (List.mem_finRange i)
  have distinct := List.nodup_finRange p.size
  rw [split] at distinct
  obtain ⟨-, rest, apart⟩ := List.nodup_append.mp distinct
  refine ⟨before, after, split, fun member => ?_, (List.nodup_cons.mp rest).1⟩
  exact apart i member i (List.mem_cons_self ..) rfl

end Sweeping

namespace Run

variable {s : Run p}

theorem step_sweep (s : Run p) (now : Timestamp) (settings : Scheduling) (i : Fin p.size) :
    (s.sweep now settings).2.step i =
      ((List.finRange p.size).foldl (Sweeping.visit now settings) ⟨⟨s, []⟩, 0, 0⟩).released.run.step
        i := by
  unfold sweep
  dsimp only
  split
  · exact step_refresh _ now i
  · rfl

theorem sweep_expired (settings : Scheduling) (expired : s.leaseExpired now i) :
    ¬ ((s.sweep now settings).2.step i).status.isInFlight := by
  obtain ⟨before, after, split, first, last⟩ := Sweeping.finRange_split i
  rw [step_sweep, split, List.foldl_append, List.foldl_cons]
  have kept := Sweeping.visits_elsewhere now settings
    (P := fun t => t.status.isInFlight ∧ ∃ l, t.lease = some l ∧ l.expiresAt ≤ now)
    (fun _ _ past aside => aside.expired_iff.mpr past)
    first ⟨⟨s, []⟩, 0, 0⟩ (leaseExpired_iff.mp expired)
  exact Sweeping.visits_elsewhere now settings (P := fun t => ¬ t.status.isInFlight)
    (fun _ _ grounded aside => aside.grounded grounded) last _
    (Sweeping.visit_expired _ (leaseExpired_iff.mpr kept))

theorem sweep_due (settings : Scheduling) (due : s.retryDue now i) :
    ((s.sweep now settings).2.step i).status = .ready ∨
      ((s.sweep now settings).2.step i).status = .skipped := by
  obtain ⟨before, after, split, first, last⟩ := Sweeping.finRange_split i
  rw [step_sweep, split, List.foldl_append, List.foldl_cons]
  have kept := Sweeping.visits_elsewhere now settings
    (P := fun t => (t.status = .retrying ∧ ∃ wait, t.retryAt = some wait ∧ wait ≤ now) ∨
      t.status = .skipped)
    (by
      intro t u stands aside
      rcases stands with ⟨retrying, wait⟩ | skipped
      · rcases aside.retrying retrying with rfl | skipped
        · exact .inl ⟨retrying, wait⟩
        · exact .inr skipped
      · exact .inr (by rw [aside.eq_of_terminal (by rw [skipped]; rfl), skipped]))
    first ⟨⟨s, []⟩, 0, 0⟩ (.inl (retryDue_iff.mp due))
  refine Sweeping.visits_elsewhere now settings
    (P := fun t => t.status = .ready ∨ t.status = .skipped) ?_ last _ ?_
  · intro t u stands aside
    rcases stands with ready | skipped
    · exact aside.ready ready
    · exact .inr (by rw [aside.eq_of_terminal (by rw [skipped]; rfl), skipped])
  · rcases kept with past | skipped
    · exact Sweeping.visit_due _ (retryDue_iff.mpr past)
    · rw [Sweeping.visit_skipped _ skipped]
      exact .inr skipped

end Run

end Orchestration
