import Orchestration.Proofs.Run.Call

namespace Orchestration

/-- A change to a step that waits for others. -/
inductive Ripple {p : Plan} (now : Timestamp) (s : Run p) : Run p → Prop
  | count (waiting : Vector Nat p.size) : Ripple now s { s with waiting }
  | ready (d : Fin p.size) (active : s.isActive) (pending : (s.step d).status = .pending) :
      Ripple now s (s.put d { s.step d with status := .ready })
  | skip (d : Fin p.size) (why : String) (tolerant : s.record.policy = .tolerant)
      (pending : (s.step d).status = .pending) :
      Ripple now s
        (s.put d { s.step d with status := .skipped, error := some why, endedAt := some now })

abbrev Ripples {p : Plan} (now : Timestamp) : Run p → Run p → Prop :=
  Relation.ReflTransGen (Ripple now)

def Run.collapse {p : Plan} (s : Run p) (why : String) (now : Timestamp) : Run p :=
  { s.stopSteps now with
    record := { s.record with status := .failed, error := some why, endedAt := some now } }

variable {p : Plan}

@[simp] theorem Run.step_collapse (s : Run p) (why : String) (now : Timestamp) (i : Fin p.size) :
    (s.collapse why now).step i = stopStep now (s.step i) := s.step_stopSteps now i

theorem Ripple.record {s s' : Run p} {now : Timestamp} (ripple : Ripple now s s') :
    s'.record = s.record := by
  cases ripple <;> rfl

theorem Ripples.preserve {P : Run p → Prop} {s s' : Run p} {now : Timestamp}
    (ripples : Ripples now s s') (before : P s) (ripple : ∀ s s', P s → Ripple now s s' → P s') :
    P s' := by
  induction ripples with
  | refl => exact before
  | tail _ next held => exact ripple _ _ held next

theorem Ripples.record {s s' : Run p} {now : Timestamp} (ripples : Ripples now s s') :
    s'.record = s.record :=
  ripples.preserve (P := fun s' => s'.record = s.record) rfl fun _ _ same ripple =>
    ripple.record.trans same

inductive Step.Stirred (now : Timestamp) (s : Step) : Step → Prop
  | same : Stirred now s s
  | wake (pending : s.status = .pending) : Stirred now s { s with status := .ready }
  | skip (pending : s.status = .pending) (why : String) :
      Stirred now s { s with status := .skipped, error := some why, endedAt := some now }

namespace Step.Stirred

variable {now : Timestamp} {s t u : Step}

theorem eq_of_not_pending (stirred : s.Stirred now t) (held : s.status ≠ .pending) : t = s := by
  cases stirred with
  | same => rfl
  | wake pending | skip pending => exact absurd pending held

theorem trans (first : s.Stirred now t) (second : t.Stirred now u) : s.Stirred now u := by
  cases first with
  | same => exact second
  | wake pending =>
    rw [second.eq_of_not_pending (by simp)]
    exact .wake pending
  | skip pending why =>
    rw [second.eq_of_not_pending (by simp)]
    exact .skip pending why

end Step.Stirred

theorem Ripple.stirred {s s' : Run p} {now : Timestamp} (ripple : Ripple now s s') (j : Fin p.size) :
    (s.step j).Stirred now (s'.step j) := by
  cases ripple with
  | count => exact .same
  | ready d active pending =>
    rw [Run.step_put]
    split
    · subst j
      exact .wake pending
    · exact .same
  | skip d why tolerant pending =>
    rw [Run.step_put]
    split
    · subst j
      exact .skip pending why
    · exact .same

theorem Ripples.stirred {s s' : Run p} {now : Timestamp} (ripples : Ripples now s s')
    (j : Fin p.size) : (s.step j).Stirred now (s'.step j) :=
  ripples.preserve (P := fun s' => (s.step j).Stirred now (s'.step j)) .same
    fun _ _ stirred ripple => stirred.trans (ripple.stirred j)

namespace Released

theorem settleFor_ripples (now : Timestamp) (c : Released p) (d : Fin p.size) :
    Ripples now c.run (c.settleFor d).run := by
  have counted : Ripple now c.run
      { c.run with waiting := c.run.waiting.set d (c.run.waiting[d] - 1) } := .count _
  unfold settleFor
  dsimp only
  split
  · rename_i free
    simp only [Bool.and_eq_true, decide_eq_true_eq] at free
    exact .tail (.single counted) (.ready d free.1.1 free.2)
  · exact .single counted

theorem settle_ripples (now : Timestamp) (c : Released p) (i : Fin p.size) :
    Ripples now c.run (c.settle i).run := by
  unfold settle
  induction p.dependents i generalizing c with
  | nil => exact .refl
  | cons d rest ih => exact (settleFor_ripples now c d).trans (ih (c.settleFor d))

theorem skipFor_ripples (now : Timestamp) (failed : String) (c : Released p) (d : Fin p.size)
    (tolerant : c.run.record.policy = .tolerant) :
    Ripples now c.run (skipFor now failed c d).run := by
  unfold skipFor
  split
  · rename_i pending
    have skipped : Ripple now c.run _ :=
      .skip d ("dependency '" ++ failed ++ "' failed") tolerant pending
    exact .head skipped (settle_ripples now ⟨_, c.ready⟩ d)
  · exact .refl

theorem skips_ripples (now : Timestamp) (failed : String) (c : Released p)
    (dependents : List (Fin p.size)) (tolerant : c.run.record.policy = .tolerant) :
    Ripples now c.run (dependents.foldl (skipFor now failed) c).run := by
  induction dependents generalizing c with
  | nil => exact .refl
  | cons d rest ih =>
    have skipped := skipFor_ripples now failed c d tolerant
    exact skipped.trans (ih _ (by rw [skipped.record]; exact tolerant))

theorem stepFailed_of_tolerant (c : Released p) (i : Fin p.size) (now : Timestamp)
    (tolerant : c.run.record.policy = .tolerant) :
    c.stepFailed i now = (p.dependents i).foldl (skipFor now (c.run.step i).nodeId) c := by
  simp only [stepFailed, tolerant]

theorem stepFailed_of_failFast (c : Released p) (i : Fin p.size) (now : Timestamp)
    (failFast : c.run.record.policy = .failFast) :
    ∃ why, (c.stepFailed i now).run = c.run.collapse why now := by
  simp only [stepFailed, failFast]
  exact ⟨_, rfl⟩

end Released

def Run.breaks (r : RunRecord) (t : Step) : Prop :=
  r.status.isActive ∧ r.policy = .failFast ∧ t.status = .failed

/-- An act changes one step by itself. Then ripples follow, or the run stops. -/
theorem Released.act_cases (c : Released p) (i : Fin p.size) (r : RunRecord) (t : Step)
    (now : Timestamp) :
    (¬ Run.breaks r t ∧ Ripples now (c.run.replace i r t) (c.act i r t now).run) ∨
      (Run.breaks r t ∧ ∃ why, (c.act i r t now).run = (c.run.replace i r t).collapse why now) := by
  by_cases active : r.status.isActive
  · cases status : t.status with
    | succeeded =>
      rw [act_of_succeeded c i now active status]
      exact .inl ⟨by simp [Run.breaks, status], settle_ripples now ⟨_, _⟩ i⟩
    | failed =>
      rw [act_of_failed c i now active status]
      cases policy : r.policy with
      | failFast => exact .inr ⟨⟨active, policy, status⟩, stepFailed_of_failFast _ _ _ policy⟩
      | tolerant =>
        rw [stepFailed_of_tolerant _ _ _ policy]
        exact .inl ⟨by simp [Run.breaks, policy], skips_ripples now _ ⟨_, _⟩ _ policy⟩
    | _ =>
      rw [run_act_of_open c i now (by simp [status]) (by simp [status])]
      exact .inl ⟨by simp [Run.breaks, status], .refl⟩
  · refine .inl ⟨by simp [Run.breaks, active], ?_⟩
    simp only [act, follow, Run.isActive, Run.replace_record, active]
    exact .refl

theorem Released.act_ripples (c : Released p) (i : Fin p.size) {r : RunRecord} {t : Step}
    (mild : ¬ Run.breaks r t) (now : Timestamp) :
    Ripples now (c.run.replace i r t) (c.act i r t now).run := by
  rcases c.act_cases i r t now with ⟨-, ripples⟩ | ⟨breaks, -⟩
  · exact ripples
  · exact absurd breaks mild

/-- What the end of another step may make of a step. -/
inductive Step.Aside (now : Timestamp) (s : Step) : Step → Prop
  | same : Aside now s s
  | wake (pending : s.status = .pending) : Aside now s { s with status := .ready }
  | skip (pending : s.status = .pending) (why : String) :
      Aside now s { s with status := .skipped, error := some why, endedAt := some now }
  | stop : Aside now s (Run.stopStep now s)

theorem Step.Stirred.aside {now : Timestamp} {s t : Step} (stirred : s.Stirred now t) :
    s.Aside now t := by
  cases stirred with
  | same => exact .same
  | wake pending => exact .wake pending
  | skip pending why => exact .skip pending why

namespace Step.Aside

variable {now : Timestamp} {s t : Step}

theorem begun_eq (aside : s.Aside now t) : t.begun = s.begun := by
  cases aside with
  | stop => unfold Run.stopStep; split <;> rfl
  | _ => rfl

theorem id_eq (aside : s.Aside now t) : t.id = s.id := (congrArg Step.id aside.begun_eq :)

theorem startedAt_eq (aside : s.Aside now t) : t.startedAt = s.startedAt := by
  cases aside with
  | stop => unfold Run.stopStep; split <;> rfl
  | _ => rfl

theorem eq_of_terminal (aside : s.Aside now t) (ended : s.status.isTerminal) : t = s := by
  cases aside with
  | same => rfl
  | wake pending | skip pending => rw [pending] at ended; cases ended
  | stop => unfold Run.stopStep; split <;> simp_all [StepStatus.isTerminal]

theorem lease_of_inFlight (aside : s.Aside now t) {l : Lease} (held : s.lease = some l)
    (flying : s.status.isInFlight) : t.lease = some l ∨ t.lease = some { l with abandoned := true } := by
  cases aside with
  | same => exact .inl held
  | wake pending | skip pending => rw [pending] at flying; cases flying
  | stop =>
    unfold Run.stopStep
    split
    · simp_all [StepStatus.isInFlight]
    · simp_all [StepStatus.isInFlight]
    · simp_all [StepStatus.isInFlight]
    · exact .inr (by simp [held])
    · exact .inr (by simp [held])
    all_goals exact .inl held

end Step.Aside

theorem Released.step_act_aside (c : Released p) (i : Fin p.size) (r : RunRecord) (t : Step)
    (now : Timestamp) (j : Fin p.size) :
    ((c.run.replace i r t).step j).Aside now ((c.act i r t now).run.step j) := by
  rcases c.act_cases i r t now with ⟨-, ripples⟩ | ⟨-, why, same⟩
  · exact (ripples.stirred j).aside
  · rw [same, Run.step_collapse]
    exact .stop

theorem Acts.preserve {P : Run p → Prop} {e : Event} {c c' : Released p} (acts : Acts e c c')
    (before : P c.run)
    (replace : ∀ s i r t, P s → Change (p.node i) s.record (s.step i) e r t → ¬ Run.breaks r t →
      P (s.replace i r t))
    (ripple : ∀ s s', P s → Ripple e.now s s' → P s')
    (collapse : ∀ s i r t why, P s → Change (p.node i) s.record (s.step i) e r t →
      Run.breaks r t → P ((s.replace i r t).collapse why e.now)) :
    P c'.run := by
  induction acts with
  | refl => exact before
  | tail _ act ih =>
    obtain ⟨i, r, t, change, rfl⟩ := act
    rcases Released.act_cases _ i r t e.now with ⟨mild, ripples⟩ | ⟨breaks, why, same⟩
    · exact ripples.preserve (replace _ i r t ih change mild) ripple
    · rw [same]
      exact collapse _ i r t why ih change breaks

/-- Whatever `e` may do to a step of `node`, by itself or as the end of another step, leaves it in the
relation `R` to what it was. -/
structure Event.Relates (e : Event) (node : Node) (R : Step → Step → Prop) : Prop where
  refl : ∀ s, R s s
  trans : ∀ s t u, R s t → R t u → R s u
  change : ∀ r s r' t, Change node r s e r' t → R s t
  aside : ∀ s t, s.Aside e.now t → R s t

namespace Event.Relates

variable {e : Event} {R : Step → Step → Prop} {j : Fin p.size}

theorem acts (relates : e.Relates (p.node j) R) {c c' : Released p} (acts : Acts e c c') :
    R (c.run.step j) (c'.run.step j) := by
  induction acts with
  | refl => exact relates.refl _
  | @tail c₁ _ _ act ih =>
    obtain ⟨i, r, t, change, rfl⟩ := act
    apply relates.trans _ _ _ ih
    have aside := Released.step_act_aside c₁ i r t e.now j
    rw [Run.step_replace] at aside
    split at aside
    · subst j
      exact relates.trans _ _ _ (relates.change _ _ _ _ change) (relates.aside _ _ aside)
    · exact relates.aside _ _ aside

theorem handle (relates : e.Relates (p.node j) R) {s : Run p} (sound : s.Sound)
    (settled : s.nextStatus? = none) : R (s.step j) ((s.handle e).2.step j) := by
  rcases Run.handle_cases sound settled e with ⟨c, acts, same, -⟩ | ⟨-, same, -⟩
  · rw [same, Run.step_refresh]
    exact relates.acts acts
  · rw [same, Run.step_refresh, Run.step_halted]
    exact relates.aside _ _ .stop

end Event.Relates

end Orchestration
