import Orchestration.Proofs.Fleet.Reaching

namespace Orchestration

/-- How many acts without a look-up can come next, before one with look-ups or a wait. -/
def Duty.freeActs (now : Nat) : Duty → Nat
  | .idle _ wake => if now < wake.time then 0 else 2
  | .round _ (.ended _) => 1
  | .round _ (.renewed _ _) => 2
  | .round _ (.working _ _ _) => 1
  | .round _ _ => 0
  | .asleep _ wake => if now < wake.time then 0 else 1
  | .sweep _ .ended => 2
  | .sweep _ _ => 0

theorem Duty.freeActs_le (now : Nat) (duty : Duty) : duty.freeActs now ≤ 2 := by
  unfold freeActs
  split
  case h_1 | h_6 => split <;> omega
  all_goals omega

theorem Duty.cost_of_alarm {duty : Duty} (wakes : duty.alarm?.isSome) : duty.cost = 0 := by
  cases duty with
  | idle | asleep => rfl
  | round worker stage =>
    cases stage with
    | working => rfl
    | _ => cases wakes
  | sweep => cases wakes

theorem Duty.waits_of_no_act (now : Nat) {duty : Duty} (wakes : duty.alarm?.isSome)
    (none : duty.freeActs now = 0) : duty.alarm?.any (now < ·.time) := by
  cases duty with
  | idle | asleep =>
    simp only [freeActs] at none
    split at none
    · rename_i early
      exact decide_eq_true early
    · cases none
  | round worker stage =>
    cases stage with
    | working => cases none
    | _ => cases wakes
  | sweep => cases wakes

/-- What remains to be done in a turn at most. Look-ups that were made before save at most one act. -/
def Shift.effort (now : Nat) (s : Shift) : Nat :=
  3 * s.stamina + s.duty.freeActs now + if s.paid = 0 ∨ s.stamina = 0 then 0 else 3

theorem Shift.effort_le (now : Nat) (s : Shift) : s.effort now ≤ 4 * s.stamina + 4 := by
  have free := s.duty.freeActs_le now
  unfold effort
  split <;> omega

namespace Fleet

section Step

variable (f : Fleet) (site : Site) {duty : Duty} {shift shift' : Shift}

/-- An act that takes no look-up leads to a wait, or nearer to an act with look-ups. -/
theorem step_free (due : ¬ duty.alarm?.any (f.now < ·.time)) (free : duty.cost = 0) :
    (f.step site duty).1.freeActs f.now < duty.freeActs f.now := by
  cases duty with
  | idle worker wake =>
    have due : ¬ f.now < wake.time := by simpa [Duty.alarm?] using due
    cases first : f.service.broker.queue.pop? <;>
      simp [step, seek, first, Duty.freeActs, due]
  | asleep interval wake =>
    have due : ¬ f.now < wake.time := by simpa [Duty.alarm?] using due
    simp [step, Duty.freeActs, due]
  | round worker stage =>
    cases stage with
    | ended result =>
      have awake : f.now < f.now + site.pollInterval := by unfold Site.pollInterval; omega
      simp [step, Duty.freeActs, alarm, awake]
    | renewed job finish => simp [step, advance, Duty.freeActs]
    | working job heartbeat finish =>
      by_cases late : finish.time ≤ f.now <;> simp [step, advance, late, Duty.freeActs]
    | asking | renewing | reporting => cases free
    | starting job =>
      have free : (if job.delayMs = 0 then 2 else 1) = 0 := free
      split at free <;> cases free
  | sweep interval patrol =>
    cases patrol with
    | ended =>
      simp only [step, Duty.freeActs]
      split <;> omega
    | listing | checking | sweeping => cases free

theorem step_effort (due : ¬ shift.isWaiting f.now) (paid : shift.pay? = some shift') :
    Shift.effort f.now { shift' with duty := (f.step site shift'.duty).1 } < shift.effort f.now := by
  have due : ¬ shift.duty.alarm?.any (f.now < ·.time) := by
    unfold Shift.isWaiting at due
    simp_all
  have bound := (f.step site shift.duty).1.freeActs_le f.now
  have free := step_free f site due
  rw [Shift.pay?_duty paid]
  unfold Shift.pay? at paid
  dsimp only at paid
  split at paid
  · rename_i wakes
    cases paid
    have lower := free (Duty.cost_of_alarm wakes)
    simp only [Shift.effort]
    omega
  · split at paid
    · cases paid
    · rename_i enough
      cases paid
      simp only [Bool.or_eq_true, decide_eq_true_eq, not_or, Nat.not_lt] at enough
      obtain ⟨some, owed⟩ := enough
      simp only [Shift.effort, true_or, if_true, some, or_false]
      by_cases costs : shift.duty.cost = 0
      · have lower := free costs
        split <;> omega
      · split <;> omega

end Step

theorem act_ends (site : Site) {fuel : Nat} {shift : Shift} {f : Fleet}
    (enough : shift.effort f.now ≤ fuel) :
    (act site fuel shift f).1.isWaiting (act site fuel shift f).2.now ∨
      (act site fuel shift f).1.pay? = none := by
  induction fuel generalizing shift f with
  | zero =>
    unfold act
    unfold Shift.effort at enough
    -- No effort is left: what has an alarm waits for it, and the rest has no stamina to pay with.
    by_cases wakes : shift.duty.alarm?.isSome
    · have waits := Duty.waits_of_no_act f.now wakes (by omega)
      simp [Shift.isWaiting, waits]
    · have spent : shift.stamina = 0 := by omega
      simp [Shift.pay?, wakes, spent]
  | succ fuel ih =>
    unfold act
    split
    · exact .inl ‹_›
    · rename_i due
      split
      · exact .inr ‹_›
      · rename_i shift' paid
        have lower := step_effort f site due paid
        have now := (step_leads f site shift'.duty).now
        have less : Shift.effort (f.step site shift'.duty).2.now
            { shift' with duty := (f.step site shift'.duty).1 } ≤ fuel := by
          rw [now]
          omega
        exact ih less

/-- A turn ends where the shift waits or its stamina does not suffice, and never for want of fuel. -/
theorem turn_ends (site : Site) (shift : Shift) (f : Fleet) :
    let (shift', f') := act site (4 * shift.stamina + 4) shift f
    shift'.isWaiting f'.now ∨ shift'.pay? = none :=
  act_ends site (shift.effort_le f.now)

end Fleet

end Orchestration
