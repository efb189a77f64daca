import Orchestration.Proofs.Run.Sweep
import Orchestration.Proofs.Timestamp
import Mathlib.Data.List.Basic

namespace Orchestration

variable {now : Timestamp} {settings : Scheduling}

namespace Step

def Due (now : Timestamp) (s : Step) : Prop :=
  (s.status.isInFlight ∧ ∃ l, s.lease = some l ∧ l.expiresAt ≤ now) ∨
    (s.status = .retrying ∧ ∃ wait, s.retryAt = some wait ∧ wait ≤ now)

variable {s t : Step}

theorem not_due_of_status (grounded : ¬ s.status.isInFlight) (awake : s.status ≠ .retrying) :
    ¬ s.Due now := by
  rintro (⟨flying, -⟩ | ⟨retrying, -⟩)
  · exact grounded flying
  · exact awake retrying

theorem Aside.not_due {time : Timestamp} (aside : s.Aside time t) (early : ¬ s.Due now) :
    ¬ t.Due now := by
  cases aside with
  | same => exact early
  | wake | skip => exact not_due_of_status (by simp [StepStatus.isInFlight]) (by simp)
  | stop =>
    unfold Run.stopStep
    split
    case h_4 | h_5 => simpa [Due, *] using early
    case h_6 | h_7 | h_8 => exact early
    all_goals exact not_due_of_status (by simp [StepStatus.isInFlight]) (by simp)

theorem again_not_due (early : now < .latest) (s : Step) (settings : Scheduling) :
    ¬ (s.again now settings).Due now := by
  unfold again
  dsimp only
  split
  · exact not_due_of_status (by simp [StepStatus.isInFlight]) (by simp)
  · rename_i delayed
    rintro (⟨flying, -⟩ | ⟨-, wait, same, past⟩)
    · cases flying
    · have positive : 0 < millis (settings.retryDelayMs s.attempt) := by
        unfold millis
        omega
      have later := Timestamp.lt_after early positive
      rw [Option.some.inj same] at later
      exact Int.not_lt.mpr past later

end Step

theorem Change.not_due {node : Node} {r r' : RunRecord} {s t : Step}
    (change : Change node r s (.sweep now settings) r' t) (early : now < .latest) : ¬ t.Due now := by
  cases change with
  | reclaim => exact Step.again_not_due early _ settings
  | drop | expire | promote =>
    exact Step.not_due_of_status (by simp [StepStatus.isInFlight]) (by simp)

variable {p : Plan} {i : Fin p.size}

theorem Run.due_iff {s : Run p} :
    (s.step i).Due now ↔ s.leaseExpired now i ∨ s.retryDue now i := by
  rw [leaseExpired_iff, retryDue_iff]
  rfl

theorem Run.overdue_iff {s : Run p} : s.overdue now ↔ ∃ i, (s.step i).Due now := by
  simp [overdue, due_iff]

namespace Sweeping

variable {w : Sweeping p}

theorem visit_of_not_due (idle : ¬ (w.released.run.step i).Due now) (settings : Scheduling) :
    w.visit now settings i = w := by
  rw [Run.due_iff, not_or] at idle
  unfold visit
  rw [if_neg idle.1, if_neg idle.2]

theorem visit_counts (due : (w.released.run.step i).Due now) (settings : Scheduling) :
    w.expired + w.promoted < (w.visit now settings i).expired + (w.visit now settings i).promoted := by
  rw [Run.due_iff] at due
  unfold visit
  split
  · exact Nat.add_lt_add_right (Nat.lt_succ_self _) _
  · rename_i held
    rw [if_pos (due.resolve_left held)]
    exact Nat.lt_succ_self _

theorem visit_not_due (early : now < .latest) (w : Sweeping p) (settings : Scheduling)
    (i : Fin p.size) : ¬ ((w.visit now settings i).released.run.step i).Due now := by
  by_cases expired : w.released.run.leaseExpired now i
  · obtain ⟨t, change, aside⟩ := w.visit_change expired settings
    exact aside.not_due (change.not_due early)
  · by_cases due : w.released.run.retryDue now i
    · have status : _ ∨ ((w.visit now settings i).released.run.step i).status = .skipped :=
        w.visit_due due
      refine Step.not_due_of_status ?_ ?_
      · rcases status with ready | skipped <;> simp [*, StepStatus.isInFlight]
      · rcases status with ready | skipped <;> simp [*]
    · have idle : ¬ (w.released.run.step i).Due now := by
        rw [Run.due_iff, not_or]
        exact ⟨expired, due⟩
      rwa [visit_of_not_due idle]

theorem visits_cases (now : Timestamp) (settings : Scheduling) (steps : List (Fin p.size))
    (w : Sweeping p) :
    let w' := steps.foldl (visit now settings) w
    (w' = w ∧ ∀ i ∈ steps, ¬ (w.released.run.step i).Due now) ∨
      w.expired + w.promoted < w'.expired + w'.promoted := by
  induction steps generalizing w with
  | nil => exact .inl ⟨rfl, nofun⟩
  | cons i steps ih =>
    by_cases due : (w.released.run.step i).Due now
    · have counted := visit_counts due settings
      rcases ih (w.visit now settings i) with ⟨same, -⟩ | more
      · exact .inr (by rwa [List.foldl_cons, same])
      · exact .inr (Nat.lt_trans counted more)
    · have same := visit_of_not_due due settings
      rw [List.foldl_cons, same]
      refine (ih w).imp_left fun ⟨kept, idle⟩ => ⟨kept, fun j member => ?_⟩
      rcases List.mem_cons.mp member with rfl | member
      · exact due
      · exact idle j member

end Sweeping

namespace Run

variable {s : Run p}

structure Swept (s : Run p) (now : Timestamp) (settings : Scheduling) : Prop where
  idle : ¬ s.overdue now → s.sweep now settings = (⟨0, 0, []⟩, s)
  busy : s.overdue now → 1 ≤ (s.sweep now settings).1.expired + (s.sweep now settings).1.promoted
  done : now < .latest → ¬ (s.sweep now settings).2.overdue now
  again : now < .latest → ∀ settings',
    (s.sweep now settings).2.sweep now settings' = (⟨0, 0, []⟩, (s.sweep now settings).2)

theorem sweep_of_not_overdue (idle : ¬ s.overdue now) (settings : Scheduling) :
    s.sweep now settings = (⟨0, 0, []⟩, s) := by
  have none (i) : ¬ (s.step i).Due now := fun due => idle (overdue_iff.mpr ⟨i, due⟩)
  have same : (List.finRange p.size).foldl (Sweeping.visit now settings) ⟨⟨s, []⟩, 0, 0⟩ =
      ⟨⟨s, []⟩, 0, 0⟩ := List.foldl_fixed' (fun i => Sweeping.visit_of_not_due (none i) settings) _
  simp only [sweep, same]
  rfl

theorem sweep_counts (overdue : s.overdue now) (settings : Scheduling) :
    1 ≤ (s.sweep now settings).1.expired + (s.sweep now settings).1.promoted := by
  obtain ⟨i, due⟩ := overdue_iff.mp overdue
  rcases Sweeping.visits_cases now settings (List.finRange p.size) ⟨⟨s, []⟩, 0, 0⟩ with
    ⟨-, idle⟩ | counted
  · exact absurd due (idle i (List.mem_finRange i))
  · exact counted

theorem sweep_not_overdue (early : now < .latest) (s : Run p) (settings : Scheduling) :
    ¬ (s.sweep now settings).2.overdue now := by
  rw [overdue_iff]
  rintro ⟨i, due⟩
  obtain ⟨before, after, split, -, last⟩ := Sweeping.finRange_split i
  rw [step_sweep, split, List.foldl_append, List.foldl_cons] at due
  refine Sweeping.visits_elsewhere now settings (P := fun t => ¬ t.Due now) ?_ last _ ?_ due
  · exact fun _ _ idle aside => aside.not_due idle
  · exact Sweeping.visit_not_due early _ settings i

theorem swept (s : Run p) (now : Timestamp) (settings : Scheduling) : s.Swept now settings where
  idle idle := sweep_of_not_overdue idle settings
  busy overdue := sweep_counts overdue settings
  done early := sweep_not_overdue early s settings
  again early settings' := sweep_of_not_overdue (sweep_not_overdue early s settings) settings'

end Run

end Orchestration
