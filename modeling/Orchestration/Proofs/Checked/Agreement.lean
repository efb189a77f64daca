import Orchestration.Proofs.Checked.Program
import Orchestration.Proofs.Run.Spending

namespace Orchestration.Checked

variable {p : Orchestration.Plan} {stepId : Nat → Uuid}

def Plan.of (p : Orchestration.Plan) (stepId : Nat → Uuid) : Plan :=
  ⟨p.workflow.nodes, .of p.graph, (List.finRange p.size).map fun i : Fin p.size => (stepId i, i.val)⟩

def Run.of (s : Orchestration.Run p) : Run := ⟨s.record, s.steps.toList, s.waiting.toList, s.reserved⟩

def Released.of (c : Orchestration.Released p) : Released := ⟨.of c.run, c.ready⟩

theorem Plan.node_of (i : Fin p.size) : (Plan.of p stepId).nodes[(i : Nat)]? = some (p.node i) :=
  List.getElem?_eq_getElem i.isLt

theorem Plan.dependencies_of (i : Fin p.size) :
    (Plan.of p stepId).graph.dependencies[(i : Nat)]? = some ((p.dependencies i).map (·.val)) :=
  Graph.getElem?_rows _ i

theorem Plan.dependents_of (i : Fin p.size) :
    (Plan.of p stepId).graph.dependents[(i : Nat)]? = some ((p.dependents i).map (·.val)) :=
  Graph.getElem?_rows _ i

namespace Run

variable (s : Orchestration.Run p)

theorem step_of (i : Fin p.size) : (of s).steps[(i : Nat)]? = some (s.step i) :=
  getElem?_toList s.steps i

theorem modifyStep_of (i : Fin p.size) (f : Step → Step) :
    (of s).modifyStep i f = some (of (s.modifyStep i f)) := by
  rw [modifyStep, step_of]
  simp [of, Orchestration.Run.modifyStep, Vector.toList_set]

theorem releaseLease_of (i : Fin p.size) :
    (of s).releaseLease (.of p stepId) i = some (of (s.releaseLease i)) := by
  rw [releaseLease, step_of, Orchestration.Run.releaseLease]
  cases held : (s.step i).lease with
  | none => simp [held]
  | some l =>
    simp only [Option.bind_eq_bind, Option.bind_some, held, Plan.node_of, modifyStep_of]
    rfl

theorem stopSteps_of (now : Timestamp) : (of s).stopSteps now = of (s.stopSteps now) := by
  simp [stopSteps, of, Orchestration.Run.stopSteps, Orchestration.Run.steps_eq_map, List.ofFn_eq_map,
    Vector.toList_ofFn]

theorem refresh_of (now : Timestamp) : (of s).refresh now = of (s.refresh now) := by
  have next : (of s).nextStatus? = s.nextStatus? := rfl
  unfold refresh Orchestration.Run.refresh
  rw [next]
  cases s.nextStatus? <;> rfl

end Run

theorem nextAttempt_eq_some {attempt limit : UInt32} (left : attempt < limit) :
    nextAttempt attempt = some (attempt + 1) := by
  have room := limit.toNat_lt
  rw [UInt32.lt_iff_toNat_lt] at left
  rw [nextAttempt, if_pos (by omega)]

example : nextAttempt 4294967295 = none := by decide

theorem lastAttempt_eq_some {attempt limit : UInt32} (left : attempt < limit) :
    lastAttempt (attempt + 1) = some attempt := by
  have room := limit.toNat_lt
  have next : (attempt + 1).toNat = attempt.toNat + 1 := by
    rw [UInt32.lt_iff_toNat_lt] at left
    rw [UInt32.toNat_add, UInt32.toNat_one, Nat.mod_eq_of_lt (by omega)]
  rw [lastAttempt, if_pos (by omega), UInt32.add_sub_cancel]

theorem ofInt?_sub {a b : Cents} (lower : -9223372036854775808 ≤ a.value - b.value)
    (upper : a.value - b.value ≤ 9223372036854775807) :
    Cents.ofInt? (a.value - b.value) = some (a - b) := by
  rw [Cents.ofInt?, dif_pos ⟨lower, upper⟩]
  congr 1
  apply Cents.ext
  rw [Cents.value_sub]
  show a.value - b.value = _
  omega

/-- Neither difference leaves its range: a run is never charged more than its budget allows. -/
theorem chargeFor_eq_some {r : RunRecord} (least : 0 ≤ r.cost.value) (most : r.cost.value ≤ r.ceiling)
    (cost : Cents) : chargeFor r cost = some (r.chargeFor cost) := by
  have upper := (max cost 0).upper
  have actual : 0 ≤ (max cost 0).value := by
    rw [Cents.value_max, Cents.value_zero]
    omega
  unfold chargeFor RunRecord.chargeFor
  unfold RunRecord.ceiling at most
  cases budget : r.budget with
  | none =>
    have none : max cost 0 - max cost 0 = 0 := by
      apply Cents.ext
      rw [Cents.value_sub, Cents.value_zero]
      omega
    simp only [Option.bind_eq_bind, Option.bind_some]
    rw [ofInt?_sub (by omega) (by omega), none]
    rfl
  | some b =>
    have lower := b.lower
    have upper' := b.upper
    have charged : 0 ≤ (min (max cost 0) (max (b - r.cost) 0)).value ∧
        (min (max cost 0) (max (b - r.cost) 0)).value ≤ (max cost 0).value := by
      rw [Cents.value_min, Cents.value_max (b - r.cost), Cents.value_zero]
      omega
    simp only [budget] at most
    simp only [Option.bind_eq_bind]
    rw [ofInt?_sub (by omega) (by omega), Option.bind_some, Option.bind_some,
      ofInt?_sub (by omega) (by omega)]
    rfl

/-- A run that had paid more than its budget would be charged beyond the range of an amount. -/
example : chargeFor { RunRecord.queued .nil Workflow.pair.reference .tolerant .epoch with
    budget := some (.clamp (-9223372036854775808)), cost := .clamp 1 } 0 = none := by rfl

namespace Released

variable (c : Orchestration.Released p)

theorem step_of (i : Fin p.size) : (of c).run.steps[(i : Nat)]? = some (c.run.step i) :=
  Run.step_of c.run i

theorem modifyStep_of (i : Fin p.size) (f : Step → Step) :
    (of c).modifyStep i f = some (of (c.modifyStep i f)) := by
  simp only [modifyStep, of, Run.modifyStep_of, Option.bind_eq_bind, Option.bind_some]
  rfl

theorem push_of (i : Fin p.size) : (of c).push i = some (of (c.push i)) := by
  simp only [push, step_of, Option.bind_eq_bind, Option.bind_some]
  rfl

theorem settleFor_of {d : Fin p.size} (waits : 0 < c.run.waiting.get d) :
    (of c).settleFor d = some (of (c.settleFor d)) := by
  obtain ⟨left, count⟩ := Nat.exists_eq_succ_of_ne_zero (Nat.ne_of_gt waits)
  have less : c.run.waiting[d] - 1 = left := by
    show c.run.waiting.get d - 1 = left
    omega
  have found : (of c).run.waiting[(d : Nat)]? = some left.succ := by
    rw [← count]
    exact getElem?_toList c.run.waiting d
  let counted : Orchestration.Released p :=
    { c with run := { c.run with waiting := c.run.waiting.set d left } }
  have down : { of c with run := { (of c).run with waiting := (of c).run.waiting.set d left } } =
      of counted := by
    simp [of, Run.of, counted, Vector.toList_set]
  have step : (of c).run.steps[(d : Nat)]? = some (counted.run.step d) := Run.step_of c.run d
  unfold settleFor Orchestration.Released.settleFor
  simp only [less, found, step, down, Nat.ppred_succ, Option.bind_eq_bind, Option.bind_some]
  show (if counted.run.isActive && decide (left = 0) && decide ((counted.run.step d).status = .pending)
    then _ else _) = _
  split
  · rw [modifyStep_of, Option.bind_some, push_of]
  · rfl

theorem refresh_of (now : Timestamp) : (of c).refresh now = of (c.refresh now) := by
  simp only [refresh, of, Run.refresh_of]
  rfl

theorem retry_of {i : Fin p.size} (left : (c.run.step i).attempt < (p.node i).retryLimit)
    (now : Timestamp) (settings : Scheduling) :
    (of c).retry i now settings = some (of (c.retry i now settings)) := by
  unfold retry Orchestration.Released.retry
  simp only [step_of, nextAttempt_eq_some left, lastAttempt_eq_some left, Option.bind_eq_bind,
    Option.bind_some]
  split
  · rw [modifyStep_of, Option.bind_some, push_of]
    rfl
  · rw [modifyStep_of]
    rfl

section Spreading

variable {c : Orchestration.Released p} {owed doomed : List (Fin p.size)} {i d : Fin p.size}

theorem settle_of (tracked : c.run.Tracked (p.dependents i) doomed) (active : c.run.isActive) :
    (of c).settle (.of p stepId) i = some (of (c.settle i)) := by
  simp only [settle, Plan.dependents_of, Option.bind_eq_bind, Option.bind_some]
  refine (foldlM_eq_some (P := fun owed c => c.run.Tracked owed doomed ∧ c.run.isActive) ?_
    ⟨tracked, active⟩).1
  rintro d owed c ⟨tracked, active⟩
  -- The counter of a step that is still to be told includes what it is told of.
  have counted := tracked.waiting d
  rw [List.count_cons_self] at counted
  refine ⟨settleFor_of c (by omega), tracked.settleFor active, ?_⟩
  rwa [Orchestration.Run.isActive, Orchestration.Released.settleFor_record]

theorem skipFor_of (ordered : p.Ordered) (now : Timestamp) (failed : String)
    (tracked : c.run.Tracked [] (d :: doomed)) (active : c.run.isActive) :
    skipFor (.of p stepId) now failed (of c) d =
      some (of (Orchestration.Released.skipFor now failed c d)) := by
  unfold skipFor Orchestration.Released.skipFor
  simp only [step_of, Option.bind_eq_bind, Option.bind_some]
  split
  · rename_i pending
    rw [modifyStep_of, Option.bind_some]
    exact settle_of (tracked.skip ordered pending rfl) active
  · rfl

theorem stepFailed_of (ordered : p.Ordered) (now : Timestamp)
    (tracked : c.run.Tracked [] (p.dependents i)) (active : c.run.isActive) :
    (of c).stepFailed (.of p stepId) i now = some (of (c.stepFailed i now)) := by
  have record : (of c).run.record = c.run.record := rfl
  cases policy : c.run.record.policy with
  | failFast =>
    simp only [stepFailed, Orchestration.Released.stepFailed, step_of, record, policy,
      Option.bind_eq_bind, Option.bind_some]
    rw [show (of c).run = Run.of c.run from rfl, Run.stopSteps_of]
    rfl
  | tolerant =>
    rw [Orchestration.Released.stepFailed_of_tolerant c i now policy]
    simp only [stepFailed, step_of, record, policy, Plan.dependents_of, Option.bind_eq_bind,
      Option.bind_some]
    refine (foldlM_eq_some (P := fun doomed c => c.run.Tracked [] doomed ∧ c.run.isActive ∧
      c.run.record.policy = .tolerant) ?_ ⟨tracked, active, policy⟩).1
    rintro d doomed c' ⟨tracked, active, tolerant⟩
    have same := (Orchestration.Released.skipFor_ripples now (c.run.step i).nodeId c' d tolerant).record
    refine ⟨skipFor_of ordered now _ tracked active, tracked.skipFor ordered now _ active, ?_⟩
    rw [Orchestration.Run.isActive, same]
    exact ⟨active, tolerant⟩

end Spreading

end Released

end Orchestration.Checked
