import Orchestration.Run.Transition

namespace Orchestration

theorem StepStatus.not_isTerminal_of_isInFlight {status : StepStatus}
    (flying : status.isInFlight) : ¬ status.isTerminal := by
  cases status <;> simp_all [isInFlight, isTerminal]

theorem RunStatus.not_isTerminal_of_isActive {status : RunStatus} (active : status.isActive) :
    ¬ status.isTerminal := by
  cases status <;> simp_all [isActive, isTerminal]

/-- What a submission fixes of a record. -/
def RunRecord.submitted (r : RunRecord) : RunRecord :=
  { r with status := .queued, cost := 0, error := none, startedAt := none, endedAt := none }

def Step.begun (s : Step) : Step := .pending s.id s.runId s.nodeId

namespace Run

variable {p : Plan}

def put (s : Run p) (i : Fin p.size) (t : Step) : Run p := s.modifyStep i fun _ => t

theorem modifyStep_eq_put (s : Run p) (i : Fin p.size) (f : Step → Step) :
    s.modifyStep i f = s.put i (f (s.step i)) := rfl

theorem step_put (s : Run p) (i j : Fin p.size) (t : Step) :
    (s.put i t).step j = if j = i then t else s.step j := by
  simp only [step, put, modifyStep, Fin.getElem_fin, Vector.getElem_set]
  by_cases same : j = i
  · subst same; simp
  · simp [same, Fin.val_inj, Ne.symm same]

@[simp] theorem step_put_self (s : Run p) (i : Fin p.size) (t : Step) :
    (s.put i t).step i = t := by simp [step_put]

theorem step_put_congr {α : Type} {s : Run p} {i : Fin p.size} {t : Step} (f : Step → α)
    (same : f t = f (s.step i)) (j : Fin p.size) : f ((s.put i t).step j) = f (s.step j) := by
  rw [step_put]
  split
  · subst j
    exact same
  · rfl

theorem step_put_of_ne (s : Run p) {i j : Fin p.size} (t : Step) (other : j ≠ i) :
    (s.put i t).step j = s.step j := by simp [step_put, other]

@[simp] theorem put_put (s : Run p) (i : Fin p.size) (t u : Step) :
    (s.put i t).put i u = s.put i u := by simp [put, modifyStep]

@[simp] theorem put_record (s : Run p) (i : Fin p.size) (t : Step) :
    (s.put i t).record = s.record := rfl

@[simp] theorem put_waiting (s : Run p) (i : Fin p.size) (t : Step) :
    (s.put i t).waiting = s.waiting := rfl

@[simp] theorem put_reserved (s : Run p) (i : Fin p.size) (t : Step) :
    (s.put i t).reserved = s.reserved := rfl

theorem releaseLease_eq (s : Run p) (i : Fin p.size) {l : Lease} (held : (s.step i).lease = some l) :
    s.releaseLease i = { s.put i { s.step i with lease := none } with
      reserved := max (s.reserved - (p.node i).estimatedCost) 0 } := by
  simp only [releaseLease, held, modifyStep_eq_put]

theorem step_releaseLease {s : Run p} {i : Fin p.size} :
    (s.releaseLease i).step i = { s.step i with lease := none } := by
  unfold releaseLease
  cases held : (s.step i).lease with
  | none => simp [← held]
  | some l => exact step_put_self s i _

@[simp] theorem step_stopSteps (s : Run p) (now : Timestamp) (i : Fin p.size) :
    (s.stopSteps now).step i = stopStep now (s.step i) := by
  simp [stopSteps, step]

theorem steps_eq_map (s : Run p) : s.steps.toList = (List.finRange p.size).map s.step := by
  refine List.ext_getElem (by simp) fun n _ _ => ?_
  simp [step]

theorem mem_steps {s : Run p} {t : Step} : t ∈ s.steps.toList ↔ ∃ i, s.step i = t := by
  rw [Vector.mem_toList_iff, Vector.mem_iff_getElem]
  constructor
  · intro ⟨i, bound, same⟩
    exact ⟨⟨i, bound⟩, same⟩
  · intro ⟨i, same⟩
    exact ⟨i, i.isLt, same⟩

theorem forall_steps {s : Run p} {P : Step → Prop} :
    (∀ t ∈ s.steps.toList, P t) ↔ ∀ i, P (s.step i) :=
  ⟨fun all i => all _ (mem_steps.mpr ⟨i, rfl⟩), fun all t member => by
    obtain ⟨i, rfl⟩ := mem_steps.mp member
    exact all i⟩

theorem exists_steps {s : Run p} {P : Step → Prop} :
    (∃ t ∈ s.steps.toList, P t) ↔ ∃ i, P (s.step i) := by
  constructor
  · intro ⟨t, member, holds⟩
    obtain ⟨i, rfl⟩ := mem_steps.mp member
    exact ⟨i, holds⟩
  · intro ⟨i, holds⟩
    exact ⟨_, mem_steps.mpr ⟨i, rfl⟩, holds⟩

theorem indexOf?_eq_some_iff {s : Run p} {id : Uuid} {i : Fin p.size} :
    s.indexOf? id = some i ↔ (s.step i).id = id ∧ ∀ j < i, (s.step j).id ≠ id := by
  unfold indexOf?
  rw [List.find?_eq_some_iff_getElem, decide_eq_true_eq]
  refine and_congr_right fun _ => ?_
  simp only [List.getElem_finRange, Fin.cast_mk, List.length_finRange, Bool.not_eq_eq_eq_not,
    Bool.not_true, decide_eq_false_iff_not]
  constructor
  · intro ⟨k, bound, same, before⟩ j less
    subst same
    exact before j less
  · intro before
    exact ⟨i, i.isLt, rfl, fun j less => before ⟨j, by omega⟩ less⟩

theorem indexOf?_self {s : Run p} (distinct : ∀ i j, (s.step i).id = (s.step j).id → i = j)
    (i : Fin p.size) : s.indexOf? (s.step i).id = some i := by
  refine indexOf?_eq_some_iff.mpr ⟨rfl, fun j less same => ?_⟩
  rw [distinct j i same] at less
  exact Nat.lt_irrefl _ less

theorem indexOf?_congr {s s' : Run p} (same : ∀ i, (s'.step i).id = (s.step i).id) (id : Uuid) :
    s'.indexOf? id = s.indexOf? id := by
  unfold indexOf?
  simp only [same]

theorem any_inFlight_iff {s : Run p} :
    s.steps.toList.any (·.status.isInFlight) ↔ ∃ i, (s.step i).status.isInFlight := by
  rw [List.any_eq_true, exists_steps]

theorem all_terminal_iff {s : Run p} :
    s.steps.toList.all (·.status.isTerminal) ↔ ∀ i, (s.step i).status.isTerminal := by
  rw [List.all_eq_true, forall_steps]

theorem any_status_iff {s : Run p} {status : StepStatus} :
    s.steps.toList.any (·.status = status) ↔ ∃ i, (s.step i).status = status := by
  rw [List.any_eq_true, exists_steps]
  simp only [decide_eq_true_eq]

theorem all_status_iff {s : Run p} {status : StepStatus} :
    s.steps.toList.all (·.status = status) ↔ ∀ i, (s.step i).status = status := by
  rw [List.all_eq_true, forall_steps]
  simp only [decide_eq_true_eq]

theorem nextStatus?_eq_some_iff {s : Run p} {status : RunStatus} :
    s.nextStatus? = some status ↔
      (s.record.status = .canceling ∧ (∀ i, ¬ (s.step i).status.isInFlight) ∧ status = .canceled) ∨
      (s.isActive ∧ (∀ i, (s.step i).status.isTerminal) ∧ status = s.endStatus) := by
  unfold nextStatus? isActive
  simp only [any_inFlight_iff, all_terminal_iff, ← not_exists]
  cases s.record.status <;> simp [RunStatus.isTerminal, RunStatus.isActive]
  all_goals exact fun _ => eq_comm

theorem nextStatus?_eq_none_iff {s : Run p} :
    s.nextStatus? = none ↔ s.record.status.isTerminal ∨
      (s.record.status = .canceling ∧ ∃ i, (s.step i).status.isInFlight) ∨
      (s.isActive ∧ ∃ i, ¬ (s.step i).status.isTerminal) := by
  unfold nextStatus? isActive
  simp only [any_inFlight_iff, all_terminal_iff, ← Classical.not_forall]
  cases s.record.status <;> simp [RunStatus.isTerminal, RunStatus.isActive]

theorem nextStatus?_of_active {s : Run p} (active : s.isActive) :
    s.nextStatus? = none ↔ ∃ i, ¬ (s.step i).status.isTerminal := by
  rw [nextStatus?_eq_none_iff]
  unfold isActive at *
  cases status : s.record.status <;> simp_all [RunStatus.isTerminal, RunStatus.isActive]

theorem nextStatus?_of_canceling {s : Run p} (canceling : s.record.status = .canceling) :
    s.nextStatus? = none ↔ ∃ i, (s.step i).status.isInFlight := by
  rw [nextStatus?_eq_none_iff]
  unfold isActive
  simp [canceling, RunStatus.isTerminal, RunStatus.isActive]

theorem refresh_eq_self {s : Run p} (settled : s.nextStatus? = none) (now : Timestamp) :
    s.refresh now = s := by
  simp only [refresh, settled]

theorem nextStatus?_of_inFlight {s : Run p} (i : Fin p.size)
    (flying : (s.step i).status.isInFlight) : s.nextStatus? = none := by
  have waits := StepStatus.not_isTerminal_of_isInFlight flying
  rw [nextStatus?_eq_none_iff]
  unfold isActive
  cases status : s.record.status
  case canceling => exact .inr (.inl ⟨rfl, i, flying⟩)
  case queued | running => exact .inr (.inr ⟨rfl, i, waits⟩)
  all_goals exact .inl rfl

theorem refresh_settled (s : Run p) (now : Timestamp) : (s.refresh now).nextStatus? = none := by
  unfold refresh
  cases next : s.nextStatus? with
  | none => exact next
  | some status =>
    refine nextStatus?_eq_none_iff.mpr (.inl ?_)
    rcases nextStatus?_eq_some_iff.mp next with ⟨-, -, rfl⟩ | ⟨-, -, rfl⟩
    · rfl
    · dsimp only [endStatus]
      split
      · rfl
      · split <;> rfl

@[simp] theorem step_refresh (s : Run p) (now : Timestamp) (i : Fin p.size) :
    (s.refresh now).step i = s.step i := by
  unfold refresh
  split <;> rfl

@[simp] theorem refresh_waiting (s : Run p) (now : Timestamp) :
    (s.refresh now).waiting = s.waiting := by
  unfold refresh
  split <;> rfl

theorem refresh_submitted (s : Run p) (now : Timestamp) :
    (s.refresh now).record.submitted = s.record.submitted := by
  unfold refresh
  split <;> rfl

@[simp] theorem refresh_policy (s : Run p) (now : Timestamp) :
    (s.refresh now).record.policy = s.record.policy :=
  (congrArg RunRecord.policy (s.refresh_submitted now) :)

theorem isActive_of_refresh {s : Run p} {now : Timestamp} (active : (s.refresh now).isActive) :
    s.isActive := by
  cases next : s.nextStatus? with
  | none => rwa [refresh_eq_self next] at active
  | some status =>
    rcases nextStatus?_eq_some_iff.mp next with ⟨-, -, rfl⟩ | ⟨went, -⟩
    · simp [refresh, next, isActive, RunStatus.isActive] at active
    · exact went

def halted (s : Run p) (now : Timestamp) : Run p :=
  { s.stopSteps now with record := { s.record with status := .canceling } }

@[simp] theorem step_halted (s : Run p) (now : Timestamp) (i : Fin p.size) :
    (s.halted now).step i = stopStep now (s.step i) := s.step_stopSteps now i

theorem cancel_eq (s : Run p) (now : Timestamp) :
    s.cancel now = if s.isActive then (true, (s.halted now).refresh now) else (false, s) := by
  unfold cancel isActive
  cases s.record.status <;> rfl

end Run

end Orchestration
