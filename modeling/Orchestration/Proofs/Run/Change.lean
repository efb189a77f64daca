import Orchestration.Proofs.Run.Frame
import Orchestration.Proofs.Run.History

namespace Orchestration

namespace RunRecord

def begin (r : RunRecord) (now : Timestamp) : RunRecord :=
  if r.status = .queued then { r with status := .running, startedAt := some now } else r

def paid (r : RunRecord) (cost : Cents) : RunRecord :=
  if r.status.isTerminal then r else r.charge cost

@[simp] theorem paid_status (r : RunRecord) (cost : Cents) : (r.paid cost).status = r.status := by
  unfold paid
  split <;> rfl

theorem paid_submitted (r : RunRecord) (cost : Cents) : (r.paid cost).submitted = r.submitted := by
  unfold paid
  split <;> rfl

theorem begin_submitted (r : RunRecord) (now : Timestamp) : (r.begin now).submitted = r.submitted := by
  unfold begin
  split <;> rfl

@[simp] theorem paid_policy (r : RunRecord) (cost : Cents) : (r.paid cost).policy = r.policy :=
  (congrArg RunRecord.policy (r.paid_submitted cost) :)

theorem begin_status (r : RunRecord) (now : Timestamp) (active : r.status.isActive) :
    (r.begin now).status = .running := by
  unfold begin
  cases status : r.status <;> simp_all [RunStatus.isActive]

end RunRecord

namespace Step

def returned (s : Step) (cost : Cents) : Step :=
  { s with lease := none, cost := s.cost + cost }

def again (s : Step) (now : Timestamp) (settings : Scheduling) : Step :=
  let delay := settings.retryDelayMs s.attempt
  if delay = 0 then { s with attempt := s.attempt + 1, status := .ready, retryAt := none }
  else
    { s with
      attempt := s.attempt + 1
      status := .retrying
      retryAt := some (now.after (millis delay)) }

@[simp] theorem again_lease (s : Step) (now : Timestamp) (settings : Scheduling) :
    (s.again now settings).lease = s.lease := by
  unfold again
  dsimp only
  split <;> rfl

theorem again_begun (s : Step) (now : Timestamp) (settings : Scheduling) :
    (s.again now settings).begun = s.begun := by
  unfold again
  dsimp only
  split <;> rfl

@[simp] theorem again_startedAt (s : Step) (now : Timestamp) (settings : Scheduling) :
    (s.again now settings).startedAt = s.startedAt := by
  unfold again
  dsimp only
  split <;> rfl

@[simp] theorem again_endedAt (s : Step) (now : Timestamp) (settings : Scheduling) :
    (s.again now settings).endedAt = s.endedAt := by
  unfold again
  dsimp only
  split <;> rfl

@[simp] theorem again_cost (s : Step) (now : Timestamp) (settings : Scheduling) :
    (s.again now settings).cost = s.cost := by
  unfold again
  dsimp only
  split <;> rfl

@[simp] theorem again_attempt (s : Step) (now : Timestamp) (settings : Scheduling) :
    (s.again now settings).attempt = s.attempt + 1 := by
  unfold again
  dsimp only
  split <;> rfl

theorem again_status (s : Step) (now : Timestamp) (settings : Scheduling) :
    (s.again now settings).status = .ready ∨ (s.again now settings).status = .retrying := by
  unfold again
  dsimp only
  split
  · exact .inl rfl
  · exact .inr rfl

theorem again_grounded (s : Step) (now : Timestamp) (settings : Scheduling) :
    (s.again now settings).status.isInFlight = false := by
  rcases s.again_status now settings with ready | retrying
  · rw [ready]; rfl
  · rw [retrying]; rfl

end Step

def Report.complaint (report : Report) (node : Node) : String :=
  (Refusal.stepFailed node.id (report.error.getD "step failed")).message

/-- How an event may change a step of `node` by itself, and with it the record of the run. -/
inductive Change (node : Node) (r : RunRecord) (s : Step) : Event → RunRecord → Step → Prop
  | lease (worker : String) (leaseId : Uuid) (now : Timestamp) (settings : Scheduling)
      (active : r.status.isActive) (ready : s.status = .ready) (input : Json) :
      Change node r s (.grant s.id worker leaseId now settings) (r.begin now)
        { s with
          status := .dispatched
          lease := some ⟨leaseId, worker, now.after (settings.ttl node), false⟩
          input := input
          retryAt := none
          startedAt := some (s.startedAt.getD now) }
  | reject (worker : String) (leaseId : Uuid) (now : Timestamp) (settings : Scheduling)
      (active : r.status.isActive) (ready : s.status = .ready) (why : Refusal) :
      Change node r s (.grant s.id worker leaseId now settings) r
        { s with status := .failed, error := some why.message, endedAt := some now }
  | renew (l : Lease) (now : Timestamp) (settings : Scheduling) (held : s.lease = some l)
      (inFlight : s.status.isInFlight) (alive : now < l.expiresAt) (kept : l.abandoned = false) :
      Change node r s (.renew s.id l.worker now settings) r
        { s with
          status := .running
          lease := some { l with expiresAt := now.after (settings.ttl node) } }
  | abandon (l : Lease) (now : Timestamp) (settings : Scheduling) (held : s.lease = some l)
      (inFlight : s.status.isInFlight) (alive : now < l.expiresAt) (left : l.abandoned = true) :
      Change node r s (.renew s.id l.worker now settings) r
        { s with status := .skipped, lease := none, endedAt := some now }
  | succeed (l : Lease) (report : Report) (now : Timestamp) (settings : Scheduling)
      (held : s.lease = some l) (inFlight : s.status.isInFlight) (alive : now < l.expiresAt)
      (quoted : report.lease = l.id) (verdict : report.verdict = .succeeded) :
      Change node r s (.accept s.id report now settings) (r.paid (max report.cost 0))
        { s.returned (max report.cost 0) with
          status := .succeeded
          output := some (report.output.getD .null)
          error := none
          endedAt := some now }
  | fail (l : Lease) (report : Report) (now : Timestamp) (settings : Scheduling)
      (held : s.lease = some l) (inFlight : s.status.isInFlight) (alive : now < l.expiresAt)
      (quoted : report.lease = l.id) (verdict : report.verdict = .failed)
      (last : ¬ (r.status.isActive ∧ report.retryable ∧ s.attempt < node.retryLimit)) :
      Change node r s (.accept s.id report now settings) (r.paid (max report.cost 0))
        { s.returned (max report.cost 0) with
          status := .failed, error := some (report.complaint node), endedAt := some now }
  | retry (l : Lease) (report : Report) (now : Timestamp) (settings : Scheduling)
      (held : s.lease = some l) (inFlight : s.status.isInFlight) (alive : now < l.expiresAt)
      (quoted : report.lease = l.id) (verdict : report.verdict = .failed)
      (active : r.status.isActive) (retryable : report.retryable)
      (left : s.attempt < node.retryLimit) :
      Change node r s (.accept s.id report now settings) (r.paid (max report.cost 0))
        (Step.again
          { s.returned (max report.cost 0) with error := some (report.complaint node) } now settings)
  | drop (l : Lease) (now : Timestamp) (settings : Scheduling) (held : s.lease = some l)
      (inFlight : s.status.isInFlight) (expired : l.expiresAt ≤ now)
      (stopped : ¬ r.status.isActive) :
      Change node r s (.sweep now settings) r
        { s with
          lease := none, error := some "lease expired", status := .skipped, endedAt := some now }
  | expire (l : Lease) (now : Timestamp) (settings : Scheduling) (held : s.lease = some l)
      (inFlight : s.status.isInFlight) (expired : l.expiresAt ≤ now)
      (active : r.status.isActive) (last : ¬ s.attempt < node.retryLimit) :
      Change node r s (.sweep now settings) r
        { s with
          lease := none, error := some "lease expired", status := .failed, endedAt := some now }
  | reclaim (l : Lease) (now : Timestamp) (settings : Scheduling) (held : s.lease = some l)
      (inFlight : s.status.isInFlight) (expired : l.expiresAt ≤ now)
      (active : r.status.isActive) (left : s.attempt < node.retryLimit) :
      Change node r s (.sweep now settings) r
        (Step.again { s with lease := none, error := some "lease expired" } now settings)
  | promote (due now : Timestamp) (settings : Scheduling) (retrying : s.status = .retrying)
      (wait : s.retryAt = some due) (past : due ≤ now) :
      Change node r s (.sweep now settings) r { s with status := .ready, retryAt := none }

namespace Change

variable {node : Node} {r r' : RunRecord} {s t : Step} {e : Event}

theorem active_eq (change : Change node r s e r' t) : r'.status.isActive = r.status.isActive := by
  cases change with
  | lease worker leaseId now settings active =>
    unfold RunRecord.begin
    split
    · simp_all [RunStatus.isActive]
    · rfl
  | succeed | fail | retry => rw [RunRecord.paid_status]
  | _ => rfl

theorem submitted_eq (change : Change node r s e r' t) : r'.submitted = r.submitted := by
  cases change with
  | lease => exact r.begin_submitted _
  | succeed | fail | retry => exact r.paid_submitted _
  | _ => rfl

theorem policy_eq (change : Change node r s e r' t) : r'.policy = r.policy :=
  (congrArg RunRecord.policy change.submitted_eq :)

theorem begun_eq (change : Change node r s e r' t) : t.begun = s.begun := by
  cases change with
  | retry | reclaim => exact Step.again_begun _ _ _
  | _ => rfl

theorem id_eq (change : Change node r s e r' t) : t.id = s.id :=
  (congrArg Step.id change.begun_eq :)

theorem begins (change : Change node r s e r' t) :
    (r.status.isActive ∧ r'.status = .running ∧ t.startedAt ≠ none) ∨
      (r'.status = r.status ∧ t.startedAt = s.startedAt) := by
  cases change with
  | lease worker leaseId now settings active => exact .inl ⟨active, r.begin_status now active, by simp⟩
  | retry => exact .inr ⟨r.paid_status _, Step.again_startedAt _ _ _⟩
  | reclaim => exact .inr ⟨rfl, Step.again_startedAt _ _ _⟩
  | succeed | fail => exact .inr ⟨r.paid_status _, rfl⟩
  | _ => exact .inr ⟨rfl, rfl⟩

theorem returned {step : Uuid} {report : Report} {now : Timestamp} {settings : Scheduling}
    (change : Change node r s (.accept step report now settings) r' t) : t.lease = none := by
  cases change with
  | succeed | fail => rfl
  | retry => exact Step.again_lease _ _ _

theorem id_of_renew {step : Uuid} {worker : String} {now : Timestamp} {settings : Scheduling}
    (change : Change node r s (.renew step worker now settings) r' t) : s.id = step := by
  cases change <;> rfl

theorem grounded_of_sweep {now : Timestamp} {settings : Scheduling}
    (change : Change node r s (.sweep now settings) r' t) : ¬ t.status.isInFlight := by
  cases change with
  | reclaim =>
    rcases Step.again_status { s with lease := none, error := some "lease expired" } now settings with
      ready | retrying
    · rw [ready]; decide
    · rw [retrying]; decide
  | drop | expire | promote => simp [StepStatus.isInFlight]

theorem not_terminal (change : Change node r s e r' t) : ¬ s.status.isTerminal := by
  cases change with
  | lease _ _ _ _ _ ready | reject _ _ _ _ _ ready => rw [ready]; decide
  | promote _ _ _ retrying => rw [retrying]; decide
  | renew _ _ _ _ flying | abandon _ _ _ _ flying | succeed _ _ _ _ _ flying
  | fail _ _ _ _ _ flying | retry _ _ _ _ _ flying | drop _ _ _ _ flying | expire _ _ _ _ flying
  | reclaim _ _ _ _ flying => exact StepStatus.not_isTerminal_of_isInFlight flying

end Change

/-- What the record of a step always looks like, in a run that is `active` or not. -/
structure Step.Sound (active : Bool) (s : Step) : Prop where
  leased : s.lease.isSome = s.status.isInFlight
  waits : s.status = .retrying → s.retryAt.isSome
  kept : ∀ l, s.lease = some l → l.abandoned = !active
  stopped : active = false → s.status.isTerminal ∨ s.status.isInFlight

namespace Step.Sound

variable {active : Bool} {s : Step}

theorem unleased (sound : s.Sound active) (grounded : s.status.isInFlight = false) :
    s.lease = none := by
  have := sound.leased
  rwa [grounded, Option.isSome_eq_false_iff, Option.isNone_iff_eq_none] at this

theorem of_unleased (free : s.lease = none) (grounded : s.status.isInFlight = false)
    (waits : s.status = .retrying → s.retryAt.isSome) (open' : active = false → s.status.isTerminal) :
    s.Sound active :=
  ⟨by rw [free, grounded]; rfl, waits, by simp [free], fun stopped => .inl (open' stopped)⟩

theorem again (free : s.lease = none) (now : Timestamp) (settings : Scheduling) :
    (s.again now settings).Sound true := by
  unfold Step.again
  dsimp only
  split
  · exact of_unleased free rfl (by simp) (by simp)
  · exact of_unleased free rfl (by simp) (by simp)

end Step.Sound

theorem Change.sound {node : Node} {r r' : RunRecord} {s t : Step} {e : Event}
    (change : Change node r s e r' t) (sound : s.Sound r.status.isActive) :
    t.Sound r'.status.isActive := by
  rw [change.active_eq]
  cases change with
  | lease worker leaseId now settings active =>
    rw [active]
    exact ⟨rfl, by simp, by simp, by simp⟩
  | renew l now settings held flying alive kept =>
    have active := sound.kept l held
    rw [kept] at active
    exact ⟨rfl, by simp, by simp [kept, ← active], fun _ => .inr rfl⟩
  | reject _ _ _ _ _ ready =>
    exact .of_unleased (sound.unleased (by rw [ready]; rfl)) rfl (by simp) (fun _ => rfl)
  | abandon | succeed | fail | drop | expire => exact .of_unleased rfl rfl (by simp) (fun _ => rfl)
  | retry _ _ _ _ _ _ _ _ _ active | reclaim _ _ _ _ _ _ active =>
    rw [active]
    exact .again rfl _ _
  | promote due now settings retrying =>
    refine .of_unleased (sound.unleased (by rw [retrying]; rfl)) rfl (by simp) ?_
    intro stopped
    rcases sound.stopped stopped with ended | flying
    · simp [retrying, StepStatus.isTerminal] at ended
    · simp [retrying, StepStatus.isInFlight] at flying

end Orchestration
