import Orchestration.Proofs.Run.Change
import Mathlib.Logic.Relation

namespace Orchestration

namespace Run

variable {p : Plan}

def reservedWith (s : Run p) (i : Fin p.size) (t : Step) : Cents :=
  match (s.step i).lease, t.lease with
  | none, some _ => s.reserved + (p.node i).estimatedCost
  | some _, none => max (s.reserved - (p.node i).estimatedCost) 0
  | _, _ => s.reserved

def replace (s : Run p) (i : Fin p.size) (r : RunRecord) (t : Step) : Run p :=
  { s.put i t with record := r, reserved := s.reservedWith i t }

@[simp] theorem replace_record (s : Run p) (i : Fin p.size) (r : RunRecord) (t : Step) :
    (s.replace i r t).record = r := rfl

@[simp] theorem replace_waiting (s : Run p) (i : Fin p.size) (r : RunRecord) (t : Step) :
    (s.replace i r t).waiting = s.waiting := rfl

theorem step_replace (s : Run p) (i j : Fin p.size) (r : RunRecord) (t : Step) :
    (s.replace i r t).step j = if j = i then t else s.step j := step_put s i j t

theorem step_replace_congr {α : Type} {s : Run p} {i : Fin p.size} {r : RunRecord} {t : Step}
    (f : Step → α) (same : f t = f (s.step i)) (j : Fin p.size) :
    f ((s.replace i r t).step j) = f (s.step j) := step_put_congr f same j

@[simp] theorem step_replace_self (s : Run p) (i : Fin p.size) (r : RunRecord) (t : Step) :
    (s.replace i r t).step i = t := step_put_self s i t

theorem put_eq_replace {s : Run p} {i : Fin p.size} {t : Step}
    (same : t.lease = (s.step i).lease) : s.put i t = s.replace i s.record t := by
  unfold replace reservedWith
  rw [same]
  cases (s.step i).lease <;> rfl

theorem returned_eq_replace {s : Run p} {i : Fin p.size} {l : Lease} {t : Step}
    (held : (s.step i).lease = some l) (returned : t.lease = none) :
    (s.releaseLease i).put i t = s.replace i s.record t := by
  rw [releaseLease_eq s i held]
  simp [replace, reservedWith, held, returned, put, modifyStep]

theorem replace_put {s : Run p} {i : Fin p.size} {r : RunRecord} {t u : Step}
    (same : u.lease = t.lease) : (s.replace i r t).put i u = s.replace i r u := by
  simp [replace, reservedWith, put, modifyStep, same]

theorem pay_eq_replace {s : Run p} {i : Fin p.size} {l : Lease} (held : (s.step i).lease = some l)
    (cost : Cents) :
    s.pay i cost = s.replace i (s.record.paid cost) ((s.step i).returned cost) := by
  have back : ((s.releaseLease i).modifyStep i fun step => { step with cost := step.cost + cost }) =
      s.replace i s.record ((s.step i).returned cost) := by
    rw [modifyStep_eq_put, returned_eq_replace held (by rw [step_releaseLease]), step_releaseLease]
    rfl
  unfold pay RunRecord.paid
  simp only [back, replace_record]
  split <;> rfl
end Run

namespace Released

variable {p : Plan}

def follow (c : Released p) (i : Fin p.size) (now : Timestamp) : Released p :=
  if c.run.isActive then
    match (c.run.step i).status with
    | .succeeded => c.settle i
    | .failed => c.stepFailed i now
    | _ => c
  else c

def act (c : Released p) (i : Fin p.size) (r : RunRecord) (t : Step) (now : Timestamp) :
    Released p :=
  follow
    { run := c.run.replace i r t
      ready := if t.status = .ready then c.ready ++ [t.id] else c.ready } i now

theorem act_of_failed (c : Released p) (i : Fin p.size) {r : RunRecord} {t : Step} (now : Timestamp)
    (active : r.status.isActive) (failed : t.status = .failed) :
    c.act i r t now = stepFailed ⟨c.run.replace i r t, c.ready⟩ i now := by
  simp [act, follow, Run.isActive, active, failed]

theorem act_of_succeeded (c : Released p) (i : Fin p.size) {r : RunRecord} {t : Step}
    (now : Timestamp) (active : r.status.isActive) (succeeded : t.status = .succeeded) :
    c.act i r t now = settle ⟨c.run.replace i r t, c.ready⟩ i := by
  simp [act, follow, Run.isActive, active, succeeded]

theorem act_of_stopped (c : Released p) (i : Fin p.size) {r : RunRecord} {t : Step} (now : Timestamp)
    (stopped : ¬ r.status.isActive) (held : t.status ≠ .ready) :
    c.act i r t now = ⟨c.run.replace i r t, c.ready⟩ := by
  simp [act, follow, Run.isActive, stopped, held]

theorem act_of_open (c : Released p) (i : Fin p.size) {r : RunRecord} {t : Step} (now : Timestamp)
    (succeeded : t.status ≠ .succeeded) (failed : t.status ≠ .failed) :
    c.act i r t now =
      ⟨c.run.replace i r t, if t.status = .ready then c.ready ++ [t.id] else c.ready⟩ := by
  unfold act follow
  simp only [Run.step_replace_self]
  split
  · split <;> simp_all
  · rfl

theorem run_act_of_open (c : Released p) (i : Fin p.size) {r : RunRecord} {t : Step}
    (now : Timestamp) (succeeded : t.status ≠ .succeeded) (failed : t.status ≠ .failed) :
    (c.act i r t now).run = c.run.replace i r t :=
  congrArg run (act_of_open c i now succeeded failed)

theorem ready_act_of_open (c : Released p) (i : Fin p.size) {r : RunRecord} {t : Step}
    (now : Timestamp) (succeeded : t.status ≠ .succeeded) (failed : t.status ≠ .failed)
    (held : t.status ≠ .ready) : (c.act i r t now).ready = c.ready := by
  rw [act_of_open c i now succeeded failed, if_neg held]

theorem retry_eq (c : Released p) (i : Fin p.size) (now : Timestamp) (settings : Scheduling) :
    c.retry i now settings =
      let t := (c.run.step i).again now settings
      ⟨c.run.put i t, if t.status = .ready then c.ready ++ [t.id] else c.ready⟩ := by
  by_cases atOnce : settings.retryDelayMs (c.run.step i).attempt = 0
  · simp [retry, Step.again, atOnce, modifyStep, push, Run.modifyStep_eq_put]
  · simp [retry, Step.again, atOnce, modifyStep, Run.modifyStep_eq_put]

end Released

def Act {p : Plan} (e : Event) (c c' : Released p) : Prop :=
  ∃ i r t, Change (p.node i) c.run.record (c.run.step i) e r t ∧ c' = c.act i r t e.now

abbrev Acts {p : Plan} (e : Event) : Released p → Released p → Prop :=
  Relation.ReflTransGen (Act e)

namespace Released

variable {p : Plan}

theorem expired_eq_replace {c : Released p} {i : Fin p.size} {l : Lease}
    (held : (c.run.step i).lease = some l) :
    ({ c with run := c.run.releaseLease i } : Released p).modifyStep i
        (fun step => { step with error := some "lease expired" }) =
      ⟨c.run.replace i c.run.record
        { c.run.step i with lease := none, error := some "lease expired" }, c.ready⟩ := by
  simp only [modifyStep, Run.modifyStep_eq_put]
  rw [Run.returned_eq_replace held] <;> rw [Run.step_releaseLease]

theorem expire_eq {c : Released p} {i : Fin p.size} {l : Lease} (now : Timestamp)
    (settings : Scheduling) (held : (c.run.step i).lease = some l)
    (inFlight : (c.run.step i).status.isInFlight) (expired : l.expiresAt ≤ now) :
    ∃ t, Change (p.node i) c.run.record (c.run.step i) (.sweep now settings) c.run.record t ∧
      c.expire i now settings = c.act i c.run.record t now := by
  unfold expire
  simp only [expired_eq_replace held, Run.step_replace_self]
  by_cases active : c.run.isActive
  · have active' : (c.run.replace i c.run.record
        { c.run.step i with lease := none, error := some "lease expired" }).isActive := active
    simp only [active', Bool.not_true, Bool.false_eq_true, if_false]
    by_cases left : (c.run.step i).attempt < (p.node i).retryLimit
    · refine ⟨_, .reclaim l now settings held inFlight expired active left, ?_⟩
      have ended := Step.again_status
        { c.run.step i with lease := none, error := some "lease expired" } now settings
      rw [act_of_open]
      · simp only [left, if_true, retry_eq, Run.step_replace_self]
        rw [Run.replace_put]
        rw [Step.again_lease]
      · rcases ended with h | h <;> simp [h]
      · rcases ended with h | h <;> simp [h]
    · refine ⟨_, .expire l now settings held inFlight expired active left, ?_⟩
      rw [act_of_failed _ _ _ active rfl]
      simp [left, modifyStep, Run.modifyStep_eq_put, Run.replace_put]
  · have stopped : ¬ (c.run.replace i c.run.record
        { c.run.step i with lease := none, error := some "lease expired" }).isActive := active
    refine ⟨_, .drop l now settings held inFlight expired active, ?_⟩
    rw [act_of_stopped _ _ _ active (by simp)]
    simp [stopped, modifyStep, Run.modifyStep_eq_put, Run.replace_put]

theorem promote_eq (c : Released p) (i : Fin p.size) (now : Timestamp) :
    c.promote i =
      c.act i c.run.record { c.run.step i with status := .ready, retryAt := none } now := by
  rw [act_of_open _ _ _ (by simp) (by simp)]
  simp [promote, push, modifyStep, Run.modifyStep_eq_put, Run.put_eq_replace]

end Released

namespace Run

variable {p : Plan}

def Sound (s : Run p) : Prop := ∀ i, (s.step i).Sound s.isActive

theorem reject_eq {s : Run p} {i : Fin p.size} (why : Refusal) (now : Timestamp) (active : s.isActive) :
    s.reject i why now =
      let t : Step :=
        { s.step i with status := .failed, error := some why.message, endedAt := some now }
      let c := Released.act ⟨s, []⟩ i s.record t now
      (.rejected why c.ready, c.run.refresh now) := by
  simp only [Released.act_of_failed _ i now active, ← put_eq_replace]
  rfl

theorem lease_eq {s : Run p} {i : Fin p.size} (worker : String) (leaseId : Uuid) (now : Timestamp)
    (settings : Scheduling) (free : (s.step i).lease = none) :
    let l : Lease := ⟨leaseId, worker, now.after (settings.ttl (p.node i)), false⟩
    let t : Step :=
      { s.step i with
        status := .dispatched
        lease := some l
        input := s.inputFor i
        retryAt := none
        startedAt := some ((s.step i).startedAt.getD now) }
    s.lease i worker leaseId now settings = (.leased ⟨t, l, (p.node i).kind, (p.node i).config⟩,
      (Released.act ⟨s, []⟩ i (s.record.begin now) t now).run.refresh now) := by
  intro l t
  have same : s.lease i worker leaseId now settings = (.leased ⟨t, l, (p.node i).kind,
      (p.node i).config⟩, s.replace i (s.record.begin now) t) := by
    simp only [lease, replace, reservedWith, free, RunRecord.begin, modifyStep_eq_put, step_put_self,
      l, t]
  have flying : ((s.replace i (s.record.begin now) t).step i).status.isInFlight := by
    rw [step_replace_self]
    rfl
  rw [Released.act_of_open _ _ _ (by simp [t]) (by simp [t]),
    refresh_eq_self (nextStatus?_of_inFlight i flying), same]

theorem conclude_eq {s : Run p} {i : Fin p.size} {l : Lease} (sound : s.Sound)
    (report : Report) (now : Timestamp) (settings : Scheduling) (held : (s.step i).lease = some l)
    (inFlight : (s.step i).status.isInFlight) (alive : now < l.expiresAt)
    (quoted : report.lease = l.id) :
    ∃ r t,
      Change (p.node i) s.record (s.step i) (.accept (s.step i).id report now settings) r t ∧
      s.conclude i report now settings = Released.act ⟨s, []⟩ i r t now := by
  -- A lease is marked exactly when the run has stopped, so that the guard asks only for that.
  have abandoned : ((s.step i).lease.any (·.abandoned) || !s.isActive) = !s.isActive := by
    rw [held, Option.any_some, (sound i).kept l held, Bool.or_self]
  have active : (s.record.paid (max report.cost 0)).status.isActive = s.isActive := by
    rw [RunRecord.paid_status]; rfl
  unfold conclude
  simp only [abandoned, pay_eq_replace held, modifyStep_eq_put, step_replace_self]
  cases verdict : report.verdict with
  | succeeded =>
    refine ⟨_, _, .succeed l report now settings held inFlight alive quoted verdict, ?_⟩
    dsimp only
    rw [replace_put]
    · by_cases h : s.isActive
      · rw [Released.act_of_succeeded _ _ _ (active.trans h) rfl]
        simp [h]
      · rw [Released.act_of_stopped _ _ _ (by rw [active]; exact h) (by simp)]
        simp [h]
    · rfl
  | failed =>
    by_cases more : s.isActive ∧ report.retryable ∧ (s.step i).attempt < (p.node i).retryLimit
    · obtain ⟨h, retryable, left⟩ := more
      refine ⟨_, _, .retry l report now settings held inFlight alive quoted verdict h retryable left,
        ?_⟩
      have ended := Step.again_status
        { (s.step i).returned (max report.cost 0) with
          error := some (report.complaint (p.node i)) } now settings
      rw [Released.act_of_open]
      · simp only [h, retryable, left, Bool.not_true, Bool.not_false, decide_true, Bool.and_self,
          if_true, Released.retry_eq, step_put_self, put_put]
        rw [replace_put]
        · rfl
        · rw [Step.again_lease]
      · rcases ended with h | h <;> simp [h]
      · rcases ended with h | h <;> simp [h]
    · refine ⟨_, _, .fail l report now settings held inFlight alive quoted verdict more, ?_⟩
      have last : (!!s.isActive && report.retryable &&
          decide ((s.step i).attempt < (p.node i).retryLimit)) = false := by
        simpa [and_assoc] using more
      by_cases h : s.isActive
      · rw [Released.act_of_failed _ _ _ (active.trans h) rfl]
        simp only [last]
        simp [h, Report.complaint, replace_put]
      · rw [Released.act_of_stopped _ _ _ (by rw [active]; exact h) (by simp)]
        simp only [last]
        simp [h, Report.complaint, replace_put]

theorem leaseExpired_iff {s : Run p} {i : Fin p.size} {now : Timestamp} :
    s.leaseExpired now i ↔ (s.step i).status.isInFlight ∧
      ∃ l, (s.step i).lease = some l ∧ l.expiresAt ≤ now := by
  simp [leaseExpired, Option.any_eq_true]

theorem retryDue_iff {s : Run p} {i : Fin p.size} {now : Timestamp} :
    s.retryDue now i ↔ (s.step i).status = .retrying ∧
      ∃ due, (s.step i).retryAt = some due ∧ due ≤ now := by
  simp [retryDue, Option.any_eq_true]

theorem nextStatus?_put {s : Run p} {i : Fin p.size} {t : Step} (settled : s.nextStatus? = none)
    (waits : ¬ t.status.isTerminal) (grounded : (s.step i).status.isInFlight = false) :
    (s.put i t).nextStatus? = none := by
  rw [nextStatus?_eq_none_iff] at settled ⊢
  rcases settled with ended | ⟨canceling, j, flying⟩ | ⟨active, -⟩
  · exact .inl ended
  · refine .inr (.inl ⟨canceling, j, ?_⟩)
    have other : j ≠ i := by
      intro same
      subst same
      simp [grounded] at flying
    rwa [step_put_of_ne _ _ other]
  · exact .inr (.inr ⟨active, i, by simpa using waits⟩)

end Run

namespace Sweeping

variable {p : Plan}

theorem visit_acts (now : Timestamp) (settings : Scheduling) (steps : List (Fin p.size))
    (w : Sweeping p) (settled : w.expired = 0 → w.released.run.nextStatus? = none) :
    let w' := steps.foldl (visit now settings) w
    Acts (.sweep now settings) w.released w'.released ∧
      (w'.expired = 0 → w'.released.run.nextStatus? = none) := by
  induction steps generalizing w with
  | nil => exact ⟨.refl, settled⟩
  | cons i steps ih =>
    simp only [List.foldl_cons, visit]
    by_cases expired : w.released.run.leaseExpired now i
    · obtain ⟨flying, l, leased, past⟩ := Run.leaseExpired_iff.mp expired
      obtain ⟨t, change, same⟩ := Released.expire_eq now settings leased flying past
      simp only [expired, if_true]
      obtain ⟨acts, after⟩ := ih ⟨w.released.expire i now settings, w.expired + 1, w.promoted⟩
        (by simp)
      exact ⟨.head ⟨i, _, t, change, same⟩ acts, after⟩
    · by_cases due : w.released.run.retryDue now i
      · obtain ⟨retrying, wait, waits, past⟩ := Run.retryDue_iff.mp due
        simp only [expired, due, if_true]
        obtain ⟨acts, after⟩ := ih ⟨w.released.promote i, w.expired, w.promoted + 1⟩ (by
          intro none
          exact Run.nextStatus?_put (settled none) (by simp [StepStatus.isTerminal])
            (by rw [retrying]; rfl))
        refine ⟨.head ⟨i, _, _, .promote wait now settings retrying waits past, ?_⟩ acts, after⟩
        exact Released.promote_eq w.released i now
      · simp only [expired, due]
        exact ih w settled

end Sweeping

namespace Run

variable {p : Plan}

theorem sweep_acts {s : Run p} (settled : s.nextStatus? = none) (now : Timestamp)
    (settings : Scheduling) :
    ∃ c, Acts (.sweep now settings) ⟨s, []⟩ c ∧ (s.sweep now settings).2 = c.run.refresh now ∧
      (s.sweep now settings).1.ready = c.ready := by
  obtain ⟨acts, after⟩ := Sweeping.visit_acts now settings (List.finRange p.size) ⟨⟨s, []⟩, 0, 0⟩
    (fun _ => settled)
  refine ⟨_, acts, ?_⟩
  unfold sweep
  dsimp only
  split
  · exact ⟨rfl, rfl⟩
  · exact ⟨(refresh_eq_self (after (by omega)) now).symm, rfl⟩

end Run

end Orchestration
