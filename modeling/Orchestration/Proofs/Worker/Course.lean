import Orchestration.Proofs.Run.Attempts
import Orchestration.Proofs.Run.Progress
import Orchestration.Proofs.Run.Spending
import Orchestration.Worker

namespace Orchestration

namespace Node

def fatal? (n : Node) : Option String := (n.config.member? "fatal").bind Json.string?

def failAttempts (n : Node) : Nat := ((n.config.member? "fail_attempts").bind Json.natural?).getD 0

def fails (n : Node) : Bool := n.fatal?.isSome || n.retryLimit.toNat < n.failAttempts

def lastAttempt (n : Node) : Nat :=
  if n.fatal?.isSome then 0 else min n.failAttempts n.retryLimit.toNat

def price (n : Node) : Int := max (Executor.configuredCost n.config).value 0

theorem lastAttempt_le (n : Node) : n.lastAttempt ≤ n.retryLimit.toNat := by
  unfold lastAttempt
  split
  · exact Nat.zero_le _
  · exact Nat.min_le_right _ _

/-- What a simulated executor reports on an attempt of the node. -/
inductive Simulated (n : Node) (attempt : Nat) (report : Report) : Prop
  | fatal (broken : n.fatal?.isSome) (verdict : report.verdict = .failed)
      (last : report.retryable = false) (free : report.cost = 0)
  | fail (sound : n.fatal?.isSome = false) (early : attempt < n.failAttempts)
      (verdict : report.verdict = .failed) (retryable : report.retryable) (free : report.cost = 0)
  | succeed (sound : n.fatal?.isSome = false) (late : n.failAttempts ≤ attempt)
      (verdict : report.verdict = .succeeded) (cost : (max report.cost 0).value = n.price)

/-- Where a step of the node stands that no worker has, if simulated executors did its attempts. -/
inductive Course (n : Node) (s : Step) : Prop
  | waits (status : s.status = .pending ∨ s.status = .ready)
      (attempt : s.attempt.toNat ≤ n.lastAttempt) (free : s.cost = 0)
  | skipped (status : s.status = .skipped) (free : s.cost = 0)
  | succeeded (status : s.status = .succeeded) (sound : n.fails = false)
      (attempt : s.attempt.toNat = n.lastAttempt) (cost : s.cost.value = n.price)
  | failed (status : s.status = .failed) (broken : n.fails)
      (attempt : s.attempt.toNat = n.lastAttempt) (free : s.cost = 0)

end Node

theorem Job.report_lease (j : Job) : j.report.lease = j.lease := by
  unfold report
  split
  · rfl
  · dsimp only
    split <;> rfl

theorem Job.simulated {n : Node} (a : Assignment) (config : a.config = n.config) :
    n.Simulated a.step.attempt.toNat (Job.ofAssignment .simulated a).report := by
  have executor : Toolbox.simulated.executor a.kind = .simulated a.kind := by
    cases a.kind <;> rfl
  unfold Job.report Job.ofAssignment
  simp only [executor, Executor.execute, Executor.simulate, config]
  cases fatal : (n.config.member? "fatal").bind Json.string? with
  | some message => exact .fatal (by rw [Node.fatal?, fatal]; rfl) rfl rfl rfl
  | none =>
    have sound : n.fatal?.isSome = false := by rw [Node.fatal?, fatal]; rfl
    by_cases early : a.step.attempt.toNat < n.failAttempts
    · have refused := early
      unfold Node.failAttempts at refused
      simp only [if_pos refused]
      exact .fail sound early rfl rfl rfl
    · have accepted := early
      unfold Node.failAttempts at accepted
      simp only [if_neg accepted]
      refine .succeed sound (Nat.le_of_not_lt early) rfl ?_
      rw [Cents.value_max]
      rfl

namespace Node.Course

variable {n : Node} {s t : Step}

theorem aside {now : Timestamp} (course : n.Course s) (aside : s.Aside now t) : n.Course t := by
  have ended (ended : s.status.isTerminal) : n.Course t := aside.eq_of_terminal ended ▸ course
  cases course with
  | skipped status | succeeded status | failed status => exact ended (by rw [status]; rfl)
  | waits status attempt free =>
    cases aside with
    | same => exact .waits status attempt free
    | wake => exact .waits (.inr rfl) attempt free
    | skip => exact .skipped rfl free
    | stop =>
      rcases status with pending | ready
      · simp only [Run.stopStep, pending]
        exact .skipped rfl free
      · simp only [Run.stopStep, ready]
        exact .skipped rfl free

theorem grounded (course : n.Course s) : ¬ s.status.isInFlight := by
  cases course with
  | waits status => rcases status with status | status <;> rw [status] <;> decide
  | skipped status | succeeded status | failed status => rw [status]; decide

theorem ready_of_isOpen (course : n.Course s) (opened : s.status.isOpen) : s.status = .ready := by
  cases course with
  | waits status =>
    refine status.resolve_left fun pending => ?_
    rw [pending] at opened
    cases opened
  | skipped status | succeeded status | failed status => rw [status] at opened; cases opened

theorem executed (course : n.Course s) (ended : s.status.isTerminal) (kept : s.status ≠ .skipped) :
    s.status = (if n.fails then .failed else .succeeded) ∧ s.attempt.toNat = n.lastAttempt := by
  cases course with
  | waits status => rcases status with status | status <;> rw [status] at ended <;> cases ended
  | skipped status => exact absurd status kept
  | succeeded status sound attempt => exact ⟨by simp [status, sound], attempt⟩
  | failed status broken attempt => exact ⟨by simp [status, broken], attempt⟩

theorem fails_of_failed (course : n.Course s) (failed : s.status = .failed) : n.fails := by
  obtain ⟨same, -⟩ := course.executed (by rw [failed]; rfl) (by rw [failed]; decide)
  by_contra sound
  rw [failed, if_neg sound] at same
  cases same

theorem sound_of_succeeded (course : n.Course s) (succeeded : s.status = .succeeded) : ¬ n.fails := by
  obtain ⟨same, -⟩ := course.executed (by rw [succeeded]; rfl) (by rw [succeeded]; decide)
  intro fails
  rw [succeeded, if_pos fails] at same
  cases same

theorem cost_eq (course : n.Course s) : s.cost.value = if s.status = .succeeded then n.price else 0 := by
  cases course with
  | waits status _ free => rcases status with status | status <;> simp [status, free]
  | skipped status free | failed status _ _ free => simp [status, free]
  | succeeded status _ _ cost => simp [status, cost]

end Node.Course

theorem Change.course {n : Node} {r r' : RunRecord} {s t : Step} {id : Uuid} {report : Report}
    {now : Timestamp} {settings : Scheduling}
    (change : Change n r s (.accept id report now settings) r' t)
    (simulated : n.Simulated s.attempt.toNat report) (atOnce : settings.retryBaseDelayMs = 0)
    (active : r.status.isActive) (within : s.attempt.toNat ≤ n.lastAttempt) (free : s.cost = 0) :
    n.Course t ∧ (t.status.isTerminal ∨ t.attempt.toNat = s.attempt.toNat + 1) := by
  have paid (cost : Cents) : (s.cost + max cost 0).value = (max cost 0).value := by
    have upper := (max cost 0).upper
    have lower : 0 ≤ (max cost 0).value := by
      rw [Cents.value_max]
      exact le_max_right _ _
    rw [free, Cents.value_add, Cents.value_zero]
    omega
  have unpaid (none : report.cost = 0) : s.cost + max report.cost 0 = 0 := by
    apply Cents.ext
    rw [paid, none]
    rfl
  cases change with
  | succeed _ _ _ _ _ _ _ _ verdict =>
    cases simulated with
    | fatal _ verdict' | fail _ _ verdict' => cases verdict.symm.trans verdict'
    | succeed sound late _ cost =>
      have last : n.lastAttempt = min n.failAttempts n.retryLimit.toNat := by
        rw [Node.lastAttempt, sound]
        rfl
      have limit := n.lastAttempt_le
      refine ⟨.succeeded rfl ?_ ?_ ((paid _).trans cost), .inl rfl⟩
      · simp only [Node.fails, sound, Bool.false_or, decide_eq_false_iff_not]
        omega
      · show s.attempt.toNat = _
        omega
  | fail _ _ _ _ _ _ _ _ verdict last =>
    cases simulated with
    | succeed _ _ verdict' => cases verdict.symm.trans verdict'
    | fatal broken _ _ none =>
      have first : n.lastAttempt = 0 := by rw [Node.lastAttempt, if_pos broken]
      refine ⟨.failed rfl (by rw [Node.fails, broken]; rfl) ?_ (unpaid none), .inl rfl⟩
      show s.attempt.toNat = _
      omega
    | fail sound early _ retryable none =>
      have spent : n.retryLimit.toNat ≤ s.attempt.toNat := by
        rw [← UInt32.le_iff_toNat_le, ← UInt32.not_lt]
        exact fun left => last ⟨active, retryable, left⟩
      have limit := n.lastAttempt_le
      refine ⟨.failed rfl ?_ ?_ (unpaid none), .inl rfl⟩
      · simp only [Node.fails, Bool.or_eq_true, decide_eq_true_eq]
        omega
      · show s.attempt.toNat = _
        omega
  | retry _ _ _ _ _ _ _ _ verdict _ retryable left =>
    cases simulated with
    | succeed _ _ verdict' => cases verdict.symm.trans verdict'
    | fatal _ _ last => cases last.symm.trans retryable
    | fail sound early _ _ none =>
      have next := UInt32.toNat_add_one_of_lt left
      rw [UInt32.lt_iff_toNat_lt] at left
      have more : s.attempt.toNat + 1 ≤ n.lastAttempt := by
        rw [Node.lastAttempt, sound]
        exact Nat.le_min.mpr ⟨early, left⟩
      have ready (u : Step) : (u.again now settings).status = .ready := by
        simp [Step.again, Scheduling.retryDelayMs, atOnce]
      refine ⟨.waits (.inr (ready _)) ?_ ?_, .inr ?_⟩
      · rw [Step.again_attempt]
        exact next ▸ more
      · rw [Step.again_cost]
        exact unpaid none
      · rw [Step.again_attempt]
        exact next

end Orchestration
