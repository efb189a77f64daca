import Orchestration.Proofs.Run.Releases
import Orchestration.Proofs.Settings.Scheduling
import Orchestration.Proofs.Timestamp
import Orchestration.Proofs.Worker.Course

namespace Orchestration

def Step.attemptsLeft (limit : UInt32) (s : Step) : Nat :=
  if s.status.isTerminal then 0 else limit.toNat + 1 - s.attempt.toNat

namespace Run

variable {p : Plan}

def attemptsLeft (s : Run p) : Nat := ∑ i, (s.step i).attemptsLeft (p.node i).retryLimit

structure Regular (s : Run p) : Prop where
  timed : ∀ i, (p.node i).timeoutSecs ≠ some 0
  valid : s.Valid false
  funded : s.Funded
  balanced : s.Balanced
  unlimited : s.record.budget = none

structure Steady (s : Run p) : Prop extends s.Regular where
  steps : ∀ i, (p.node i).Course (s.step i)

/-- A run that was `s₀` when `worker` took step `i`. -/
structure Underway (s₀ : Run p) (i : Fin p.size) (a : Assignment) (worker : String) (now : Timestamp)
    (s : Run p) : Prop extends s.Regular where
  ids : ∀ j, (s.step j).id = (s₀.step j).id
  policy : s.record.policy = s₀.record.policy
  active : s.isActive
  config : a.config = (p.node i).config
  held : ∃ l, (s.step i).lease = some l ∧ l.id = a.lease.id ∧ l.worker = worker ∧ now < l.expiresAt
  attempt : (s.step i).attempt = a.step.attempt
  within : a.step.attempt.toNat ≤ (p.node i).lastAttempt
  free : (s.step i).cost = 0
  others : ∀ j ≠ i, (p.node j).Course (s.step j)
  left : s.attemptsLeft = s₀.attemptsLeft

variable {s : Run p}

theorem Regular.handle (regular : s.Regular) (ordered : p.Ordered) (goes : ¬ s.record.status.isTerminal)
    {e : Event} (kept : (s.handle e).1.stops = false) : (s.handle e).2.Regular := by
  obtain ⟨timed, valid, funded, balanced, unlimited⟩ := regular
  have next := handle_funded funded valid.sound valid.settled e
  refine ⟨timed, ?_, next.1, next.2.2 goes balanced, ?_⟩
  · have valid' := valid.handle ordered e
    rwa [kept] at valid'
  · exact (valid.after_budget ordered [e]).trans unlimited

theorem attemptsLeft_replace {i : Fin p.size} {r : RunRecord} {t : Step}
    (before : ¬ (s.step i).status.isTerminal) (after : ¬ t.status.isTerminal)
    (attempt : t.attempt = (s.step i).attempt) : (s.replace i r t).attemptsLeft = s.attemptsLeft := by
  unfold attemptsLeft
  refine Finset.sum_congr rfl fun j _ => ?_
  rw [step_replace]
  split
  · subst j
    simp only [Step.attemptsLeft, before, after, attempt]
  · rfl

theorem refresh_act_of_inFlight {i : Fin p.size} {r : RunRecord} {t : Step} (now : Timestamp)
    (flying : t.status.isInFlight) :
    (Released.act ⟨s, []⟩ i r t now).run.refresh now = s.replace i r t := by
  have succeeded : t.status ≠ .succeeded := fun status => by rw [status] at flying; cases flying
  have failed : t.status ≠ .failed := fun status => by rw [status] at flying; cases flying
  have flying' : ((s.replace i r t).step i).status.isInFlight := by rwa [step_replace_self]
  rw [Released.run_act_of_open _ _ _ succeeded failed,
    refresh_eq_self (nextStatus?_of_inFlight i flying')]

theorem grant_unlimited (sound : s.Sound) {id : Uuid} {i : Fin p.size}
    (found : s.indexOf? id = some i) (ready : (s.step i).status = .ready)
    (unlimited : s.record.budget = none) (worker : String) (lease : Uuid) (now : Timestamp)
    (settings : Scheduling) :
    let l : Lease := ⟨lease, worker, now.after (settings.ttl (p.node i)), false⟩
    let t : Step :=
      { s.step i with
        status := .dispatched
        lease := some l
        input := s.inputFor i
        retryAt := none
        startedAt := some ((s.step i).startedAt.getD now) }
    s.handle (.grant id worker lease now settings) =
      (.granted (.ok (.leased ⟨t, l, (p.node i).kind, (p.node i).config⟩)),
        s.replace i (s.record.begin now) t) := by
  intro l t
  have active := isActive_of_ready sound ready
  have fits : s.record.overBudget? s.reserved (p.node i) = none := by
    rw [RunRecord.overBudget?, unlimited]
  have granted : s.handle (.grant id worker lease now settings) =
      (.granted (.ok (s.lease i worker lease now settings).1),
        (s.lease i worker lease now settings).2) := by
    simp only [handle, grant, found, active, ready, fits]
    rfl
  rw [granted, lease_eq worker lease now settings ((sound i).unleased (by rw [ready]; rfl)),
    refresh_act_of_inFlight now rfl]

theorem Steady.grant (steady : s.Steady) (ordered : p.Ordered) {id : Uuid} {i : Fin p.size}
    (found : s.indexOf? id = some i) (ready : (s.step i).status = .ready) {now : Timestamp}
    (early : now < .latest) {settings : Scheduling} (lasting : settings.leaseTtlSecs ≠ 0)
    (worker : String) (lease : Uuid) :
    ∃ a, (s.handle (.grant id worker lease now settings)).1 = .granted (.ok (.leased a)) ∧
      a.step.id = id ∧
      s.Underway i a worker now (s.handle (.grant id worker lease now settings)).2 := by
  have valid := steady.valid
  have active := isActive_of_ready valid.sound ready
  have regular := steady.toRegular.handle ordered (RunStatus.not_isTerminal_of_isActive active)
    (e := .grant id worker lease now settings) rfl
  have ids := handle_id valid.sound valid.settled (.grant id worker lease now settings)
  have policy := handle_policy valid.sound valid.settled (.grant id worker lease now settings)
  obtain ⟨within, free⟩ : (s.step i).attempt.toNat ≤ (p.node i).lastAttempt ∧ (s.step i).cost = 0 := by
    cases steady.steps i with
    | waits _ attempt free => exact ⟨attempt, free⟩
    | skipped status | succeeded status | failed status => cases ready.symm.trans status
  rw [grant_unlimited valid.sound found ready steady.unlimited worker lease now settings] at *
  refine ⟨_, rfl, (indexOf?_eq_some_iff.mp found).1, ?_⟩
  constructor
  case toRegular => exact regular
  case ids => exact ids
  case policy => exact policy
  case active =>
    rw [isActive, replace_record, s.record.begin_status now active]
    rfl
  case config => rfl
  case held =>
    rw [step_replace_self]
    exact ⟨_, rfl, rfl, rfl, Timestamp.lt_after early (Scheduling.ttl_pos lasting (steady.timed i))⟩
  case attempt => rw [step_replace_self]
  case within => exact within
  case free =>
    rw [step_replace_self]
    exact free
  case others =>
    intro j other
    rw [step_replace, if_neg other]
    exact steady.steps j
  case left => exact attemptsLeft_replace (by rw [ready]; decide) Bool.false_ne_true rfl

theorem Underway.isInFlight {s₀ : Run p} {i : Fin p.size} {a : Assignment} {worker : String}
    {now : Timestamp} (underway : s₀.Underway i a worker now s) : (s.step i).status.isInFlight := by
  obtain ⟨l, leased, -⟩ := underway.held
  rw [← (underway.valid.sound i).leased, leased]
  rfl

theorem Underway.renew {s₀ : Run p} {i : Fin p.size} {a : Assignment} {worker : String} {now : Timestamp}
    (underway : s₀.Underway i a worker now s) (ordered : p.Ordered) {id : Uuid}
    (found : s.indexOf? id = some i) (early : now < .latest) {settings : Scheduling}
    (lasting : settings.leaseTtlSecs ≠ 0) :
    (∃ l, (s.handle (.renew id worker now settings)).1 = .renewed (.ok (.renewed l))) ∧
      s₀.Underway i a worker now (s.handle (.renew id worker now settings)).2 := by
  have valid := underway.valid
  have active := underway.active
  have flying := underway.isInFlight
  obtain ⟨l, leased, quoted, holder, alive⟩ := underway.held
  have heeds := renew_heeds found (heldBy_iff.mpr ⟨flying, l, leased, holder, alive⟩) settings
  have regular := underway.toRegular.handle ordered (RunStatus.not_isTerminal_of_isActive active)
    (e := .renew id worker now settings) rfl
  have ids := handle_id valid.sound valid.settled (.renew id worker now settings)
  have policy := handle_policy valid.sound valid.settled (.renew id worker now settings)
  have call := renew_call (s := s) id worker now settings
  generalize s.handle (.renew id worker now settings) = after at *
  cases call with
  | ignored silent => cases heeds.symm.trans silent
  | @heeded j r t o found' change tells =>
    obtain rfl : i = j := by
      rw [change.id_of_renew, found] at found'
      exact Option.some.inj found'
    cases change with
    | abandon l' _ _ held _ _ left =>
      -- Only a run that has stopped marks its leases.
      have kept := (valid.sound i).kept l' held
      rw [left, active] at kept
      cases kept
    | renew l' _ _ held =>
      obtain rfl : l = l' := Option.some.inj (leased.symm.trans held)
      have answered : ∃ l, o = .renewed (.ok (.renewed l)) := by
        cases tells with
        | renewed l => exact ⟨l, rfl⟩
        | abandoned _ skipped => cases skipped
      rw [Event.now, refresh_act_of_inFlight now rfl] at regular ids policy ⊢
      refine ⟨answered, ?_⟩
      constructor
      case toRegular => exact regular
      case ids => exact fun j => (ids j).trans (underway.ids j)
      case policy => exact underway.policy
      case active => exact active
      case config => exact underway.config
      case held =>
        rw [step_replace_self]
        have later := Timestamp.lt_after early (Scheduling.ttl_pos lasting (underway.timed i))
        exact ⟨_, rfl, quoted, rfl, later⟩
      case attempt =>
        rw [step_replace_self]
        exact underway.attempt
      case within => exact underway.within
      case free =>
        rw [step_replace_self]
        exact underway.free
      case others =>
        intro j other
        rw [step_replace, if_neg other]
        exact underway.others j other
      case left =>
        have waits := StepStatus.not_isTerminal_of_isInFlight flying
        refine Eq.trans ?_ underway.left
        exact attemptsLeft_replace waits Bool.false_ne_true rfl

end Run

theorem Step.Aside.attemptsLeft_le {s t : Step} {now : Timestamp} (aside : s.Aside now t) (limit : UInt32) :
    t.attemptsLeft limit ≤ s.attemptsLeft limit := by
  unfold Step.attemptsLeft
  by_cases ended : s.status.isTerminal
  · rw [aside.eq_of_terminal ended]
  · rw [if_neg ended, aside.attempt_eq]
    split
    · exact Nat.zero_le _
    · exact Nat.le_refl _

theorem Step.attemptsLeft_lt {s t : Step} {limit : UInt32} (flying : s.status.isInFlight)
    (within : s.attempt.toNat ≤ limit.toNat)
    (nearer : t.status.isTerminal ∨ t.attempt.toNat = s.attempt.toNat + 1) :
    t.attemptsLeft limit < s.attemptsLeft limit := by
  unfold attemptsLeft
  rw [if_neg (StepStatus.not_isTerminal_of_isInFlight flying)]
  rcases nearer with ended | next
  · rw [if_pos ended]
    omega
  · split <;> omega

namespace Run

variable {p : Plan} {s : Run p}

theorem attemptsLeft_refresh_act_lt {i : Fin p.size} {r : RunRecord} {t : Step} (now : Timestamp)
    (fewer : t.attemptsLeft (p.node i).retryLimit < (s.step i).attemptsLeft (p.node i).retryLimit) :
    ((Released.act ⟨s, []⟩ i r t now).run.refresh now).attemptsLeft < s.attemptsLeft := by
  have most (j) : (((Released.act ⟨s, []⟩ i r t now).run.refresh now).step j).attemptsLeft
      (p.node j).retryLimit ≤ ((s.replace i r t).step j).attemptsLeft (p.node j).retryLimit := by
    rw [step_refresh]
    exact (Released.step_act_aside ⟨s, []⟩ i r t now j).attemptsLeft_le _
  refine Finset.sum_lt_sum (fun j _ => Nat.le_trans (most j) ?_) ⟨i, Finset.mem_univ i, ?_⟩
  · rw [step_replace]
    split
    · subst j
      exact Nat.le_of_lt fewer
    · exact Nat.le_refl _
  · refine Nat.lt_of_le_of_lt (most i) ?_
    rwa [step_replace_self]

theorem Underway.accept {s₀ : Run p} {i : Fin p.size} {a : Assignment} {worker : String}
    {now : Timestamp} (underway : s₀.Underway i a worker now s) (ordered : p.Ordered) {id : Uuid}
    (found : s.indexOf? id = some i) {settings : Scheduling} (atOnce : settings.retryBaseDelayMs = 0) :
    let e : Event := .accept id (Job.ofAssignment .simulated a).report now settings
    (∃ status ready, (s.handle e).1 = .accepted (.ok (.applied status ready))) ∧
      (s.handle e).2.Steady ∧ (∀ j, ((s.handle e).2.step j).id = (s₀.step j).id) ∧
      (s.handle e).2.record.policy = s₀.record.policy ∧ (s.handle e).2.attemptsLeft < s₀.attemptsLeft := by
  intro e
  have valid := underway.valid
  have active := underway.active
  have flying := underway.isInFlight
  obtain ⟨l, leased, quoted, -, alive⟩ := underway.held
  have simulated := Job.simulated a underway.config
  have lease : (Job.ofAssignment .simulated a).report.lease = l.id :=
    (Job.report_lease _).trans quoted.symm
  have heeds := accept_heeds found (accepts_iff.mpr ⟨flying, l, leased, lease.symm, alive⟩) settings
  have regular := underway.toRegular.handle ordered (RunStatus.not_isTerminal_of_isActive active)
    (e := e) rfl
  have ids (j) := (handle_id valid.sound valid.settled e j).trans (underway.ids j)
  have policy := (handle_policy valid.sound valid.settled e).trans underway.policy
  have call := accept_call valid.sound id (Job.ofAssignment .simulated a).report now settings
  simp only [e] at *
  generalize s.handle (.accept id (Job.ofAssignment .simulated a).report now settings) = after at *
  cases call with
  | ignored silent => cases heeds.symm.trans silent
  | @heeded j r t o found' change tells =>
    obtain rfl : i = j := by
      rw [change.quotes.1, found] at found'
      exact Option.some.inj found'
    have answered : ∃ status ready, o = .accepted (.ok (.applied status ready)) := by
      cases tells with
      | applied status ready => exact ⟨status, ready, rfl⟩
    rw [← underway.attempt] at simulated
    have within := underway.within
    rw [← underway.attempt] at within
    obtain ⟨course, nearer⟩ := change.course simulated atOnce active within underway.free
    have aside (j) := Released.step_act_aside ⟨s, []⟩ i r t now j
    refine ⟨answered, ⟨regular, fun j => ?_⟩, ids, policy, ?_⟩
    · rw [step_refresh]
      refine Node.Course.aside ?_ (aside j)
      rw [step_replace]
      split
      · subst j
        exact course
      · exact underway.others j ‹_›
    · rw [← underway.left]
      refine attemptsLeft_refresh_act_lt now (Step.attemptsLeft_lt flying ?_ nearer)
      exact Nat.le_trans within (p.node i).lastAttempt_le

structure Finished (s : Run p) : Prop where
  ended : s.record.status.isTerminal
  steps : ∀ i, (s.step i).status.isTerminal
  skipped : s.record.policy = .tolerant → ∀ i,
    (s.step i).status = .skipped ↔ ∃ d, p.DependsOn i d ∧ (s.step d).status = .failed
  executed : ∀ i, (s.step i).status ≠ .skipped →
    (s.step i).status = (if (p.node i).fails then .failed else .succeeded) ∧
      (s.step i).attempt.toNat = (p.node i).lastAttempt
  tolerant : s.record.policy = .tolerant → s.record.status = s.endStatus
  failFast : s.record.policy = .failFast →
    s.record.status = if ∃ i, (p.node i).fails then .failed else .succeeded
  cost : s.record.cost.value = min 9223372036854775807
    (∑ i, if (s.step i).status = .succeeded then (p.node i).price else 0)

namespace Steady

variable (steady : s.Steady)

include steady

theorem steps_terminal (ended : ¬ s.isActive) (i : Fin p.size) : (s.step i).status.isTerminal := by
  have stopped := (steady.valid.sound i).stopped (Bool.eq_false_of_not_eq_true ended)
  exact stopped.resolve_right (steady.steps i).grounded

theorem ended (ordered : p.Ordered) (idle : ∀ i, (s.step i).status ≠ .ready) :
    s.record.status.isTerminal := by
  cases steady.valid.phase with
  | active _ active =>
    obtain ⟨i, opened⟩ := steady.valid.exists_open ordered active
    exact absurd ((steady.steps i).ready_of_isOpen opened) (idle i)
  | canceling canceled | canceled canceled => cases canceled
  | broken _ status => rw [status]; rfl
  | ended _ status =>
    rw [status]
    exact endStatus_isTerminal s

theorem status_of_tolerant (ended : s.record.status.isTerminal) (tolerant : s.record.policy = .tolerant) :
    s.record.status = s.endStatus := by
  cases steady.valid.phase with
  | active _ active => exact absurd ended (RunStatus.not_isTerminal_of_isActive active)
  | canceling canceled | canceled canceled => cases canceled
  | broken _ _ failFast => cases tolerant.symm.trans failFast
  | ended _ status => exact status

theorem status_of_failFast (ended : s.record.status.isTerminal) (failFast : s.record.policy = .failFast) :
    s.record.status = if ∃ i, (p.node i).fails then .failed else .succeeded := by
  cases steady.valid.phase with
  | active _ active => exact absurd ended (RunStatus.not_isTerminal_of_isActive active)
  | canceling canceled | canceled canceled => cases canceled
  | broken _ status _ i failed => rw [status, if_pos ⟨i, (steady.steps i).fails_of_failed failed⟩]
  | ended _ status _ clean =>
    have all := clean failFast
    have none : ¬ ∃ i, (p.node i).fails := fun ⟨i, fails⟩ =>
      (steady.steps i).sound_of_succeeded (all i) fails
    rw [if_neg none, status, endStatus, if_pos (all_status_iff.mpr all)]

theorem finished (ordered : p.Ordered) (idle : ∀ i, (s.step i).status ≠ .ready) : s.Finished := by
  have ended := steady.ended ordered idle
  have steps := steady.steps_terminal fun active => RunStatus.not_isTerminal_of_isActive active ended
  constructor
  case ended => exact ended
  case steps => exact steps
  case skipped =>
    intro tolerant i
    have tracked := steady.valid.tracked (.inr ⟨tolerant, rfl⟩)
    exact (tracked.readiness ordered i).skipped
  case executed => exact fun i kept => (steady.steps i).executed (steps i) kept
  case tolerant => exact steady.status_of_tolerant ended
  case failFast => exact steady.status_of_failFast ended
  case cost =>
    have balanced := steady.balanced
    unfold Balanced spent at balanced
    simp only [balanced, RunRecord.ceiling, steady.unlimited, (steady.steps _).cost_eq]

end Steady

end Run

end Orchestration
