import Orchestration.Proofs.Worker.Round

namespace Orchestration

namespace Worker

def beat (worker : String) (step : Uuid) (now : Timestamp) :
    Nat → Service → Except Refusal Unit × Service
  | 0, s => (.ok (), s)
  | beats + 1, s =>
    match s.heartbeat worker step now with
    | (.error why, s) => (.error why, s)
    | (.ok _, s) => beat worker step now beats s

def round (s : Service) (tools : Toolbox) (worker : String) (leaseId : Uuid) (now : Timestamp)
    (beats : Nat) : Except Refusal (Option Job) × Service :=
  match s.poll worker leaseId now with
  | (.error why, s) => (.error why, s)
  | (.ok none, s) => (.ok none, s)
  | (.ok (some a), s) =>
    let job := Job.ofAssignment tools a
    match beat worker job.step now beats s with
    | (.error why, s) => (if drops why then .ok (some job) else .error why, s)
    | (.ok _, s) =>
      let (result, s) := finish s job now
      (result.map fun _ => some job, s)

/-- Rounds until no step is ready, at most `fuel` of them, the `n`-th with `beats n` heartbeats. -/
def rounds (tools : Toolbox) (worker : String) (leaseId : Nat → Uuid) (beats : Nat → Nat)
    (now : Timestamp) : Nat → Service → List Job × Option Refusal × Service
  | 0, s => ([], none, s)
  | fuel + 1, s =>
    match round s tools worker (leaseId 0) now (beats 0) with
    | (.error why, s) => ([], some why, s)
    | (.ok none, s) => ([], none, s)
    | (.ok (some job), s) =>
      let (jobs, why, s) :=
        rounds tools worker (fun n => leaseId (n + 1)) (fun n => beats (n + 1)) now fuel s
      (job :: jobs, why, s)

theorem runOnce_eq_round (s : Service) (tools : Toolbox) (worker : String) (leaseId : Uuid)
    (now : Timestamp) : runOnce s tools worker leaseId now = round s tools worker leaseId now 1 := by
  unfold runOnce round
  rcases s.poll worker leaseId now with ⟨why | _ | a, s⟩
  · rfl
  · rfl
  · simp only [beat]
    rcases s.heartbeat worker (Job.ofAssignment tools a).step now with ⟨why | l, s⟩
    · rfl
    · rfl

theorem drain_eq_rounds (tools : Toolbox) (worker : String) (leaseId : Nat → Uuid) (now : Timestamp)
    (fuel : Nat) (s : Service) :
    drain tools worker leaseId now fuel s = rounds tools worker leaseId (fun _ => 1) now fuel s := by
  induction fuel generalizing s leaseId with
  | zero => rfl
  | succ fuel ih =>
    unfold drain rounds
    rw [runOnce_eq_round]
    rcases round s tools worker (leaseId 0) now 1 with ⟨why | _ | job, s⟩
    · rfl
    · rfl
    · exact congrArg (fun (jobs, why, s) => (job :: jobs, why, s)) (ih (fun n => leaseId (n + 1)) s)

/-- How rounds end once they have left nothing to do in `s`. -/
structure Drained (s : Service) (result : List Job × Option Refusal × Service) : Prop where
  unbroken : result.2.1 = none
  idle : ∀ tools worker lease now, (runOnce result.2.2 tools worker lease now).1 = .ok none
  ids : result.2.2.broker.ledger.ids = s.broker.ledger.ids
  runs : ∀ id r, s.broker.ledger.find? id = some r →
    ∃ run : Run r.plan, result.2.2.broker.ledger.find? id = some { r with run } ∧
      run.record.policy = r.record.policy ∧ run.Finished

end Worker

namespace Service

/-- A new service with `settings`, in which workflows were registered and runs without a budget
submitted, and nothing else. -/
inductive Prepared (settings : Scheduling) : Service → Prop
  | new {s : Service} (made : Service.new settings = .ok s) : Prepared settings s
  | register {s : Service} (prepared : Prepared settings s) (name : String) (definition : Definition)
      (now : Timestamp) (id : Uuid) : Prepared settings (s.register name definition now id).2
  | submit {s s' : Service} (prepared : Prepared settings s) {request : Submission}
      (unlimited : request.budget = none) {now : Timestamp} {runId : Uuid} {stepId : Nat → Uuid}
      {record : RunRecord} (accepted : s.submit request now runId stepId = (.ok record, s'))
      (distinct : ∀ w, s.workflow request.workflow.name request.workflow.version = .ok w →
        ∀ i j : Fin w.nodes.length, stepId i = stepId j → i = j) : Prepared settings s'

end Service

theorem Run.start_steady {w : Workflow} {p : Plan} (built : Plan.ofWorkflow w = .ok p)
    {record : RunRecord} (fresh : record.Fresh) (unlimited : record.budget = none)
    (stepId : Nat → Uuid) : (start p record stepId).Steady := by
  obtain ⟨funded, balanced⟩ := start_funded (p := p) fresh stepId
  constructor
  case toRegular =>
    exact ⟨fun i => (Plan.node_sound built i).2, .start (Plan.ordered built) fresh stepId, funded, balanced,
      unlimited⟩
  case steps =>
    intro i
    simp only [start, step, Fin.getElem_fin, Vector.getElem_ofFn]
    split
    · exact .waits (.inr rfl) (Nat.zero_le _) rfl
    · exact .waits (.inl rfl) (Nat.zero_le _) rfl

theorem Broker.Steady.enter {b b' : Broker} (steady : b.Steady) {r : PlannedRun} (fresh : r.Fresh)
    (run : r.run.Steady) (entered : b.enter r = (.ok (), b')) : b'.Steady := by
  obtain ⟨past, follows⟩ := steady.follows
  have follows' := follows.perform (r := .enter r) (by intro _ same; cases same; exact fresh)
  rw [perform, entered] at follows'
  rcases b.enter_cases r with ⟨why, -, refused⟩ | ⟨ledger, inserted, done⟩
  · cases refused.symm.trans entered
  · cases done.symm.trans entered
    have inserts := Ledger.inserts_of_insert inserted
    have find := inserts.find?
    have resolve := inserts.resolve?
    constructor
    case follows => exact ⟨_, follows'⟩
    case runs =>
      intro x r' found
      change ledger.find? x = some r' at found
      rw [find] at found
      split at found
      · obtain rfl := Option.some.inj found
        exact run
      · exact steady.runs x r' found
    case named =>
      intro x r' found j
      change ledger.find? x = some r' at found
      change ledger.resolve? (r'.run.step j).id = some x
      rw [find] at found
      rw [resolve]
      split at found
      · subst x
        obtain rfl := Option.some.inj found
        rw [if_pos]
        exact List.mem_map_of_mem (Run.mem_steps.mpr ⟨j, rfl⟩)
      · have known := steady.named x r' found j
        rw [if_neg]
        · exact known
        · intro new
          rw [inserts.unbound _ new] at known
          cases known
    case atOnce => exact steady.atOnce
    case lasting => exact steady.lasting

namespace Service

variable {s s' : Service} {settings : Scheduling}

theorem Prepared.steady (atOnce : settings.retryBaseDelayMs = 0) (prepared : s.Prepared settings) :
    s.broker.Steady := by
  induction prepared with
  | new made =>
    unfold Service.new at made
    split at made
    · cases made
    · rename_i sound
      cases made
      constructor
      case follows => exact ⟨[], .new settings⟩
      case runs => exact fun _ _ found => nomatch found
      case named => exact fun _ _ found => nomatch found
      case atOnce => exact atOnce
      case lasting =>
        intro zero
        have zero : settings.leaseTtlSecs = 0 := zero
        simp [Scheduling.flaw?, zero] at sound
  | @register s prepared name definition now id ih =>
    have same : (s.register name definition now id).2.broker = s.broker := by
      unfold Service.register
      split <;> rfl
    rw [same]
    exact ih
  | @submit s s' prepared request unlimited now runId stepId record accepted distinct ih =>
    unfold Service.submit at accepted
    rw [unlimited] at accepted
    simp only [Option.filter_none] at accepted
    cases given : s.catalog.get request.workflow.name request.workflow.version with
    | error why => rw [given] at accepted; cases accepted
    | ok w =>
      rw [given] at accepted
      dsimp only at accepted
      cases built : Plan.ofWorkflow w with
      | error flaw => rw [built] at accepted; cases accepted
      | ok p =>
        rw [built] at accepted
        dsimp only at accepted
        obtain ⟨g, -, rfl⟩ := Plan.ofWorkflow_eq_ok built
        have fresh := RunRecord.queued_fresh runId w.reference
          (request.policy.getD s.settings.failurePolicy) now request.budget request.tags request.input
        have started := Run.start_steady built fresh unlimited stepId
        rcases entered : s.broker.enter _ with ⟨why | _, broker⟩
        · rw [entered] at accepted
          cases accepted
        · rw [entered] at accepted
          cases accepted
          exact ih.enter (.start built fresh stepId (distinct w given)) started entered

end Service

namespace Worker

variable {s : Service} {worker : String} {now : Timestamp}

theorem beat_atWork {b : Broker} {id : Uuid} {r : PlannedRun} {i : Fin r.plan.size} {a : Assignment}
    (steady : b.Steady) (found : b.ledger.find? id = some r) (here : r.run.indexOf? a.step.id = some i)
    (early : now < .latest) (beats : Nat) (work : b.AtWork id r i a worker now s.broker) :
    ∃ s', beat worker a.step.id now beats s = (.ok (), s') ∧ b.AtWork id r i a worker now s'.broker := by
  induction beats generalizing s with
  | zero => exact ⟨s, rfl, work⟩
  | succ beats ih =>
    obtain ⟨l, b', answer, work'⟩ := work.heartbeat steady found here early
    have renewed : s.heartbeat worker a.step.id now = (.ok l, { s with broker := b' }) := by
      rw [Service.heartbeat, answer]
    unfold beat
    rw [renewed]
    exact ih work'

/-- A round leaves nothing to do, or one attempt fewer. -/
theorem round_steady (steady : s.broker.Steady) (early : now < .latest) (worker : String)
    (leaseId : Uuid) (beats : Nat) :
    (∃ s', round s .simulated worker leaseId now beats = (.ok none, s') ∧ s'.broker.Steady ∧
        s'.broker.ledger = s.broker.ledger ∧ s'.broker.queue.tickets = [] ∧
        ∀ id r, s.broker.ledger.find? id = some r → ∀ i, (r.run.step i).status ≠ .ready) ∨
      ∃ job s', round s .simulated worker leaseId now beats = (.ok (some job), s') ∧
        s'.broker.Steady ∧ s.broker.ledger.Continues s'.broker.ledger ∧
        s'.broker.ledger.attemptsLeft < s.broker.ledger.attemptsLeft := by
  rcases steady.poll early worker leaseId with
    ⟨b', answer, idle⟩ | ⟨id, r, i, a, b', answer, found, here, work⟩
  · have polled : s.poll worker leaseId now = (.ok none, { s with broker := b' }) := by
      rw [Service.poll, answer]
    left
    refine ⟨{ s with broker := b' }, ?_, idle⟩
    rw [round, polled]
  · have polled : s.poll worker leaseId now = (.ok (some a), { s with broker := b' }) := by
      rw [Service.poll, answer]
    obtain ⟨s₁, beaten, work₁⟩ := beat_atWork steady found here early beats (s := { s with broker := b' }) work
    obtain ⟨receipt, b₂, reported, steady', -, continues, fewer⟩ := work₁.complete steady found here
    have completed : s₁.complete a.step.id (Job.ofAssignment .simulated a).report now =
        (.ok receipt, { s₁ with broker := b₂ }) := by
      rw [Service.complete, reported]
    right
    refine ⟨Job.ofAssignment .simulated a, { s₁ with broker := b₂ }, ?_, steady', continues, fewer⟩
    have step : (Job.ofAssignment .simulated a).step = a.step.id := rfl
    rw [round, polled]
    simp only [step, beaten, finish, completed]
    rfl

theorem runOnce_of_empty (empty : s.broker.queue.tickets = []) (tools : Toolbox) (worker : String)
    (leaseId : Uuid) (now : Timestamp) : (runOnce s tools worker leaseId now).1 = .ok none := by
  have polled : s.broker.poll worker leaseId now = (.ok none, s.broker) := by
    unfold Broker.poll Broker.pollWithin
    rw [Broker.turn_of_empty worker leaseId now empty]
    rfl
  unfold runOnce Service.poll
  rw [polled]

theorem rounds_drained (steady : s.broker.Steady) (early : now < .latest) (worker : String)
    (leaseId : Nat → Uuid) (beats : Nat → Nat) {fuel : Nat}
    (enough : s.broker.ledger.attemptsLeft < fuel) :
    Drained s (rounds .simulated worker leaseId beats now fuel s) ∧
      (rounds .simulated worker leaseId beats now fuel s).1.length ≤ s.broker.ledger.attemptsLeft := by
  -- A round that does a job leaves fewer attempts, so the fuel never runs out before they do.
  induction fuel generalizing s leaseId beats with
  | zero => exact absurd enough (Nat.not_lt_zero _)
  | succ fuel ih =>
    unfold rounds
    rcases round_steady steady early worker (leaseId 0) (beats 0) with
      ⟨s', answer, steady', ledger, empty, idle⟩ | ⟨job, s', answer, steady', continues, fewer⟩
    · rw [answer]
      refine ⟨?_, Nat.zero_le _⟩
      constructor
      case unbroken => rfl
      case idle => exact runOnce_of_empty empty
      case ids => exact congrArg Ledger.ids ledger
      case runs =>
        intro id r found
        obtain ⟨past, follows⟩ := steady.follows
        have ordered := (follows.sound.runs id r found).ordered
        have finished := (steady.runs id r found).finished ordered (idle id r found)
        exact ⟨r.run, (congrArg (·.find? id) ledger).trans found, rfl, finished⟩
    · rw [answer]
      obtain ⟨drained, few⟩ := ih steady' (fun n => leaseId (n + 1)) (fun n => beats (n + 1)) (by omega)
      refine ⟨?_, ?_⟩
      · constructor
        case unbroken => exact drained.unbroken
        case idle => exact drained.idle
        case ids => exact drained.ids.trans continues.ids
        case runs =>
          intro id r found
          obtain ⟨run, found', policy⟩ := continues.runs id r found
          obtain ⟨run', found'', policy', finished⟩ := drained.runs id _ found'
          exact ⟨run', found'', policy'.trans policy, finished⟩
      · rw [List.length_cons]
        omega

end Worker

theorem Run.attemptsLeft_le {p : Plan} (s : Run p) : s.attemptsLeft ≤ p.mostLeases := by
  refine Finset.sum_le_sum fun i _ => ?_
  unfold Step.attemptsLeft
  split
  · exact Nat.zero_le _
  · exact Nat.sub_le _ _

/-- A worker with simulated executors that goes on until no step is ready does so after as many rounds as
its runs may grant leases, however often it renews the leases in between, and brings each run to the
end that the configuration of its nodes asks for. -/
theorem Worker.drain_finishes {settings : Scheduling} (atOnce : settings.retryBaseDelayMs = 0) {s : Service}
    (prepared : s.Prepared settings) (worker : String) (leaseId : Nat → Uuid) {now : Timestamp}
    (early : now < .latest) {fuel : Nat}
    (enough : s.broker.ledger.total (·.plan.mostLeases) < fuel) :
    Drained s (drain .simulated worker leaseId now fuel s) ∧
      (drain .simulated worker leaseId now fuel s).1.length < fuel ∧
      ∀ beats, Drained s (rounds .simulated worker leaseId beats now fuel s) ∧
        (rounds .simulated worker leaseId beats now fuel s).1.length < fuel := by
  have steady := prepared.steady atOnce
  have most : s.broker.ledger.attemptsLeft ≤ s.broker.ledger.total (·.plan.mostLeases) :=
    Ledger.total_le (fun r => r.run.attemptsLeft_le) _
  have enough' : s.broker.ledger.attemptsLeft < fuel := Nat.lt_of_le_of_lt most enough
  have ends (beats : Nat → Nat) : Drained s (rounds .simulated worker leaseId beats now fuel s) ∧
      (rounds .simulated worker leaseId beats now fuel s).1.length < fuel := by
    obtain ⟨drained, few⟩ := rounds_drained steady early worker leaseId beats enough'
    exact ⟨drained, Nat.lt_of_le_of_lt few enough'⟩
  rw [drain_eq_rounds]
  exact ⟨(ends _).1, (ends _).2, ends⟩

def Workflow.course : Workflow :=
  ⟨.nil, "course", 1, "",
    [⟨"retried", .tool, [], 2, none, 0, .object [("fail_attempts", .int 1), ("cost_cents", .int 3)]⟩,
      ⟨"broken", .llm, ["retried"], 2, none, 0, .object [("fatal", .string "no")]⟩,
      ⟨"skipped", .function, ["broken"], 0, none, 0, .null⟩], .epoch⟩

/-- One step succeeds at its second attempt, one fails at its first, and one is never handed out. -/
theorem Worker.drain_finishes_course :
    let request := { Submission.ofReference ⟨"course", .latest⟩ with policy := some .tolerant }
    let registered : Service :=
      (Service.register ⟨.empty, .new default⟩ "course" (.ofNodes Workflow.course.nodes) .epoch .nil).2
    let s : Service := (registered.submit request .epoch (.ofNat 10) .ofNat).2
    let result := drain .simulated "worker" .ofNat .epoch 8 s
    s.Prepared default ∧ Timestamp.epoch < .latest ∧
      s.broker.ledger.total (·.plan.mostLeases) < 8 ∧ Drained s result ∧ result.1.length = 3 ∧
      result.2.2.broker.ledger.entries.map (fun (_, r) =>
        (r.run.record.status, r.run.record.cost.value, r.run.steps.toList.map (·.status))) =
        [(.partialSuccess, 3, [.succeeded, .failed, .skipped])] := by
  intro request registered s result
  have new : (Service.mk .empty (.new default)).Prepared default := .new rfl
  have known : registered.workflow "course" .latest = .ok .course := by rfl
  have accepted : (registered.submit request .epoch (.ofNat 10) .ofNat).1 =
      .ok (registered.recordFor request .course .epoch (.ofNat 10)) := by
    simp only [registered, request]
    rfl
  have prepared : s.Prepared default := by
    refine .submit (new.register _ _ _ _) rfl (Prod.ext accepted rfl) fun w given => ?_
    obtain rfl := Except.ok.inj (known.symm.trans given)
    decide +kernel
  have early : Timestamp.epoch < .latest := by decide +kernel
  have enough : s.broker.ledger.total (·.plan.mostLeases) < 8 := by decide +kernel
  obtain ⟨drained, -, -⟩ := drain_finishes rfl prepared "worker" .ofNat early enough
  exact ⟨prepared, early, enough, drained, by decide +kernel, by decide +kernel⟩

end Orchestration
