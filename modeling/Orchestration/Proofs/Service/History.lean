import Orchestration.Service
import Orchestration.Proofs.Broker.Names
import Orchestration.Proofs.Broker.Resolving
import Orchestration.Proofs.Catalog
import Orchestration.Proofs.Workflow.Acceptance

namespace Orchestration

namespace Submission

def IsNegative (s : Submission) : Prop := ∃ budget, s.budget = some budget ∧ budget < 0

theorem filter_of_not_isNegative (s : Submission) (positive : ¬ s.IsNegative) :
    s.budget.filter (· < 0) = none := by
  apply Option.filter_eq_none_iff.mpr
  intro budget asked below
  exact positive ⟨budget, asked, of_decide_eq_true below⟩

def workflow? (s : Submission) (all : List Workflow) : Option Workflow :=
  Catalog.select? (Catalog.named all (Text.trim s.workflow.name)) s.workflow.version

theorem mem_of_workflow? {s : Submission} {all : List Workflow} {w : Workflow}
    (found : s.workflow? all = some w) : w ∈ all := by
  have listed : w ∈ Catalog.named all (Text.trim s.workflow.name) := by
    unfold workflow? Catalog.select? at found
    split at found
    · exact List.mem_of_getLast? found
    · split at found
      · cases found
      · exact List.mem_of_getElem? found
  exact (List.mem_filter.mp listed).1

end Submission

structure Workflow.Runnable (w : Workflow) (settings : Scheduling) : Prop where
  planned : ∃ p, Plan.ofWorkflow w = .ok p
  outlasts : ∀ node ∈ w.nodes, ∀ secs, node.timeoutSecs = some secs →
    settings.sweepInterval < seconds secs.toNat

namespace Service

inductive Call where
  | register (name : String) (definition : Definition) (now : Timestamp) (id : Uuid)
  | workflow (name : String) (version : Version)
  | newest
  | settings
  | submit (request : Submission) (now : Timestamp) (runId : Uuid) (stepId : Nat → Uuid)
  | view (run : Uuid)
  | runs (filter : RunFilter)
  | cancel (run : Uuid) (now : Timestamp)
  | poll (worker : String) (lease : Uuid) (now : Timestamp)
  | heartbeat (worker : String) (step : Uuid) (now : Timestamp)
  | complete (step : Uuid) (report : Report) (now : Timestamp)
  | sweep (now : Timestamp)

def call (s : Service) : Call → Service
  | .register name definition now id => (s.register name definition now id).2
  | .submit request now runId stepId => (s.submit request now runId stepId).2
  | .cancel run now => (s.cancel run now).2
  | .poll worker lease now => (s.poll worker lease now).2
  | .heartbeat worker step now => (s.heartbeat worker step now).2
  | .complete step report now => (s.complete step report now).2
  | .sweep now => (s.sweep now).2
  | .workflow .. | .newest | .settings | .view _ | .runs _ => s

def after (s : Service) (calls : List Call) : Service := calls.foldl call s

def added? (s : Service) : Call → Option Workflow
  | .register name definition now id => (s.register name definition now id).1.toOption
  | _ => none

def registered (s : Service) : List Call → List Workflow
  | [] => []
  | k :: calls => (s.added? k).toList ++ (s.call k).registered calls

def issues (s : Service) : Call → List Uuid
  | .submit request _ runId stepId =>
    match s.workflow request.workflow.name request.workflow.version with
    | .ok w =>
      if request.budget.any (· < 0) then [] else runId :: (List.range w.nodes.length).map stepId
    | .error _ => []
  | _ => []

def issued (s : Service) : List Call → List Uuid
  | [] => []
  | k :: calls => s.issues k ++ (s.call k).issued calls

structure Stands (s : Service) (settings : Scheduling) (all : List Workflow) (ids : List Uuid) :
    Prop where
  under : s.settings = settings
  keeps : s.catalog.Keeps all
  runnable : ∀ w ∈ all, w.Runnable settings
  known : ∀ id ∈ s.broker.ledger.names, id ∈ ids
  consistent : s.broker.ledger.Consistent

variable {s : Service} {settings : Scheduling} {all : List Workflow} {ids : List Uuid}

theorem new_eq_ok (opened : new settings = .ok s) : s = ⟨.empty, .new settings⟩ := by
  unfold new at opened
  split at opened
  · cases opened
  · exact (Except.ok.inj opened).symm

theorem outlasts_of_no_flaw {nodes : List Node} (passed : settings.timeoutsFlaw? nodes = none) :
    ∀ node ∈ nodes, ∀ secs, node.timeoutSecs = some secs →
      settings.sweepInterval < seconds secs.toNat := by
  intro node member secs timed
  have sound := List.findSome?_eq_none_iff.mp passed node member
  unfold Scheduling.timeoutFlaw? at sound
  rw [timed] at sound
  dsimp only at sound
  split at sound
  · cases sound
  · split at sound
    · cases sound
    · rename_i longer
      exact Nat.lt_of_not_le longer

theorem register_cases (s : Service) (name : String) (definition : Definition) (now : Timestamp)
    (id : Uuid) :
    (∃ flaw, s.register name definition now id = (.error (.flawed flaw), s)) ∨
      s.settings.timeoutsFlaw? definition.nodes = none ∧
        s.register name definition now id =
          ((s.catalog.register name definition now id).1,
            { s with catalog := (s.catalog.register name definition now id).2 }) := by
  unfold register
  cases s.settings.timeoutsFlaw? definition.nodes with
  | some flaw => exact .inl ⟨flaw, rfl⟩
  | none => exact .inr ⟨rfl, rfl⟩

theorem nodes_of_register {c : Catalog} {name : String} {definition : Definition} {now : Timestamp}
    {id : Uuid} {w : Workflow} (done : (c.register name definition now id).1 = .ok w) :
    w.nodes = definition.nodes ∧ ∃ g, Graph.ofNodes w.nodes = .ok g := by
  have registration := c.registration name definition now id
  generalize c.register name definition now id = answer at registration done
  cases registration with
  | done filled accepted next room made =>
    obtain rfl := Except.ok.inj done
    subst made
    exact ⟨rfl, accepted⟩
  | refused => cases done

theorem register_broker (s : Service) (name : String) (definition : Definition) (now : Timestamp)
    (id : Uuid) : (s.register name definition now id).2.broker = s.broker := by
  rcases s.register_cases name definition now id with ⟨flaw, refused⟩ | ⟨-, done⟩
  · rw [refused]
  · rw [done]

theorem submit_broker (s : Service) (request : Submission) (now : Timestamp) (runId : Uuid)
    {stepId : Nat → Uuid} (distinct : Function.Injective stepId) :
    (s.submit request now runId stepId).2.broker = s.broker ∨
      ∃ r, PlannedRun.Fresh r ∧
        (s.submit request now runId stepId).2.broker = s.broker.carry (.enter r) := by
  unfold submit
  split
  · exact .inl rfl
  · split
    · exact .inl rfl
    · rename_i w _
      split
      · exact .inl rfl
      · rename_i p built
        have fresh : PlannedRun.Fresh ⟨p, .start p (s.recordFor request w now runId) stepId⟩ :=
          .start built (RunRecord.queued_fresh ..) stepId fun i j same => Fin.ext (distinct same)
        refine .inr ⟨_, fresh, ?_⟩
        rw [← Broker.enter_eq]
        dsimp only
        split
        all_goals
          rename_i entered
          rw [entered]

theorem cancel_broker (sound : s.broker.ledger.Sound) (run : Uuid) (now : Timestamp) :
    (s.cancel run now).2.broker = s.broker.carry (.event run (.cancel now)) := by
  unfold Service.cancel
  cases found : s.broker.ledger.find? run with
  | none =>
    rw [Broker.carry_of_missing found]
    simp only [Broker.onRun_of_missing found]
    split
    all_goals
      rename_i answer
      exact (congrArg Prod.snd answer).symm
  | some r =>
    have canceled := Broker.onRun_of_found sound.distinct found
      (fun r => (.ok (r.cancel now).2.record, (r.cancel now).2)) (by intro _ refused; cases refused)
    rw [Broker.carry_of_found found]
    simp only [canceled, Run.handle, Outcome.ready, Broker.enqueue_nil]

theorem runnable_of_register {name : String} {definition : Definition} {now : Timestamp} {id : Uuid}
    {w : Workflow} (passed : settings.timeoutsFlaw? definition.nodes = none)
    (done : (s.catalog.register name definition now id).1 = .ok w) : w.Runnable settings := by
  obtain ⟨nodes, g, built⟩ := nodes_of_register done
  rw [← nodes] at passed
  constructor
  case planned =>
    unfold Plan.ofWorkflow
    rw [built]
    exact ⟨_, rfl⟩
  case outlasts => exact outlasts_of_no_flaw passed

namespace Stands

theorem new (opened : new settings = .ok s) : s.Stands settings [] [] := by
  rw [new_eq_ok opened]
  exact ⟨rfl, .empty, by simp, nofun, Ledger.Consistent.empty⟩

theorem register (stands : s.Stands settings all ids) (name : String) (definition : Definition)
    (now : Timestamp) (id : Uuid) :
    (s.register name definition now id).2.Stands settings
      (all ++ (s.register name definition now id).1.toOption.toList) ids := by
  rcases s.register_cases name definition now id with ⟨flaw, refused⟩ | ⟨passed, done⟩
  · rw [refused]
    simpa [Except.toOption] using stands
  · rw [done]
    rw [stands.under] at passed
    constructor
    case under => exact stands.under
    case keeps => exact stands.keeps.call (.register name definition now id)
    case runnable =>
      intro w member
      rcases List.mem_append.mp member with old | new
      · exact stands.runnable w old
      · cases answer : (s.catalog.register name definition now id).1 with
        | error why => simp [answer, Except.toOption] at new
        | ok w' =>
          simp only [answer, Except.toOption, Option.toList_some, List.mem_singleton] at new
          subst new
          exact runnable_of_register passed answer
    case known => exact stands.known
    case consistent => exact stands.consistent

theorem broker (stands : s.Stands settings all ids) {b : Broker} (knows : s.broker.Knows b) :
    Stands { s with broker := b } settings all ids := by
  constructor
  case under => exact knows.settings.trans stands.under
  case keeps => exact stands.keeps
  case runnable => exact stands.runnable
  case known =>
    rw [knows.names]
    exact stands.known
  case consistent => exact knows.consistent stands.consistent

theorem cancel (stands : s.Stands settings all ids) (run : Uuid) (now : Timestamp) :
    (s.cancel run now).2.Stands settings all ids := by
  have canceled := stands.broker
    (s.broker.onRun_knows run fun r => (.ok (r.cancel now).2.record, (r.cancel now).2))
  unfold Service.cancel
  dsimp only
  split
  · rename_i missing
    rw [missing] at canceled
    exact canceled
  · rename_i answered
    rw [answered] at canceled
    exact canceled

theorem workflow_eq_ok_iff (stands : s.Stands settings all ids) (request : Submission) (w : Workflow) :
    s.workflow request.workflow.name request.workflow.version = .ok w ↔
      request.workflow? all = some w := stands.keeps.get_eq_ok_iff ..

theorem workflow_of_none (stands : s.Stands settings all ids) {request : Submission}
    (unknown : request.workflow? all = none) :
    s.workflow request.workflow.name request.workflow.version =
      .error (.missing (.workflow ⟨Text.trim request.workflow.name, request.workflow.version⟩)) :=
  stands.keeps.get_of_none unknown

end Stands

def started (s : Service) (request : Submission) (now : Timestamp) (runId : Uuid)
    (stepId : Nat → Uuid) (p : Plan) : PlannedRun :=
  ⟨p, .start p (s.recordFor request p.workflow now runId) stepId⟩

inductive Submitting (s : Service) (all : List Workflow) (request : Submission) (now : Timestamp)
    (runId : Uuid) (stepId : Nat → Uuid) : Except Refusal RunRecord × Service → Prop
  | negative (budget : Cents) (asked : request.budget = some budget) (below : budget < 0) :
      Submitting s all request now runId stepId (.error (.flawed (.negativeBudget budget)), s)
  | unknown (positive : ¬ request.IsNegative) (absent : request.workflow? all = none) :
      Submitting s all request now runId stepId
        (.error (.missing
          (.workflow ⟨Text.trim request.workflow.name, request.workflow.version⟩)), s)
  | found (positive : ¬ request.IsNegative) (p : Plan)
      (registered : request.workflow? all = some p.workflow)
      (built : Plan.ofWorkflow p.workflow = .ok p) {result : Except Refusal Unit} {broker : Broker}
      (entered : s.broker.enter (s.started request now runId stepId p) = (result, broker)) :
      Submitting s all request now runId stepId
        (result.map fun _ => s.recordFor request p.workflow now runId, { s with broker })

theorem submit_of_negative (s : Service) {request : Submission} {budget : Cents}
    (asked : request.budget = some budget) (below : budget < 0) (now : Timestamp) (runId : Uuid)
    (stepId : Nat → Uuid) :
    s.submit request now runId stepId = (.error (.flawed (.negativeBudget budget)), s) := by
  have refused : request.budget.filter (· < 0) = some budget :=
    Option.filter_eq_some_iff.mpr ⟨asked, decide_eq_true below⟩
  unfold submit
  rw [refused]

theorem Stands.submit_of_unknown (stands : s.Stands settings all ids) {request : Submission}
    (positive : ¬ request.IsNegative) (absent : request.workflow? all = none) (now : Timestamp)
    (runId : Uuid) (stepId : Nat → Uuid) : s.submit request now runId stepId =
      (.error (.missing (.workflow ⟨Text.trim request.workflow.name, request.workflow.version⟩)), s) := by
  have missing := stands.workflow_of_none absent
  unfold workflow at missing
  unfold submit
  rw [request.filter_of_not_isNegative positive, missing]

theorem submitting (stands : s.Stands settings all ids) (request : Submission) (now : Timestamp)
    (runId : Uuid) (stepId : Nat → Uuid) :
    s.Submitting all request now runId stepId (s.submit request now runId stepId) := by
  by_cases negative : request.IsNegative
  · obtain ⟨budget, asked, below⟩ := negative
    rw [s.submit_of_negative asked below]
    exact .negative budget asked below
  · have allowed := request.filter_of_not_isNegative negative
    cases found : request.workflow? all with
    | none =>
      rw [stands.submit_of_unknown negative found]
      exact .unknown negative found
    | some w =>
      have present := (stands.workflow_eq_ok_iff request w).mpr found
      unfold workflow at present
      obtain ⟨p, built⟩ := (stands.runnable w (Submission.mem_of_workflow? found)).planned
      obtain ⟨g, -, rfl⟩ := Plan.ofWorkflow_eq_ok built
      rcases entered : s.broker.enter (s.started request now runId stepId ⟨w, g⟩) with ⟨result, broker⟩
      have submitted : s.submit request now runId stepId =
          (result.map fun _ => s.recordFor request w now runId, { s with broker }) := by
        unfold started at entered
        unfold submit
        simp only [allowed, present, built, entered]
        cases result <;> rfl
      rw [submitted]
      exact .found negative ⟨w, g⟩ found built entered

theorem issues_of_found (stands : s.Stands settings all ids) {request : Submission} {w : Workflow}
    (positive : ¬ request.IsNegative) (found : request.workflow? all = some w) (now : Timestamp)
    (runId : Uuid) (stepId : Nat → Uuid) :
    s.issues (.submit request now runId stepId) =
      runId :: (List.range w.nodes.length).map stepId := by
  have present := (stands.workflow_eq_ok_iff request w).mpr found
  have allowed : request.budget.any (· < 0) = false := by
    by_contra asked
    rw [Bool.not_eq_false, Option.any_eq_true] at asked
    obtain ⟨budget, asked, below⟩ := asked
    exact positive ⟨budget, asked, of_decide_eq_true below⟩
  simp [issues, present, allowed]

theorem started_stepIds (s : Service) (request : Submission) (now : Timestamp) (runId : Uuid)
    (stepId : Nat → Uuid) (p : Plan) :
    (s.started request now runId stepId p).run.stepIds = (List.range p.size).map stepId := by
  unfold Run.stepIds
  rw [Run.steps_eq_map, List.map_map, ← List.map_coe_finRange_eq_range, List.map_map]
  exact List.map_congr_left fun i _ => Run.start_id ..

namespace Stands

theorem more (stands : s.Stands settings all ids) (ids' : List Uuid) :
    s.Stands settings all (ids ++ ids') :=
  ⟨stands.under, stands.keeps, stands.runnable,
    fun id member => List.mem_append_left _ (stands.known id member), stands.consistent⟩

theorem enter (stands : s.Stands settings all ids) (r : PlannedRun) :
    Stands { s with broker := (s.broker.enter r).2 } settings all
      (ids ++ r.record.id :: r.run.stepIds) := by
  rcases s.broker.enter_cases r with ⟨why, -, entered⟩ | ⟨l, inserted, entered⟩
  · rw [entered]
    exact stands.more _
  · rw [entered]
    constructor
    case under => exact stands.under
    case keeps => exact stands.keeps
    case runnable => exact stands.runnable
    case known =>
      intro id member
      have names := Ledger.mem_names_of_insert inserted member
      rcases names with old | new
      · exact List.mem_append_left _ (stands.known id old)
      · exact List.mem_append_right _ new
    case consistent => exact stands.consistent.insert (Ledger.inserts_of_insert inserted)

theorem submit (stands : s.Stands settings all ids) (request : Submission) (now : Timestamp)
    (runId : Uuid) (stepId : Nat → Uuid) :
    (s.submit request now runId stepId).2.Stands settings all
      (ids ++ s.issues (.submit request now runId stepId)) := by
  have submitting := submitting stands request now runId stepId
  generalize s.submit request now runId stepId = answer at submitting
  cases submitting with
  | negative => exact stands.more _
  | unknown => exact stands.more _
  | found positive p registered built entered =>
    have after := stands.enter (s.started request now runId stepId p)
    rw [entered, started_stepIds] at after
    rw [issues_of_found stands positive registered]
    exact after

theorem call (stands : s.Stands settings all ids) (k : Call) :
    (s.call k).Stands settings (all ++ (s.added? k).toList) (ids ++ s.issues k) := by
  have kept {s' : Service} (stands : s'.Stands settings all ids) :
      s'.Stands settings (all ++ []) (ids ++ []) := by
    rwa [List.append_nil, List.append_nil]
  cases k with
  | register name definition now id =>
    have registered := stands.register name definition now id
    rw [← List.append_nil ids] at registered
    exact registered
  | submit request now runId stepId =>
    have submitted := stands.submit request now runId stepId
    rw [← List.append_nil all] at submitted
    exact submitted
  | cancel run now => exact kept (stands.cancel run now)
  | poll worker lease now => exact kept (stands.broker (s.broker.poll_knows worker lease now))
  | heartbeat worker step now =>
    exact kept (stands.broker (s.broker.heartbeat_knows worker step now))
  | complete step report now =>
    exact kept (stands.broker (s.broker.complete_knows step report now))
  | sweep now => exact kept (stands.broker (Broker.sweepRuns_knows now _ _ s.broker))
  | workflow | newest | settings | view | runs => exact kept stands

theorem after (stands : s.Stands settings all ids) (calls : List Call) :
    (s.after calls).Stands settings (all ++ s.registered calls) (ids ++ s.issued calls) := by
  induction calls generalizing s all ids with
  | nil => rwa [registered, issued, List.append_nil, List.append_nil]
  | cons k calls ih =>
    have rest := ih (stands.call k)
    rwa [List.append_assoc, List.append_assoc] at rest

end Stands

end Service

end Orchestration
