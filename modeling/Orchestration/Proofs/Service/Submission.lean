import Orchestration.Proofs.Service.History

namespace Orchestration

theorem Plan.dependencies_eq_nil_iff {w : Workflow} {p : Plan} (built : ofWorkflow w = .ok p)
    (i : Fin p.size) : p.dependencies i = [] ↔ (p.node i).dependsOn = [] := by
  obtain ⟨g, accepted, rfl⟩ := ofWorkflow_eq_ok built
  have named := (Graph.describes_of_ok accepted).dependencies i
  have waits : (Plan.mk w g).dependencies i = g.dependencies.get i := rfl
  rw [waits, ← List.map_eq_nil_iff (f := fun d => (w.nodes.get d).id), named]
  show (w.nodes.get i).dependsOn.eraseDups = [] ↔ (w.nodes.get i).dependsOn = []
  cases (w.nodes.get i).dependsOn with
  | nil => simp
  | cons id rest => simp [List.eraseDups_cons]

/-- A request means the registered workflow with its version, or the latest one under its name. -/
structure Submission.Means (request : Submission) (all : List Workflow) (w : Workflow) : Prop where
  registered : w ∈ all
  named : w.name = Text.trim request.workflow.name
  version : match request.workflow.version with
    | .exact n => w.version = n
    | .latest => ∀ w' ∈ all, w'.name = w.name → w'.version ≤ w.version

theorem Catalog.mem_named {all : List Workflow} {name : String} {w : Workflow} :
    w ∈ named all name ↔ w ∈ all ∧ w.name = name := by
  rw [named, List.mem_filter, decide_eq_true_iff]

theorem Catalog.getLast?_eq_some_iff {ws : List Workflow}
    (numbered : ∀ (i : Nat) w, ws[i]? = some w → w.version.toNat = i + 1) {w : Workflow} :
    ws.getLast? = some w ↔ w ∈ ws ∧ ∀ w' ∈ ws, w'.version ≤ w.version := by
  rw [List.getLast?_eq_getElem?]
  constructor
  · intro last
    refine ⟨List.mem_of_getElem? last, fun w' member => ?_⟩
    obtain ⟨i, here⟩ := List.mem_iff_getElem?.mp member
    have within := (List.getElem?_eq_some_iff.mp here).1
    have number := numbered _ w last
    have number' := numbered i w' here
    apply UInt32.le_iff_toNat_le.mpr
    omega
  · rintro ⟨member, latest⟩
    obtain ⟨i, here⟩ := List.mem_iff_getElem?.mp member
    have within := (List.getElem?_eq_some_iff.mp here).1
    have final : ws.length - 1 < ws.length := by omega
    have there := List.getElem?_eq_getElem final
    have least := UInt32.le_iff_toNat_le.mp (latest _ (List.mem_of_getElem? there))
    have number := numbered i w here
    have number' := numbered _ _ there
    obtain rfl : i = ws.length - 1 := by omega
    exact here

theorem Submission.means_iff {c : Catalog} {all : List Workflow} (keeps : c.Keeps all)
    (request : Submission) (w : Workflow) :
    request.workflow? all = some w ↔ request.Means all w := by
  obtain ⟨⟨name, version⟩, budget, tags, input, policy⟩ := request
  have numbered := keeps.numbered (Text.trim name)
  unfold workflow?
  cases version with
  | exact n =>
    rw [Catalog.select?_exact]
    constructor
    · rintro ⟨i, same, here⟩
      obtain ⟨member, named⟩ := Catalog.mem_named.mp (List.mem_of_getElem? here)
      have number := numbered i w here
      exact ⟨member, named, UInt32.toNat_inj.mp (number.trans same.symm)⟩
    · rintro ⟨member, named, rfl⟩
      obtain ⟨i, here⟩ := List.mem_iff_getElem?.mp (Catalog.mem_named.mpr ⟨member, named⟩)
      exact ⟨i, numbered i w here, here⟩
  | latest =>
    show (Catalog.named all (Text.trim name)).getLast? = some w ↔ _
    rw [Catalog.getLast?_eq_some_iff numbered, Catalog.mem_named]
    constructor
    · rintro ⟨⟨member, named⟩, latest⟩
      exact ⟨member, named, fun w' member' same =>
        latest w' (Catalog.mem_named.mpr ⟨member', same.trans named⟩)⟩
    · rintro ⟨member, named, latest⟩
      refine ⟨⟨member, named⟩, fun w' listed => ?_⟩
      obtain ⟨member', named'⟩ := Catalog.mem_named.mp listed
      exact latest w' member' (named'.trans named.symm)

namespace Service

def roots (w : Workflow) : List (Fin w.nodes.length) :=
  (List.finRange w.nodes.length).filter fun i => (w.nodes.get i).dependsOn = []

def firstStep (w : Workflow) (runId : Uuid) (stepId : Nat → Uuid) (i : Fin w.nodes.length) : Step :=
  { Step.pending (stepId i) runId (w.nodes.get i).id with
    status := if (w.nodes.get i).dependsOn = [] then .ready else .pending }

structure Starts (s s' : Service) (request : Submission) (w : Workflow) (now : Timestamp)
    (runId : Uuid) (stepId : Nat → Uuid) (made : RunRecord) : Prop where
  pinned : made = ⟨runId, ⟨w.name, .exact w.version⟩, .queued, request.budget, 0, request.tags,
    request.input, request.policy.getD s.settings.failurePolicy, none, now, none, none⟩
  catalog : s'.catalog = s.catalog
  under : s'.settings = s.settings
  entered : ∃ r : PlannedRun, s'.broker.ledger.entries = s.broker.ledger.entries ++ [(runId, r)] ∧
    r.plan.workflow = w ∧ r.record = made ∧
    r.steps = (List.finRange w.nodes.length).map (firstStep w runId stepId)
  aliases : s'.broker.ledger.aliases =
    s.broker.ledger.aliases ++ (List.range w.nodes.length).map fun i : Nat => (stepId i, runId)
  queue : s'.broker.queue.tickets =
    s.broker.queue.tickets ++ (roots w).map fun i : Fin w.nodes.length => ⟨runId, stepId i⟩

variable {s : Service} {settings : Scheduling} {all : List Workflow} {ids : List Uuid}
variable {p : Plan}

theorem started_steps (built : Plan.ofWorkflow p.workflow = .ok p) (s : Service)
    (request : Submission) (now : Timestamp) (runId : Uuid) (stepId : Nat → Uuid) :
    (s.started request now runId stepId p).steps =
      (List.finRange p.size).map (firstStep p.workflow runId stepId) := by
  unfold PlannedRun.steps
  rw [Run.steps_eq_map]
  apply List.map_congr_left
  intro i _
  have root := Plan.dependencies_eq_nil_iff built i
  have step : (s.started request now runId stepId p).run.step i =
      if p.dependencies i = [] then { Step.pending (stepId i) runId (p.node i).id with status := .ready }
      else Step.pending (stepId i) runId (p.node i).id := Vector.getElem_ofFn i.isLt
  have node : p.workflow.nodes.get i = p.node i := rfl
  unfold firstStep
  rw [step, node]
  by_cases free : p.dependencies i = []
  · rw [if_pos free, if_pos (root.mp free)]
  · rw [if_neg free, if_neg fun none => free (root.mpr none)]
    rfl

theorem readySteps_started (built : Plan.ofWorkflow p.workflow = .ok p) (s : Service)
    (request : Submission) (now : Timestamp) (runId : Uuid) (stepId : Nat → Uuid) :
    (s.started request now runId stepId p).run.readySteps =
      (roots p.workflow).map fun i : Fin p.size => stepId i := by
  have steps := started_steps built s request now runId stepId
  unfold PlannedRun.steps at steps
  have ready (i : Fin p.size) : (firstStep p.workflow runId stepId i).status = .ready ↔
      (p.workflow.nodes.get i).dependsOn = [] := by
    unfold firstStep
    by_cases free : (p.workflow.nodes.get i).dependsOn = []
    all_goals simp only [free, if_true, if_false, reduceCtorEq]
  unfold Run.readySteps roots
  rw [steps, List.filter_map, List.map_map]
  simp only [Function.comp_def, ready]
  rfl

theorem Stands.starts (stands : s.Stands settings all ids) {request : Submission}
    (positive : ¬ request.IsNegative) {w : Workflow} (registered : request.workflow? all = some w)
    (now : Timestamp) (runId : Uuid) (stepId : Nat → Uuid)
    (distinct : ((List.range w.nodes.length).map stepId).Nodup)
    (new : ∀ id ∈ runId :: (List.range w.nodes.length).map stepId, id ∉ ids) :
    ∃ s' made, s.submit request now runId stepId = (.ok made, s') ∧
      s.Starts s' request w now runId stepId made := by
  have submitting := submitting stands request now runId stepId
  generalize s.submit request now runId stepId = answer at submitting ⊢
  cases submitting with
  | negative budget asked below => exact absurd ⟨budget, asked, below⟩ positive
  | unknown _ absent => simp [absent] at registered
  | found _ p found built entered =>
    obtain rfl : p.workflow = w := Option.some.inj (found.symm.trans registered)
    -- The broker knows no ids but those that were made before.
    have unknown : ∀ name ∈ runId :: (s.started request now runId stepId p).run.stepIds,
        name ∉ s.broker.ledger.names := by
      rw [started_stepIds]
      intro name member known
      exact new name member (stands.known name known)
    rw [← started_stepIds s request now runId] at distinct
    have inserted := Ledger.insert_of_new (s.started request now runId stepId p) distinct unknown
    rcases s.broker.enter_cases (s.started request now runId stepId p) with
      ⟨why, refused, -⟩ | ⟨ledger, accepted, done⟩
    · cases inserted.symm.trans refused
    · have inserts := Ledger.inserts_of_insert accepted
      obtain ⟨-, rfl⟩ := Prod.mk.inj (inserted.symm.trans accepted)
      obtain ⟨rfl, rfl⟩ := Prod.mk.inj (done.symm.trans entered)
      refine ⟨_, _, rfl, ?_⟩
      constructor
      case pinned => rfl
      case catalog => rfl
      case under => rfl
      case entered =>
        refine ⟨_, stands.consistent.entries_of_insert inserts, rfl, rfl, ?_⟩
        exact started_steps built s request now runId stepId
      case aliases =>
        show s.broker.ledger.aliases ++ _ = _
        rw [started_stepIds, List.map_map]
        rfl
      case queue =>
        show s.broker.queue.tickets ++ _ = _
        rw [readySteps_started built, List.map_map]
        rfl

theorem issued_append (s : Service) (calls : List Call) (k : Call) :
    s.issued (calls ++ [k]) = s.issued calls ++ (s.after calls).issues k := by
  induction calls generalizing s with
  | nil => exact List.append_nil _
  | cons first calls ih =>
    show s.issues first ++ (s.call first).issued (calls ++ [k]) = _
    rw [ih, ← List.append_assoc]
    rfl

/-- After any calls, every registered workflow can be run. A submission is refused, without a trace,
exactly if its budget is negative or it means no registered workflow, provided that no id is made twice.
Any other one starts a run of the workflow that it means. -/
theorem submits_after {s₀ : Service} (opened : new settings = .ok s₀) (calls : List Call) :
    let s := s₀.after calls
    let all := s₀.registered calls
    (∀ w ∈ all, w.Runnable settings) ∧
      ∀ request now runId stepId,
        (∀ budget, request.budget = some budget → budget < 0 →
          s.submit request now runId stepId = (.error (.flawed (.negativeBudget budget)), s)) ∧
        (¬ request.IsNegative → (∀ w, ¬ request.Means all w) →
          s.submit request now runId stepId = (.error (.missing (.workflow
            ⟨Text.trim request.workflow.name, request.workflow.version⟩)), s)) ∧
        ((s₀.issued (calls ++ [.submit request now runId stepId])).Nodup →
          ((∃ why, (s.submit request now runId stepId).1 = .error why) ↔
            request.IsNegative ∨ ∀ w, ¬ request.Means all w) ∧
          ∀ w, ¬ request.IsNegative → request.Means all w →
            ∃ s' made, s.submit request now runId stepId = (.ok made, s') ∧
              s.Starts s' request w now runId stepId made) := by
  intro s all
  have stands : s.Stands settings all (s₀.issued calls) := (Stands.new opened).after calls
  refine ⟨stands.runnable, fun request now runId stepId => ?_⟩
  have means := request.means_iff stands.keeps
  have absent_iff : request.workflow? all = none ↔ ∀ w, ¬ request.Means all w := by
    simp only [Option.eq_none_iff_forall_ne_some, ne_eq, means]
  have negative (budget : Cents) (asked : request.budget = some budget) (below : budget < 0) :=
    s.submit_of_negative asked below now runId stepId
  have unknown (positive : ¬ request.IsNegative) (absent : ∀ w, ¬ request.Means all w) :=
    stands.submit_of_unknown positive (absent_iff.mpr absent) now runId stepId
  refine ⟨negative, unknown, fun fresh => ?_⟩
  have starts (w : Workflow) (positive : ¬ request.IsNegative) (meant : request.Means all w) :
      ∃ s' made, s.submit request now runId stepId = (.ok made, s') ∧
        s.Starts s' request w now runId stepId made := by
    have found := (means w).mpr meant
    rw [issued_append, issues_of_found stands positive found] at fresh
    obtain ⟨-, distinct, apart⟩ := List.nodup_append.mp fresh
    apply stands.starts positive found now runId stepId (List.nodup_cons.mp distinct).2
    intro id made earlier
    exact apart id earlier id made rfl
  refine ⟨?_, starts⟩
  constructor
  · rintro ⟨why, refused⟩
    by_contra accepted
    obtain ⟨positive, known⟩ := not_or.mp accepted
    obtain ⟨w, meant⟩ := not_forall_not.mp known
    obtain ⟨s', made, done, -⟩ := starts w positive meant
    rw [done] at refused
    cases refused
  · rintro (⟨budget, asked, below⟩ | absent)
    · exact ⟨_, by rw [negative budget asked below]⟩
    · by_cases positive : request.IsNegative
      · obtain ⟨budget, asked, below⟩ := positive
        exact ⟨_, by rw [negative budget asked below]⟩
      · exact ⟨_, by rw [unknown positive absent]⟩

/-- A run was started and polled, and the same workflow is submitted again. -/
theorem submits_after_second :
    let s₀ : Service := ⟨.empty, .new default⟩
    let request := Submission.ofReference ⟨"pair", .latest⟩
    let calls : List Call :=
      [.register " pair" ⟨"", Workflow.pair.nodes⟩ .epoch .nil,
        .submit request .epoch (.ofNat 10) .ofNat, .poll "worker" (.ofNat 20) .epoch]
    let s := s₀.after calls
    new default = .ok s₀ ∧ request.Means (s₀.registered calls) .pair ∧
      (s₀.issued (calls ++ [.submit request .epoch (.ofNat 11) fun i => .ofNat (i + 2)])).Nodup ∧
      ∃ s' made, s.submit request .epoch (.ofNat 11) (fun i => .ofNat (i + 2)) = (.ok made, s') ∧
        s.Starts s' request .pair .epoch (.ofNat 11) (fun i => .ofNat (i + 2)) made := by
  intro s₀ request calls s
  have opened : new default = .ok s₀ := by rfl
  have registered : s₀.registered calls = [.pair] := by rfl
  have fresh : (s₀.issued
      (calls ++ [.submit request .epoch (.ofNat 11) fun i => .ofNat (i + 2)])).Nodup := by
    decide +kernel
  have meant : request.Means (s₀.registered calls) .pair := by
    rw [registered]
    constructor
    case registered => exact List.mem_singleton_self _
    case named => decide +kernel
    case version =>
      show ∀ w' ∈ [Workflow.pair], w'.name = "pair" → w'.version ≤ 1
      decide +kernel
  have positive : ¬ request.IsNegative := fun ⟨budget, asked, _⟩ => nomatch asked
  obtain ⟨-, submits⟩ := submits_after opened calls
  obtain ⟨-, -, starts⟩ := submits request .epoch (.ofNat 11) fun i => .ofNat (i + 2)
  exact ⟨opened, meant, fresh, (starts fresh).2 .pair positive meant⟩

end Service

end Orchestration
