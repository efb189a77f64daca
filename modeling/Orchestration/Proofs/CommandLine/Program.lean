import Orchestration.CommandLine.Program
import Orchestration.Proofs.Fleet.Reaching
import Orchestration.Proofs.Service.History

namespace Orchestration.CommandLine

/-- A definition is valid exactly if a service under the same settings registers it. -/
theorem validate_iff_registers {s : Surroundings} {settings : Settings} {service : Service}
    (under : service.settings = settings.scheduling) {path : String} {definition : Definition}
    (read : s.definition path = .ok definition) {name : String} (named : Text.trim name ≠ "")
    (room : (service.catalog.versionsOf (Text.trim name)).length + 1 < UInt32.size) (now : Timestamp)
    (id : Uuid) :
    (∃ text, validate s settings path = .ok text) ↔
      ∃ w, (service.register name definition now id).1 = .ok w := by
  unfold validate checkedOrder Graph.executionOrder Service.register Catalog.register
  rw [read, under]
  simp only [bind, Except.bind, named, if_false, room, if_true]
  cases settings.scheduling.timeoutsFlaw? definition.nodes with
  | some flaw => cases Graph.ofNodes definition.nodes <;> simp [Except.map]
  | none => cases Graph.ofNodes definition.nodes <;> simp [Except.map]

theorem localFleet_scene (service : Service) (pool : Pool) (size : Nat) :
    (localFleet service pool size).service = service ∧ (localFleet service pool size).now = 0 ∧
      (localFleet service pool size).held = 0 := by
  have workers (names : List String) (f : Fleet) :
      (names.foldl Fleet.withWorker f).service = f.service ∧
        (names.foldl Fleet.withWorker f).now = f.now ∧
        (names.foldl Fleet.withWorker f).held = f.held := by
    induction names generalizing f with
    | nil => exact ⟨rfl, rfl, rfl⟩
    | cons name names ih =>
      obtain ⟨service, now, held⟩ := ih (f.withWorker name)
      exact ⟨service, now, held.trans (f.withWorker_held name)⟩
  unfold localFleet
  obtain ⟨same, now, held⟩ :=
    workers ((List.range (min pool.workers.toNat size)).map ("local-" ++ Text.natural ·)) (.ofService service)
  dsimp only
  exact ⟨same, now, (Fleet.withSweeper_held _ _).trans held⟩

/-- A submission to a service that has registered one workflow starts a run of it, and nothing else. -/
theorem submitted_cases {settings : Scheduling} {name : String} {definition : Definition}
    {request : Submission} {opened registered submitted : Service} {w : Workflow} {record : RunRecord}
    {now : Timestamp} {workflowId runId : Uuid} {stepId : Nat → Uuid}
    (new : Service.new settings = .ok opened)
    (register : opened.register name definition now workflowId = (.ok w, registered))
    (submit : registered.submit request now runId stepId = (.ok record, submitted))
    (distinct : ∀ i < w.nodes.length, ∀ j < w.nodes.length, stepId i = stepId j → i = j) :
    ∃ p, Plan.ofWorkflow w = .ok p ∧ PlannedRun.Fresh ⟨p, .start p record stepId⟩ ∧
      submitted.broker = (Broker.new settings).after [.enter ⟨p, .start p record stepId⟩] ∧
      submitted.broker.ledger.find? record.id = some ⟨p, .start p record stepId⟩ := by
  have stands := (Service.Stands.new new).register name definition now workflowId
  rw [register] at stands
  have kept := opened.register_broker name definition now workflowId
  rw [register, Service.new_eq_ok new] at kept
  have submitting := Service.submitting stands request now runId stepId
  rw [submit] at submitting
  generalize answer : (Except.ok record, submitted) = result at submitting
  cases submitting with
  | negative | unknown => cases answer
  | @found positive p means built result broker entered =>
    obtain ⟨made, rfl⟩ := Prod.mk.inj answer
    have here : p.workflow = w := List.mem_singleton.mp (Submission.mem_of_workflow? means)
    rcases registered.broker.enter_cases (registered.started request now runId stepId p) with
      ⟨why, -, refused⟩ | ⟨l, inserted, done⟩
    · rw [refused] at entered
      cases entered
      cases made
    · rw [done] at entered
      cases entered
      cases made
      have fresh : PlannedRun.Fresh (registered.started request now runId stepId p) := by
        refine .start built (RunRecord.queued_fresh ..) stepId fun i j same => Fin.ext ?_
        rw [← here] at distinct
        exact distinct i i.isLt j j.isLt same
      refine ⟨p, here ▸ built, fresh, ?_, ?_⟩
      · have entered : (Broker.new settings).after [.enter (registered.started request now runId stepId p)] =
            (registered.broker.enter (registered.started request now runId stepId p)).2 := by
          rw [kept]
          rfl
        rw [done] at entered
        exact entered.symm
      · exact ((Ledger.inserts_of_insert inserted).find? _).trans (if_pos rfl)

/-- A run that was submitted is shown as it is after some events, one at a time. -/
theorem runToEnd_shows {s : Surroundings} {settings : Settings} {name : String}
    {definition : Definition} {request : Submission} {opened registered submitted : Service}
    {w : Workflow} {record : RunRecord} (new : Service.new settings.scheduling = .ok opened)
    (register : opened.register name definition (s.clock 0) s.workflowId = (.ok w, registered))
    (submit : registered.submit request (s.clock 0) s.runId s.stepId = (.ok record, submitted))
    (distinct : ∀ i < w.nodes.length, ∀ j < w.nodes.length, s.stepId i = s.stepId j → i = j) :
    ∃ p events last, Plan.ofWorkflow w = .ok p ∧
      Event.Within ⟨.simulated, settings.pool, s.leaseId, s.clock⟩ 0 last events ∧
      (∀ e ∈ events, e.Under settings.scheduling) ∧
      runToEnd s settings name definition request =
        .ok ((Run.start p record s.stepId).after events).view := by
  obtain ⟨p, built, fresh, began, stored⟩ := submitted_cases new register submit distinct
  have requests (r : PlannedRun) (member : Request.enter r ∈ [.enter ⟨p, .start p record s.stepId⟩]) :
      r.Fresh := by
    cases List.mem_singleton.mp member
    exact fresh
  obtain ⟨service, now, held⟩ := localFleet_scene submitted settings.pool definition.nodes.length
  rw [← service] at began stored
  let site : Site := ⟨.simulated, settings.pool, s.leaseId, s.clock⟩
  let lifetime := ((Timestamp.latest.nanos - (s.clock 0).nanos) / 1000000).toNat
  obtain ⟨onward, -⟩ := Fleet.run_tends settings.scheduling requests began held site (lifetime + 1)
    fun f => isOver record.id f.service
  obtain ⟨events, within, under, shown⟩ := onward.runs record.id _ stored
  have within : Event.Within site (localFleet submitted settings.pool definition.nodes.length).now _ events :=
    within
  rw [now] at within
  have settled : (localFleet submitted settings.pool definition.nodes.length).service.broker.settings =
      settings.scheduling := by
    have entered := Broker.enter_eq (.new settings.scheduling) ⟨p, .start p record s.stepId⟩
    rw [began]
    exact congrArg Broker.settings entered
  refine ⟨p, events, _, built, within, fun e member => settled ▸ under e member, ?_⟩
  unfold runToEnd
  rw [new]
  simp only [bind, Except.bind, register, submit]
  unfold Service.view
  have shown : (Fleet.run (localFleet submitted settings.pool definition.nodes.length) site (lifetime + 1)
    fun f => isOver record.id f.service).service.broker.ledger.find? record.id = _ := shown
  rw [shown]

end Orchestration.CommandLine
