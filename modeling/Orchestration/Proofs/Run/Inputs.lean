import Orchestration.Proofs.Json.Members
import Orchestration.Proofs.Run.Readiness
import Orchestration.Proofs.Run.Shape
import Orchestration.Proofs.Workflow.Acceptance

namespace Orchestration

theorem Plan.map_dependencies {w : Workflow} {p : Plan} (built : ofWorkflow w = .ok p)
    (i : Fin p.size) :
    (p.dependencies i).map (fun d => (p.node d).id) = (p.node i).dependsOn.eraseDups := by
  obtain ⟨g, accepted, rfl⟩ := ofWorkflow_eq_ok built
  exact (Graph.describes_of_ok accepted).dependencies i

/-- The report with which a log entry ends the step under `id` in success. -/
def delivery? (id : Uuid) : Event × Outcome → Option Report
  | (.accept step report _ _, .accepted (.ok (.applied ..))) =>
    if step = id ∧ report.verdict = .succeeded then some report else none
  | _ => none

def Log.deliveries (log : Log) (id : Uuid) : List Report := log.filterMap (delivery? id)

theorem Log.deliveries_append (log : Log) (entry : Event × Outcome) (id : Uuid) :
    deliveries (log ++ [entry]) id = log.deliveries id ++ (delivery? id entry).toList := by
  unfold deliveries
  rw [List.filterMap_append]
  cases here : delivery? id entry <;> simp [here]

theorem delivery?_of_not_heeds {id : Uuid} {e : Event} {o : Outcome} (silent : o.heeds = false) :
    delivery? id (e, o) = none := by
  unfold delivery?
  split
  · rename_i same
    cases same
    cases silent
  · rfl

def Event.delivers : Event → Bool
  | .accept _ report _ _ => report.verdict = .succeeded
  | _ => false

theorem delivery?_of_not_delivers {id : Uuid} {e : Event} (silent : e.delivers = false) (o : Outcome) :
    delivery? id (e, o) = none := by
  unfold delivery?
  split
  · rename_i same
    cases same
    have failed := of_decide_eq_false silent
    exact if_neg fun both => failed both.2
  · rfl

namespace Change

variable {node : Node} {r r' : RunRecord} {s t : Step} {e : Event}

theorem not_succeeded (change : Change node r s e r' t) (silent : e.delivers = false) :
    t.status ≠ .succeeded := by
  cases change with
  | succeed l report now settings held flying alive quoted verdict =>
    exact absurd verdict (of_decide_eq_false silent)
  | retry | reclaim =>
    intro succeeded
    rcases Step.again_status _ _ _ with ready | retrying
    · cases succeeded.symm.trans ready
    · cases succeeded.symm.trans retrying
  | _ => exact nofun

theorem delivers {step : Uuid} {report : Report} {now : Timestamp} {settings : Scheduling}
    (change : Change node r s (.accept step report now settings) r' t)
    (verdict : report.verdict = .succeeded) :
    step = s.id ∧ t.status = .succeeded ∧ t.output = some (report.output.getD .null) := by
  cases change with
  | succeed => exact ⟨rfl, rfl, rfl⟩
  | fail _ _ _ _ _ _ _ _ failed | retry _ _ _ _ _ _ _ _ failed => cases failed.symm.trans verdict

end Change

theorem Step.Aside.succeeded {s t : Step} {now : Timestamp} (aside : s.Aside now t)
    (succeeded : t.status = .succeeded) : s.status = .succeeded := by
  cases aside with
  | same => exact succeeded
  | wake | skip => cases succeeded
  | stop =>
    unfold Run.stopStep at succeeded
    split at succeeded <;> simp_all

theorem Acts.succeeded {p : Plan} {e : Event} {c c' : Released p} (acts : Acts e c c')
    (silent : e.delivers = false) {j : Fin p.size} (succeeded : (c'.run.step j).status = .succeeded) :
    (c.run.step j).status = .succeeded := by
  induction acts with
  | refl => exact succeeded
  | @tail c c' _ act ih =>
    obtain ⟨i, r, t, change, rfl⟩ := act
    have before := (c.step_act_aside i r t e.now j).succeeded succeeded
    rw [Run.step_replace] at before
    split at before
    · exact absurd before (change.not_succeeded silent)
    · exact ih before

namespace Run

variable {p : Plan} {s s' : Run p} {log : Log} {j : Fin p.size}

theorem handle_succeeded (sound : s.Sound) (settled : s.nextStatus? = none) {e : Event}
    (silent : e.delivers = false) (succeeded : ((s.handle e).2.step j).status = .succeeded) :
    (s.step j).status = .succeeded := by
  rcases handle_cases sound settled e with ⟨c, acts, same, -⟩ | ⟨-, same, -⟩
  · rw [same, step_refresh] at succeeded
    exact Acts.succeeded acts silent succeeded
  · rw [same, step_refresh, step_halted] at succeeded
    have stopped : (s.step j).Aside e.now (stopStep e.now (s.step j)) := .stop
    exact stopped.succeeded succeeded

/-- What an event brings for step `j`: nothing, or the one report that ends it in success. -/
inductive Delivers (s s' : Run p) (entry : Event × Outcome) (j : Fin p.size) : Prop
  | none (kept : (s'.step j).status = .succeeded → (s.step j).status = .succeeded)
      (silent : s.indexOf? (s.step j).id = some j → delivery? (s.step j).id entry = none)
  | report (report : Report) (found : s.indexOf? (s.step j).id = some j)
      (waited : (s.step j).status ≠ .succeeded)
      (delivered : delivery? (s.step j).id entry = some report)
      (succeeded : (s'.step j).status = .succeeded)
      (output : (s'.step j).output = some (report.output.getD .null))

theorem handle_delivers (sound : s.Sound) (settled : s.nextStatus? = none) (e : Event)
    (j : Fin p.size) : s.Delivers (s.handle e).2 (e, (s.handle e).1) j := by
  cases delivers : e.delivers with
  | false =>
    exact .none (handle_succeeded sound settled delivers) fun _ => delivery?_of_not_delivers delivers _
  | true =>
    cases e with
    | grant | renew | sweep | cancel => cases delivers
    | accept step report now settings =>
      have verdict : report.verdict = .succeeded := of_decide_eq_true delivers
      have call := accept_call sound step report now settings
      generalize s.handle (.accept step report now settings) = result at call
      cases call with
      | ignored silent => exact .none id fun _ => delivery?_of_not_heeds silent
      | @heeded i r t o found change tells =>
        obtain ⟨rfl, succeeded, output⟩ := change.delivers verdict
        have after := Released.step_act_aside ⟨s, []⟩ i r t now j
        rw [step_replace] at after
        cases tells with
        | applied status ready =>
          by_cases here : j = i
          · subst here
            rw [if_pos rfl] at after
            have same := after.eq_of_terminal (by rw [succeeded]; rfl)
            refine .report report found ?_ (by simp [delivery?, verdict]) ?_ ?_
            · intro ended
              exact change.not_terminal (by rw [ended]; rfl)
            · rw [step_refresh, Event.now, same, succeeded]
            · rw [step_refresh, Event.now, same, output]
          · rw [if_neg here] at after
            apply Delivers.none
            · rw [step_refresh]
              exact after.succeeded
            · intro found'
              refine if_neg fun both => here ?_
              rw [both.1, found'] at found
              exact Option.some.inj found

/-- Success and the output of a step are those of the one report that was applied for it. -/
structure Delivered (s : Run p) (log : Log) (j : Fin p.size) : Prop where
  succeeded : (s.step j).status = .succeeded → s.indexOf? (s.step j).id = some j ∧
    ∃ report, log.deliveries (s.step j).id = [report] ∧
      (s.step j).output = some (report.output.getD .null)
  waits : s.indexOf? (s.step j).id = some j → (s.step j).status ≠ .succeeded →
    log.deliveries (s.step j).id = []

theorem handle_of_succeeded (sound : s.Sound) (settled : s.nextStatus? = none) (e : Event)
    (succeeded : (s.step j).status = .succeeded) : (s.handle e).2.step j = s.step j := by
  have ended : (s.step j).status.isTerminal := by rw [succeeded]; rfl
  exact handle_terminal sound settled e ended

namespace Delivered

theorem start (record : RunRecord) (stepId : Nat → Uuid) (j : Fin p.size) :
    (start p record stepId).Delivered [] j := by
  refine ⟨fun succeeded => ?_, fun _ _ => rfl⟩
  simp only [Run.start, Run.step, Fin.getElem_fin, Vector.getElem_ofFn] at succeeded
  split at succeeded <;> cases succeeded

theorem handle (delivered : s.Delivered log j) (sound : s.Sound) (settled : s.nextStatus? = none)
    (e : Event) : (s.handle e).2.Delivered (log ++ [(e, (s.handle e).1)]) j := by
  have ids := handle_id sound settled e
  have delivers := handle_delivers sound settled e j
  constructor
  case succeeded =>
    intro succeeded
    rw [ids, indexOf?_congr ids, Log.deliveries_append]
    cases delivers with
    | none kept silent =>
      obtain ⟨found, report, once, output⟩ := delivered.succeeded (kept succeeded)
      rw [silent found, once, handle_of_succeeded sound settled e (kept succeeded)]
      exact ⟨found, report, rfl, output⟩
    | report report found waited here _ output =>
      rw [delivered.waits found waited, here]
      exact ⟨found, report, rfl, output⟩
  case waits =>
    intro found waits
    rw [ids, indexOf?_congr ids] at found
    rw [ids, Log.deliveries_append]
    cases delivers with
    | none kept silent =>
      have waited : (s.step j).status ≠ .succeeded := by
        intro succeeded
        rw [handle_of_succeeded sound settled e succeeded] at waits
        exact waits succeeded
      rw [silent found, delivered.waits found waited]
      rfl
    | report _ _ _ _ succeeded => exact absurd succeeded waits

theorem after {canceled : Bool} (ordered : p.Ordered) (valid : s.Valid canceled)
    (delivered : s.Delivered log j) (events : List Event) :
    (s.after events).Delivered (log ++ s.log events) j := by
  induction events generalizing s canceled log with
  | nil => rwa [Run.log, List.append_nil]
  | cons e events ih =>
    have rest := ih (valid.handle ordered e) (delivered.handle valid.sound valid.settled e)
    rwa [List.append_assoc] at rest

end Delivered

def supply (s : Run p) (i : Fin p.size) : List (String × Json) :=
  (p.dependencies i).map fun d => ((p.node d).id, (s.step d).output.getD .null)

/-- What a worker gets for the dependencies of step `i`: one value for each, which is the output of the
one report that was applied for it, or null where it was skipped. -/
structure Supplies (s : Run p) (log : Log) (i : Fin p.size) (values : List (String × Json)) : Prop where
  once : (values.map (·.1)).Nodup
  sorted : Json.Sorted values
  keys : ∀ id, id ∈ values.map (·.1) ↔ id ∈ (p.node i).dependsOn
  values : ∀ id ∈ (p.node i).dependsOn, ∃ d, (p.node d).id = id ∧
    ((s.step d).status = .succeeded ∧
        (∃ report, log.deliveries (s.step d).id = [report] ∧
          (id, report.output.getD .null) ∈ values) ∨
      (s.step d).status = .skipped ∧ s.record.policy = .tolerant ∧ (id, .null) ∈ values)

theorem grant_input (sound : s.Sound) {e : Event} {a : Assignment}
    (leased : (s.handle e).1.assignment? = some a) :
    ∃ i, s.indexOf? a.step.id = some i ∧ s.isActive ∧ (s.step i).status = .ready ∧
      a.step.input = s.inputFor i := by
  cases e with
  | grant step worker lease now settings =>
    cases found : s.indexOf? step with
    | none =>
      simp only [handle, grant, found] at leased
      cases leased
    | some i =>
      have id := (indexOf?_eq_some_iff.mp found).1
      by_cases free : s.isActive ∧ (s.step i).status = .ready
      · cases budget : s.record.overBudget? s.reserved (p.node i) with
        | some why =>
          simp only [handle, grant, found, free, budget] at leased
          cases leased
        | none =>
          have none := (sound i).unleased (by rw [free.2]; rfl)
          simp only [handle, grant, found, free, budget, lease_eq worker lease now settings none]
            at leased
          cases leased
          exact ⟨i, by rw [← found, ← id], free.1, free.2, rfl⟩
      · have stale : (!s.isActive || decide ((s.step i).status ≠ .ready)) = true := by
          by_cases active : s.isActive <;> simp_all
        simp only [handle, grant, found, stale, if_true] at leased
        cases leased
  | renew | accept | sweep | cancel => cases leased

theorem Valid.behind (ordered : p.Ordered) {canceled : Bool} (valid : s.Valid canceled)
    (active : s.isActive) {i d : Fin p.size} (ready : (s.step i).status = .ready)
    (member : d ∈ p.dependencies i) :
    (s.step d).status = .succeeded ∨ (s.step d).status = .skipped := by
  have readiness := (valid.tracked (.inl active)).readiness ordered i
  have kept : (s.step i).status ≠ .skipped ∧ (s.step i).status ≠ .pending := by simp [ready]
  exact (readiness.otherwise kept.1 kept.2).1 d ((ordered.named i d).mp member)

theorem inputFor_eq (named : ∀ d, (s.step d).nodeId = (p.node d).id) (i : Fin p.size) :
    s.inputFor i = .object [("dependencies", .object (Json.setMembers [] (s.supply i))),
      ("run", s.record.input)] := by
  unfold inputFor
  simp only [named]
  exact Json.ofMembers_swap (by decide) _ _

section Supply

variable {w : Workflow} (built : Plan.ofWorkflow w = .ok p) {i : Fin p.size}

include built

theorem map_supply (s : Run p) (i : Fin p.size) :
    (s.supply i).map (·.1) = (p.node i).dependsOn.eraseDups := by
  rw [← Plan.map_dependencies built, supply, List.map_map]
  rfl

theorem supply_perm (s : Run p) (i : Fin p.size) :
    (Json.setMembers [] (s.supply i)).Perm (s.supply i) := by
  have distinct : (([] ++ s.supply i : List (String × Json)).map (·.1)).Nodup := by
    rw [List.nil_append, map_supply built]
    exact nodup_eraseDups _
  exact Json.setMembers_perm distinct

theorem Valid.supplies {canceled : Bool} (valid : s.Valid canceled) (shaped : s.Shaped)
    (delivered : ∀ d, s.Delivered log d) (active : s.isActive) (ready : (s.step i).status = .ready) :
    s.Supplies log i (Json.setMembers [] (s.supply i)) := by
  have perm := supply_perm built s i
  constructor
  case once =>
    rw [(perm.map _).nodup_iff, map_supply built]
    exact nodup_eraseDups _
  case sorted => exact Json.sorted_setMembers .nil _
  case keys =>
    intro id
    rw [(perm.map _).mem_iff, map_supply built, List.mem_eraseDups]
  case values =>
    intro id named
    rw [← List.mem_eraseDups, ← Plan.map_dependencies built] at named
    obtain ⟨d, member, rfl⟩ := List.mem_map.mp named
    have listed : ((p.node d).id, (s.step d).output.getD .null) ∈ Json.setMembers [] (s.supply i) :=
      perm.mem_iff.mpr (List.mem_map.mpr ⟨d, member, rfl⟩)
    refine ⟨d, rfl, ?_⟩
    rcases valid.behind (Plan.ordered built) active ready member with succeeded | skipped
    · obtain ⟨-, report, once, output⟩ := (delivered d).succeeded succeeded
      rw [output] at listed
      exact .inl ⟨succeeded, report, once, listed⟩
    · have tolerant : s.record.policy = .tolerant := by
        cases policy : s.record.policy with
        | tolerant => rfl
        | failFast => exact absurd skipped (valid.phase.clean active policy d).2
      have output : (s.step d).output = none := by
        simpa [skipped] using (shaped.steps d).output
      rw [output] at listed
      exact .inr ⟨skipped, tolerant, listed⟩

end Supply

/-- After any events, whenever a step is leased, its worker gets the input of the run and one value for
each dependency. Each of them has ended in success, and the value is the output of the one report that
was applied for it, or it was skipped in a run that tolerates failures. A later lease of the step brings
the same. -/
theorem inputs_after {w : Workflow} (built : Plan.ofWorkflow w = .ok p) {record : RunRecord}
    (fresh : record.Fresh) (stepId : Nat → Uuid) (events : List Event) :
    let begun := start p record stepId
    let s := begun.after events
    ∀ e a, (s.handle e).1.assignment? = some a →
      (∃ i values, s.indexOf? a.step.id = some i ∧
        a.step.input = .object [("dependencies", .object values), ("run", record.input)] ∧
        s.Supplies (begun.log events) i values) ∧
      ∀ later e' a', ((begun.after (events ++ e :: later)).handle e').1.assignment? = some a' →
        a'.step.id = a.step.id → a'.step.input = a.step.input := by
  intro begun s e a leased
  have ordered := Plan.ordered built
  have start : begun.Valid false := .start ordered fresh stepId
  have input (events) : (begun.after events).record.input = record.input :=
    (congrArg RunRecord.input (start.after_submitted ordered events) :)
  have named (events) (d : Fin p.size) : ((begun.after events).step d).nodeId = (p.node d).id :=
    (congrArg Step.nodeId ((start.after_begun ordered events d).trans (start_begun record stepId d)) :)
  have valid := valid_after ordered fresh stepId events
  have shaped : s.Shaped := (Shaped.start fresh stepId).after ordered start events
  have delivered (d) : s.Delivered (begun.log events) d :=
    (Delivered.start record stepId d).after ordered start events
  obtain ⟨i, found, active, ready, given⟩ := grant_input valid.sound leased
  have supplies := valid.supplies built shaped delivered active ready
  rw [inputFor_eq (named events), input] at given
  refine ⟨⟨i, _, found, given, supplies⟩, fun later e' a' leased' same => ?_⟩
  have valid' := valid_after ordered fresh stepId (events ++ e :: later)
  obtain ⟨i', found', -, -, given'⟩ := grant_input valid'.sound leased'
  rw [inputFor_eq (named _), input] at given'
  have ids (d) : ((begun.after (events ++ e :: later)).step d).id = (s.step d).id := by
    rw [start.after_id ordered, start.after_id ordered]
  rw [same, indexOf?_congr ids, found] at found'
  obtain rfl := Option.some.inj found'
  have kept : (begun.after (events ++ e :: later)).supply i = s.supply i := by
    apply List.map_congr_left
    intro d member
    have ended : (s.step d).status.isTerminal := by
      rcases valid.behind ordered active ready member with succeeded | skipped
      · rw [succeeded]; rfl
      · rw [skipped]; rfl
    rw [after_append, valid.after_terminal ordered (e :: later) ended]
  rw [given, given', kept]

/-- The second step gets the output of the first one, which was reported twice. -/
theorem inputs_after_success :
    let done : Event :=
      .accept (.ofNat 0) (Report.succeeded (.ofNat 2) (.string "done") 0) .epoch default
    let events := [.grant (.ofNat 0) "worker" (.ofNat 2) .epoch default, done, done]
    let s := (pair .tolerant).after events
    let e : Event := .grant (.ofNat 1) "worker" (.ofNat 3) .epoch default
    ∃ a, (s.handle e).1.assignment? = some a ∧
      a.step.input = .object [("dependencies", .object [("a", .string "done")]), ("run", .null)] ∧
      ∃ i values, s.indexOf? a.step.id = some i ∧
        a.step.input = .object [("dependencies", .object values), ("run", .null)] ∧
        s.Supplies ((pair .tolerant).log events) i values := by
  intro done events s e
  have fresh : (RunRecord.queued .nil Workflow.pair.reference .tolerant .epoch).Fresh :=
    RunRecord.queued_fresh .nil Workflow.pair.reference .tolerant .epoch none [] .null
  obtain ⟨a, leased⟩ : ∃ a, (s.handle e).1.assignment? = some a := ⟨_, rfl⟩
  have input : a.step.input =
      .object [("dependencies", .object [("a", .string "done")]), ("run", .null)] := by
    have given : a.step.input =
        .ofMembers [("run", .null), ("dependencies", .ofMembers [("a", .string "done")])] := by
      cases leased
      rfl
    exact given.trans (Json.ofMembers_swap (by decide) _ _)
  exact ⟨a, leased, input, (inputs_after Plan.pair_built fresh .ofNat events e a leased).1⟩

end Run

end Orchestration
