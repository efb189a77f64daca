import Orchestration.Proofs.Run.Answered
import Mathlib.Algebra.BigOperators.Fin
import Mathlib.Algebra.Order.BigOperators.Group.Finset

namespace Orchestration

theorem UInt32.toNat_add_one_of_lt {n limit : UInt32} (below : n < limit) : (n + 1).toNat = n.toNat + 1 := by
  have room := limit.toNat_lt
  rw [UInt32.lt_iff_toNat_lt] at below
  rw [UInt32.toNat_add, UInt32.toNat_one, Nat.mod_eq_of_lt (by omega)]

/-- What the number of the present attempt tells of a step that was handed out `turns` times. -/
structure Step.Counted (limit : UInt32) (turns : Nat) (s : Step) : Prop where
  within : s.attempt ≤ limit
  most : turns ≤ s.attempt.toNat + 1
  present : ¬ s.status.isTerminal → turns = s.attempt.toNat + if s.status.isInFlight then 1 else 0

namespace Step.Counted

variable {limit : UInt32} {turns : Nat} {s t : Step}

theorem ended (counted : s.Counted limit turns) (same : t.attempt = s.attempt)
    (ended : t.status.isTerminal) : t.Counted limit turns := by
  refine ⟨same ▸ counted.within, same ▸ counted.most, fun waits => absurd ended waits⟩

theorem moved (counted : s.Counted limit turns) (same : t.attempt = s.attempt)
    (waits : ¬ s.status.isTerminal) (flying : t.status.isInFlight = s.status.isInFlight) :
    t.Counted limit turns := by
  refine ⟨same ▸ counted.within, same ▸ counted.most, fun _ => ?_⟩
  rw [same, flying]
  exact counted.present waits

theorem again (counted : s.Counted limit turns) (flying : s.status.isInFlight)
    (left : s.attempt < limit) (next : t.attempt = s.attempt + 1)
    (grounded : t.status.isInFlight = false) : t.Counted limit turns := by
  have taken := counted.present (StepStatus.not_isTerminal_of_isInFlight flying)
  rw [if_pos flying] at taken
  have number := UInt32.toNat_add_one_of_lt left
  rw [← next] at number
  refine ⟨?_, by omega, fun _ => by simp [grounded, number, taken]⟩
  rw [UInt32.lt_iff_toNat_lt] at left
  rw [UInt32.le_iff_toNat_le]
  omega

theorem aside {now : Timestamp} (counted : s.Counted limit turns) (aside : s.Aside now t) :
    t.Counted limit turns := by
  cases aside with
  | same => exact counted
  | wake pending => exact counted.moved rfl (by rw [pending]; decide) (by rw [pending]; rfl)
  | skip => exact counted.ended rfl rfl
  | stop =>
    unfold Run.stopStep
    split
    · exact counted.ended rfl rfl
    · exact counted.ended rfl rfl
    · exact counted.ended rfl rfl
    · exact ⟨counted.within, counted.most, counted.present⟩
    · exact ⟨counted.within, counted.most, counted.present⟩
    all_goals exact counted

end Step.Counted

namespace Change

variable {node : Node} {r r' : RunRecord} {s t : Step} {e : Event} {turns : Nat}

theorem counted (change : Change node r s e r' t) (counted : s.Counted node.retryLimit turns)
    (kept : t.status ≠ .dispatched) : t.Counted node.retryLimit turns := by
  cases change with
  | lease => exact absurd rfl kept
  | renew _ _ _ _ flying =>
    exact counted.moved rfl (StepStatus.not_isTerminal_of_isInFlight flying) flying.symm
  | reject | abandon | succeed | fail | drop | expire => exact counted.ended rfl rfl
  | retry _ _ _ _ _ flying _ _ _ _ _ left | reclaim _ _ _ _ flying _ _ left =>
    exact counted.again flying left (Step.again_attempt ..) (Step.again_grounded ..)
  | promote _ _ _ retrying =>
    exact counted.moved rfl (by rw [retrying]; decide) (by rw [retrying]; rfl)

theorem numbered (change : Change node r s e r' t) (counted : s.Counted node.retryLimit turns)
    (dispatched : t.status = .dispatched) :
    e.grants ∧ t.attempt.toNat = turns ∧ t.Counted node.retryLimit (turns + 1) := by
  have flying : t.status.isInFlight := by
    rw [dispatched]
    rfl
  cases change with
  | lease _ _ _ _ _ ready =>
    have present := counted.present (by rw [ready]; decide)
    rw [ready, if_neg (by decide), Nat.add_zero] at present
    refine ⟨rfl, present.symm, counted.within, by simp [present], fun _ => ?_⟩
    simp [present, StepStatus.isInFlight]
  | retry | reclaim => cases (Step.again_grounded ..).symm.trans flying
  | _ => cases dispatched

theorem attempt_le (change : Change node r s e r' t) : s.attempt ≤ t.attempt := by
  have next (left : s.attempt < node.retryLimit) : s.attempt ≤ s.attempt + 1 := by
    rw [UInt32.le_iff_toNat_le, UInt32.toNat_add_one_of_lt left]
    exact Nat.le_succ _
  cases change with
  | retry _ _ _ _ _ _ _ _ _ _ _ left | reclaim _ _ _ _ _ _ _ left =>
    rw [Step.again_attempt]
    exact next left
  | _ => exact UInt32.le_refl _

end Change

theorem Step.Aside.attempt_eq {s t : Step} {now : Timestamp} (aside : s.Aside now t) :
    t.attempt = s.attempt := by
  cases aside with
  | stop => unfold Run.stopStep; split <;> rfl
  | _ => rfl

def Plan.mostLeases (p : Plan) : Nat := ∑ i, ((p.node i).retryLimit.toNat + 1)

namespace Run

variable {p : Plan} {s s' : Run p} {log : Log} {e : Event} {o : Outcome}

def turns (s : Run p) (log : Log) (i : Fin p.size) : List Assignment :=
  log.assignments.filter fun a => s.indexOf? a.step.id = some i

theorem turns_congr (ids : ∀ i, (s'.step i).id = (s.step i).id) : s'.turns log = s.turns log := by
  unfold turns
  simp only [indexOf?_congr ids]

theorem turns_append (i : Fin p.size) : s.turns (log ++ [(e, o)]) i =
    s.turns log i ++ o.assignment?.toList.filter fun a => s.indexOf? a.step.id = some i := by
  unfold turns
  rw [Log.assignments_append, Log.assignments_single, List.filter_append]

theorem act_counted (c : Released p) (i : Fin p.size) (r : RunRecord) (t : Step) (now : Timestamp)
    {j : Fin p.size} {turns : Nat} (own : j = i → t.Counted (p.node j).retryLimit turns)
    (other : j ≠ i → (c.run.step j).Counted (p.node j).retryLimit turns) :
    ((c.act i r t now).run.step j).Counted (p.node j).retryLimit turns := by
  have aside := c.step_act_aside i r t now j
  rw [step_replace] at aside
  split at aside
  · exact (own ‹_›).aside aside
  · exact (other ‹_›).aside aside

theorem sweeping_counted {now : Timestamp} {settings : Scheduling} {c c' : Released p}
    (acts : Acts (.sweep now settings) c c') {j : Fin p.size} {turns : Nat}
    (counted : (c.run.step j).Counted (p.node j).retryLimit turns) :
    (c'.run.step j).Counted (p.node j).retryLimit turns := by
  induction acts with
  | refl => exact counted
  | @tail c₁ _ _ act ih =>
    obtain ⟨i, r, t, change, rfl⟩ := act
    refine act_counted c₁ i r t _ ?_ fun _ => ih
    intro here
    subst here
    refine change.counted ih ?_
    intro dispatched
    have grounded := change.grounded_of_sweep
    rw [dispatched] at grounded
    exact grounded rfl

structure Numbered (s : Run p) (log : Log) : Prop where
  counted : ∀ i, (s.step i).Counted (p.node i).retryLimit (s.turns log i).length
  inOrder : ∀ i, (s.turns log i).map (·.step.attempt.toNat) = List.range (s.turns log i).length
  total : log.assignments.length = ∑ i, (s.turns log i).length

namespace Numbered

theorem start (p : Plan) (record : RunRecord) (stepId : Nat → Uuid) :
    (start p record stepId).Numbered [] := by
  refine ⟨fun i => ?_, fun i => rfl, by simp [Log.assignments, turns]⟩
  simp only [Run.start, step, Fin.getElem_fin, Vector.getElem_ofFn]
  split <;> exact ⟨UInt32.zero_le, Nat.zero_le _, fun _ => rfl⟩

theorem kept (numbered : s.Numbered log) (ids : ∀ i, (s'.step i).id = (s.step i).id)
    (silent : o.assignment? = none)
    (counted : ∀ i turns, (s.step i).Counted (p.node i).retryLimit turns →
      (s'.step i).Counted (p.node i).retryLimit turns) :
    s'.Numbered (log ++ [(e, o)]) := by
  have same (i) : s.turns (log ++ [(e, o)]) i = s.turns log i := by
    rw [turns_append, silent]
    exact List.append_nil _
  have total : (log ++ [(e, o)]).assignments = log.assignments := by
    rw [Log.assignments_append, Log.assignments_single, silent]
    exact List.append_nil _
  constructor <;> simp only [turns_congr ids, same, total]
  · exact fun i => counted i _ (numbered.counted i)
  · exact numbered.inOrder
  · exact numbered.total

theorem given (numbered : s.Numbered log) (ids : ∀ i, (s'.step i).id = (s.step i).id) {a : Assignment}
    {i : Fin p.size} (leased : o.assignment? = some a) (found : s.indexOf? a.step.id = some i)
    (number : a.step.attempt.toNat = (s.turns log i).length)
    (own : (s'.step i).Counted (p.node i).retryLimit ((s.turns log i).length + 1))
    (other : ∀ j ≠ i, ∀ turns, (s.step j).Counted (p.node j).retryLimit turns →
      (s'.step j).Counted (p.node j).retryLimit turns) :
    s'.Numbered (log ++ [(e, o)]) := by
  have turns (j) : s.turns (log ++ [(e, o)]) j = s.turns log j ++ if j = i then [a] else [] := by
    rw [turns_append, leased, Option.toList_some, List.filter_singleton, found]
    simp [eq_comm]
  have length (j) : (s.turns (log ++ [(e, o)]) j).length =
      (s.turns log j).length + if j = i then 1 else 0 := by
    rw [turns, List.length_append]
    split <;> rfl
  constructor <;> simp only [turns_congr ids]
  case counted =>
    intro j
    rw [length]
    split
    · subst j
      exact own
    · exact other j ‹_› _ (numbered.counted j)
  case inOrder =>
    intro j
    rw [length, turns, List.map_append, numbered.inOrder]
    split
    · subst j
      simp [number, List.range_succ]
    · simp
  case total =>
    rw [Log.assignments_append, Log.assignments_single, leased, List.length_append, numbered.total]
    simp [length, Finset.sum_add_distrib]

theorem call (numbered : s.Numbered log) {result : Outcome × Run p} (call : s.Call e result)
    (ids : ∀ i, (result.2.step i).id = (s.step i).id) :
    result.2.Numbered (log ++ [(e, result.1)]) := by
  cases call with
  | ignored silent => exact numbered.kept ids (Outcome.assignment?_of_not_heeds silent) fun _ _ => id
  | @heeded i r t o found change tells =>
    simp only [step_refresh] at ids
    -- The step is handed out exactly when the change leaves it dispatched.
    by_cases dispatched : t.status = .dispatched
    · obtain ⟨grants, number, own⟩ := change.numbered (numbered.counted i) dispatched
      cases tells with
      | leased a same =>
        subst same
        rw [← change.id_eq] at found
        refine numbered.given (by simpa using ids) rfl found number ?_ ?_ <;> simp only [step_refresh]
        · exact act_counted ⟨s, []⟩ i r _ _ (fun _ => own) (absurd rfl)
        · exact fun j other turns counted =>
            act_counted ⟨s, []⟩ i r _ _ (fun here => absurd here other) fun _ => counted
      | rejected _ _ failed => cases failed.symm.trans dispatched
      | renewed | abandoned | applied => cases grants
    · have silent : o.assignment? = none := by
        cases tells with
        | leased _ _ leased => exact absurd leased dispatched
        | _ => rfl
      refine numbered.kept (by simpa using ids) silent fun j turns counted => ?_
      rw [step_refresh]
      refine act_counted ⟨s, []⟩ i r t _ ?_ fun _ => counted
      intro here
      subst here
      exact change.counted counted dispatched

theorem handle (numbered : s.Numbered log) (sound : s.Sound) (settled : s.nextStatus? = none) (e : Event) :
    (s.handle e).2.Numbered (log ++ [(e, (s.handle e).1)]) := by
  have ids := handle_id sound settled e
  have handled := handled sound settled e
  generalize s.handle e = result at handled ids
  cases handled with
  | called call => exact numbered.call call ids
  | swept acts =>
    refine numbered.kept ids rfl fun j turns counted => ?_
    rw [step_refresh]
    exact sweeping_counted acts counted
  | canceled =>
    refine numbered.kept ids rfl fun j turns counted => ?_
    rw [step_refresh, step_halted]
    exact counted.aside .stop
  | declined => exact numbered.kept ids rfl fun j turns counted => counted

theorem after {canceled : Bool} (ordered : p.Ordered) (valid : s.Valid canceled)
    (numbered : s.Numbered log) (events : List Event) :
    (s.after events).Numbered (log ++ s.log events) := by
  induction events generalizing s canceled log with
  | nil => rwa [Run.log, List.append_nil]
  | cons e events ih =>
    rw [log_cons, ← List.append_assoc]
    exact ih (valid.handle ordered e) (numbered.handle valid.sound valid.settled e)

theorem most (numbered : s.Numbered log) (i : Fin p.size) :
    (s.turns log i).length ≤ (p.node i).retryLimit.toNat + 1 := by
  have counted := numbered.counted i
  have within := UInt32.le_iff_toNat_le.mp counted.within
  have most := counted.most
  omega

end Numbered

theorem handle_attempt (sound : s.Sound) (settled : s.nextStatus? = none) (e : Event)
    (i : Fin p.size) : (s.step i).attempt ≤ ((s.handle e).2.step i).attempt := by
  have relates : e.Relates (p.node i) fun s t => s.attempt ≤ t.attempt := by
    constructor
    case refl => exact fun _ => UInt32.le_refl _
    case trans => exact fun _ _ _ => UInt32.le_trans
    case change => exact fun _ _ _ _ change => change.attempt_le
    case aside => exact fun _ _ aside => UInt32.le_of_eq aside.attempt_eq.symm
  exact relates.handle sound settled

/-- However its leases end, a step is handed out with the numbers from zero on, never more often than
its node allows. -/
theorem attempts_after {w : Workflow} (built : Plan.ofWorkflow w = .ok p) {record : RunRecord}
    (fresh : record.Fresh) (stepId : Nat → Uuid) (events : List Event) :
    let s := (start p record stepId).after events
    let log := (start p record stepId).log events
    (∀ i, (s.turns log i).map (·.step.attempt.toNat) = List.range (s.turns log i).length ∧
        (s.turns log i).length ≤ (p.node i).retryLimit.toNat + 1 ∧
        (s.step i).attempt ≤ (p.node i).retryLimit ∧
        ∀ e, (s.step i).attempt ≤ ((s.handle e).2.step i).attempt) ∧
      log.assignments.length ≤ p.mostLeases := by
  intro s log
  have ordered := Plan.ordered built
  have valid := valid_after ordered fresh stepId events
  have numbered : s.Numbered log :=
    (Numbered.start p record stepId).after ordered (Valid.start ordered fresh stepId) events
  refine ⟨fun i => ⟨numbered.inOrder i, numbered.most i, (numbered.counted i).within, fun e => ?_⟩, ?_⟩
  · exact handle_attempt valid.sound valid.settled e i
  · rw [numbered.total]
    exact Finset.sum_le_sum fun i _ => numbered.most i

/-- A step whose first lease expires and whose second attempt fails is not handed out a third time. -/
theorem attempts_after_expiry :
    let late := Timestamp.epoch.after (seconds 1800)
    let events : List Event :=
      [.grant (.ofNat 0) "first" (.ofNat 2) .epoch default, .sweep late default,
        .grant (.ofNat 0) "second" (.ofNat 3) late default,
        .accept (.ofNat 0) (.failed (.ofNat 3) "no" 0) late default,
        .grant (.ofNat 0) "third" (.ofNat 4) late default]
    let s := (pair .tolerant).after events
    let log := (pair .tolerant).log events
    (s.turns log (0 : Fin 2)).map (·.step.attempt.toNat) = List.range 2 ∧
      (s.turns log (0 : Fin 2)).length = (Plan.pair.node (0 : Fin 2)).retryLimit.toNat + 1 ∧
      (s.step (0 : Fin 2)).attempt ≤ (Plan.pair.node (0 : Fin 2)).retryLimit ∧
      log.assignments.length ≤ Plan.pair.mostLeases := by
  intro late events s log
  have fresh : (RunRecord.queued .nil Workflow.pair.reference .tolerant .epoch).Fresh :=
    RunRecord.queued_fresh .nil Workflow.pair.reference .tolerant .epoch none [] .null
  obtain ⟨each, total⟩ := attempts_after Plan.pair_built fresh .ofNat events
  obtain ⟨numbers, -, within, -⟩ := each (0 : Fin 2)
  have twice : (s.turns log (0 : Fin 2)).length = 2 := by decide +kernel
  have limit : (Plan.pair.node (0 : Fin 2)).retryLimit.toNat + 1 = 2 := by decide +kernel
  simp only [s, log, pair] at twice ⊢
  rw [twice] at numbers
  exact ⟨numbers, twice.trans limit.symm, within, total⟩

end Run

end Orchestration
