import Orchestration.Proofs.Run.Readiness
import Orchestration.Proofs.Run.Reserving
import Orchestration.Proofs.Run.Waking

namespace Orchestration

def Workflow.join : Workflow :=
  ⟨.nil, "join", 1, "",
    [⟨"a", .function, [], 0, none, 0, .null⟩, ⟨"b", .function, [], 0, none, 0, .null⟩,
      ⟨"c", .function, ["a", "b"], 0, none, 0, .null⟩, ⟨"d", .function, ["c"], 0, none, 0, .null⟩],
    .epoch⟩

def Plan.join : Plan :=
  ⟨.join, ⟨#v[[], [], [(0 : Fin 4), (1 : Fin 4)], [(2 : Fin 4)]],
    #v[[(2 : Fin 4)], [(2 : Fin 4)], [(3 : Fin 4)], []], List.finRange 4⟩⟩

theorem Plan.join_built : ofWorkflow .join = .ok .join := by rfl

variable {p : Plan} {now : Timestamp} {settings : Scheduling}

namespace RunRecord

variable {r : RunRecord} {c d : Cents}

theorem charge_comm (least : 0 ≤ r.cost.value) (most : r.cost.value ≤ r.ceiling)
    (positive : 0 ≤ c.value) (positive' : 0 ≤ d.value) :
    (r.charge c).charge d = (r.charge d).charge c := by
  have bounds := r.ceiling_bounds
  have twice {c d : Cents} (positive : 0 ≤ c.value) (positive' : 0 ≤ d.value) :
      ((r.charge c).charge d).cost.value =
        min r.ceiling (min r.ceiling (r.cost.value + c.value) + d.value) := by
    have once := charge_cost positive least most
    have ceiling : (r.charge c).ceiling = r.ceiling := rfl
    rw [charge_cost positive' (by omega) (by omega), once, ceiling]
  have cost : ((r.charge c).charge d).cost = ((r.charge d).charge c).cost := by
    ext
    rw [twice positive positive', twice positive' positive]
    omega
  exact congrArg (fun cost => { r with cost }) cost

theorem paid_comm (goes : ¬ r.status.isTerminal) (least : 0 ≤ r.cost.value)
    (most : r.cost.value ≤ r.ceiling) (positive : 0 ≤ c.value) (positive' : 0 ≤ d.value) :
    (r.paid c).paid d = (r.paid d).paid c := by
  have paid (c : Cents) := paid_of_not_terminal goes c
  have goes' (c : Cents) : ¬ (r.charge c).status.isTerminal := goes
  rw [paid c, paid d, paid_of_not_terminal (goes' c), paid_of_not_terminal (goes' d),
    charge_comm least most positive positive']

end RunRecord

namespace Step

variable {s t u : Step}

def reported (s : Step) (node : Node) (report : Report) (now : Timestamp) (settings : Scheduling) :
    Step :=
  let s := s.returned (max report.cost 0)
  match report.verdict with
  | .succeeded =>
    { s with
      status := .succeeded
      output := some (report.output.getD .null)
      error := none
      endedAt := some now }
  | .failed =>
    let s := { s with error := some (report.complaint node) }
    if report.retryable ∧ s.attempt < node.retryLimit then s.again now settings
    else { s with status := .failed, endedAt := some now }

theorem Stirred.status (stirred : s.Stirred now t) : t.status = s.status ∨
    s.status = .pending ∧ (t.status = .ready ∨ t.status = .skipped) := by
  cases stirred with
  | same => exact .inl rfl
  | wake pending => exact .inr ⟨pending, .inl rfl⟩
  | skip pending => exact .inr ⟨pending, .inr rfl⟩

theorem Stirred.eq_of_status (stirred : s.Stirred now t) (stirred' : s.Stirred now u)
    (same : t.status = u.status) : t = u ∨
      s.status = .pending ∧ t.status = .skipped ∧ { t with error := u.error } = u := by
  cases stirred with
  | same =>
    by_cases pending : s.status = .pending
    · cases stirred' with
      | same => exact .inl rfl
      | wake | skip => simp [pending] at same
    · exact .inl (stirred'.eq_of_not_pending pending).symm
  | wake pending =>
    cases stirred' with
    | same => simp [pending] at same
    | wake => exact .inl rfl
    | skip => cases same
  | skip pending why =>
    cases stirred' with
    | same => simp [pending] at same
    | wake => cases same
    | skip _ why' => exact .inr ⟨pending, rfl, rfl⟩

end Step

theorem Change.reported {node : Node} {r r' : RunRecord} {s t : Step} {id : Uuid} {report : Report}
    (change : Change node r s (.accept id report now settings) r' t) (active : r.status.isActive) :
    r' = r.paid (max report.cost 0) ∧ t = s.reported node report now settings := by
  unfold Step.reported
  cases change with
  | succeed l report now settings held flying alive quoted verdict =>
    rw [verdict]
    exact ⟨rfl, rfl⟩
  | fail l report now settings held flying alive quoted verdict last =>
    rw [verdict]
    exact ⟨rfl, (if_neg fun more => last ⟨active, more⟩).symm⟩
  | retry l report now settings held flying alive quoted verdict active' retryable left =>
    rw [verdict]
    exact ⟨rfl, (if_pos ⟨retryable, left⟩).symm⟩

namespace Run

variable {s s' s'' : Run p}

theorem nextStatus?_congr (record : s'.record = s.record)
    (same : ∀ i, (s'.step i).status = (s.step i).status) : s'.nextStatus? = s.nextStatus? := by
  simp only [nextStatus?, endStatus, steps_eq_map, List.any_map, List.all_map, Function.comp_def,
    record, same]

theorem refresh_congr (record : s'.record = s.record)
    (same : ∀ i, (s'.step i).status = (s.step i).status) (now : Timestamp) :
    (s'.refresh now).record = (s.refresh now).record := by
  unfold refresh
  rw [nextStatus?_congr record same, record]
  split <;> simp [record]

namespace Wakes

variable {names names' : List Uuid}

theorem trans (first : s.Wakes s' names) (second : s'.Wakes s'' names')
    (ids : ∀ i, (s'.step i).id = (s.step i).id)
    (kept : ∀ i, (s.step i).status = .ready → (s'.step i).status = .ready)
    (kept' : ∀ i, (s'.step i).status = .ready → (s''.step i).status = .ready) :
    s.Wakes s'' (names ++ names') := by
  obtain ⟨woken, nodup, rfl, all⟩ := first
  obtain ⟨woken', nodup', rfl, all'⟩ := second
  refine ⟨woken ++ woken', List.nodup_append.mpr ⟨nodup, nodup', ?_⟩, by simp [ids], fun i => ?_⟩
  · rintro i member _ member' rfl
    exact ((all' i).mp member').2 ((all i).mp member).1
  · rw [List.mem_append, all, all']
    constructor
    · rintro (⟨ready, before⟩ | ⟨ready, between⟩)
      · exact ⟨kept' i ready, before⟩
      · exact ⟨ready, fun before => between (kept i before)⟩
    · rintro ⟨ready, before⟩
      by_cases between : (s'.step i).status = .ready
      · exact .inl ⟨between, before⟩
      · exact .inr ⟨ready, between⟩

theorem perm (wakes : s.Wakes s' names) (wakes' : s.Wakes s'' names')
    (same : ∀ i, (s'.step i).status = (s''.step i).status) : names.Perm names' := by
  obtain ⟨woken, nodup, rfl, all⟩ := wakes
  obtain ⟨woken', nodup', rfl, all'⟩ := wakes'
  refine ((List.perm_ext_iff_of_nodup nodup nodup').mpr fun i => ?_).map _
  rw [all, all', same]

end Wakes

structure Reported (s : Run p) (i : Fin p.size) (report : Report) (now : Timestamp)
    (settings : Scheduling) (s' : Run p) : Prop where
  record : s'.record = s.record.paid (max report.cost 0)
  reserved : s'.reserved = max (s.reserved - (p.node i).estimatedCost) 0
  here : s'.step i = (s.step i).reported (p.node i) report now settings
  moved : (s'.step i).status ≠ .pending
  elsewhere : ∀ j, j ≠ i → (s.step j).Stirred now (s'.step j)

theorem Valid.accept {canceled : Bool} (ordered : p.Ordered) (valid : s.Valid canceled)
    (tolerant : s.record.policy = .tolerant) {id : Uuid} {report : Report} {status : StepStatus}
    {names : List Uuid}
    (answer : s.accept id report now settings = (.ok (.applied status names), s')) :
    s'.Valid canceled ∧ (∀ i, (s'.step i).id = (s.step i).id) ∧ s.Wakes s' names := by
  have handled : s.handle (.accept id report now settings) =
      (.accepted (.ok (.applied status names)), s') := by
    simp only [Run.handle, answer]
  have next := valid.handle ordered (.accept id report now settings)
  have ids := handle_id valid.sound valid.settled (.accept id report now settings)
  have wakes := handle_wakes valid.sound valid.settled (.accept id report now settings)
  rw [handled] at next ids wakes
  refine ⟨Bool.or_false canceled ▸ next, ids, wakes.resolve_right ?_⟩
  rintro ⟨-, -, failFast, -⟩
  rw [tolerant] at failFast
  cases failFast

section Accepting

variable {i : Fin p.size} {report : Report}

theorem act_reported (active : s.isActive) (tolerant : s.record.policy = .tolerant) {l : Lease}
    (leased : (s.step i).lease = some l) {id : Uuid} {r : RunRecord} {t : Step}
    (change : Change (p.node i) s.record (s.step i) (.accept id report now settings) r t) :
    s.Reported i report now settings (Released.act ⟨s, []⟩ i r t now).run := by
  have mild : ¬ breaks r t := by
    rintro ⟨-, failFast, -⟩
    rw [change.policy_eq, tolerant] at failFast
    cases failFast
  have ripples := Released.act_ripples ⟨s, []⟩ i mild now
  have here : (Released.act ⟨s, []⟩ i r t now).run.step i = t := by
    have stirred := ripples.stirred i
    rw [step_replace_self] at stirred
    exact stirred.eq_of_not_pending change.not_pending
  obtain ⟨record, step⟩ := change.reported active
  constructor
  case record => rw [ripples.record, replace_record, record]
  case reserved => rw [reserved_act, reservedWith, leased, change.returned]
  case here => rw [here, step]
  case moved =>
    rw [here]
    exact change.not_pending
  case elsewhere =>
    intro j other
    have stirred := ripples.stirred j
    rwa [step_replace, if_neg other] at stirred

theorem accept_reported (sound : s.Sound) (active : s.isActive) (tolerant : s.record.policy = .tolerant)
    (found : s.indexOf? (s.step i).id = some i) (accepted : s.accepts i report.lease now)
    (settings : Scheduling) :
    ∃ s' names, s.Reported i report now settings s' ∧
      s.accept (s.step i).id report now settings =
        (.ok (.applied ((s.step i).reported (p.node i) report now settings).status names),
          s'.refresh now) := by
  obtain ⟨flying, l, leased, quoted, alive⟩ := accepts_iff.mp accepted
  obtain ⟨r, t, change, same⟩ := conclude_eq sound report now settings leased flying alive quoted.symm
  have reported := act_reported active tolerant leased change
  have waits := StepStatus.not_isTerminal_of_isInFlight flying
  have answer : s.accept (s.step i).id report now settings =
      (.ok (s.apply i report now settings).1, (s.apply i report now settings).2) := by
    simp only [accept, found, waits, accepted]
    rfl
  refine ⟨_, (Released.act ⟨s, []⟩ i r t now).ready, reported, ?_⟩
  rw [answer]
  simp only [apply, same, Released.refresh, step_refresh, reported.here]

theorem Reported.ready (reported : s.Reported i report now settings s')
    (flying : (s.step i).status.isInFlight) (j : Fin p.size) (ready : (s.step j).status = .ready) :
    (s'.step j).status = .ready := by
  have other : j ≠ i := by
    rintro rfl
    rw [ready] at flying
    cases flying
  rwa [(reported.elsewhere j other).eq_of_not_pending (by simp [ready])]

end Accepting

structure ReportedBoth (s : Run p) (a b : Fin p.size) (ra rb : Report) (now : Timestamp)
    (settings : Scheduling) (s' : Run p) : Prop where
  record : s'.record = (s.record.paid (max ra.cost 0)).paid (max rb.cost 0)
  reserved : s'.reserved =
    max (max (s.reserved - (p.node a).estimatedCost) 0 - (p.node b).estimatedCost) 0
  first : s'.step a = (s.step a).reported (p.node a) ra now settings
  second : s'.step b = (s.step b).reported (p.node b) rb now settings
  elsewhere : ∀ j, j ≠ a → j ≠ b → (s.step j).Stirred now (s'.step j)

section Both

variable {a b : Fin p.size} {ra rb : Report} {t u : Run p}

theorem Reported.both (first : s.Reported a ra now settings s')
    (second : s'.Reported b rb now settings s'') (apart : a ≠ b) (same : s'.step b = s.step b) :
    s.ReportedBoth a b ra rb now settings s'' := by
  constructor
  case record => rw [second.record, first.record]
  case reserved => rw [second.reserved, first.reserved]
  case first => rw [(second.elsewhere a apart).eq_of_not_pending first.moved, first.here]
  case second => rw [second.here, same]
  case elsewhere =>
    exact fun j other other' => (first.elsewhere j other).trans (second.elsewhere j other')

theorem accept_both {canceled : Bool} (ordered : p.Ordered) (valid : s.Valid canceled)
    (distinct : ∀ i j, (s.step i).id = (s.step j).id → i = j) (active : s.isActive)
    (tolerant : s.record.policy = .tolerant) (apart : a ≠ b) (acceptedA : s.accepts a ra.lease now)
    (acceptedB : s.accepts b rb.lease now) (settings : Scheduling) :
    ∃ s₁ s₂ namesA namesB, s.ReportedBoth a b ra rb now settings s₂ ∧
      s.accept (s.step a).id ra now settings =
        (.ok (.applied ((s.step a).reported (p.node a) ra now settings).status namesA), s₁) ∧
      s₁.accept (s.step b).id rb now settings =
        (.ok (.applied ((s.step b).reported (p.node b) rb now settings).status namesB),
          s₂.refresh now) ∧
      s.Wakes (s₂.refresh now) (namesA ++ namesB) ∧ s₂.Tracked [] [] := by
  have flyingA := (accepts_iff.mp acceptedA).1
  have flyingB := (accepts_iff.mp acceptedB).1
  obtain ⟨s₁, namesA, first, answer⟩ :=
    accept_reported valid.sound active tolerant (indexOf?_self distinct a) acceptedA settings
  have waits : (s.step b).status ≠ .pending := by
    intro pending
    rw [pending] at flyingB
    cases flyingB
  have same : s₁.step b = s.step b := (first.elsewhere b apart.symm).eq_of_not_pending waits
  -- With the second step still under way, the first report cannot have ended the run.
  have calm : s₁.refresh now = s₁ := refresh_eq_self (nextStatus?_of_inFlight b (same ▸ flyingB)) now
  rw [calm] at answer
  obtain ⟨valid₁, ids, wakes⟩ := valid.accept ordered tolerant answer
  have tolerant₁ : s₁.record.policy = .tolerant := by rw [first.record, RunRecord.paid_policy, tolerant]
  have active₁ : s₁.isActive := by rw [isActive, first.record, RunRecord.paid_status]; exact active
  have accepted₁ : s₁.accepts b rb.lease now := by rwa [accepts, same]
  have found : s₁.indexOf? (s₁.step b).id = some b := by
    refine indexOf?_self (fun i j same => distinct i j ?_) b
    rwa [ids, ids] at same
  obtain ⟨s₂, namesB, second, answer'⟩ :=
    accept_reported valid₁.sound active₁ tolerant₁ found accepted₁ settings
  obtain ⟨valid₂, -, wakes'⟩ := valid₁.accept ordered tolerant₁ answer'
  rw [same] at answer'
  refine ⟨s₁, s₂, namesA, namesB, first.both second apart same, answer, answer', ?_, ?_⟩
  · refine wakes.trans wakes' ids (first.ready flyingA) fun i ready => ?_
    rw [step_refresh]
    exact second.ready (same ▸ flyingB) i ready
  · have tracked := valid₂.tracked (.inr ⟨?_, valid.phase.kept active⟩)
    · exact tracked.congr (refresh_waiting s₂ now).symm fun j => .inl (by rw [step_refresh])
    · rw [refresh_policy, second.record, RunRecord.paid_policy, tolerant₁]

theorem Readiness.status_eq {i : Fin p.size} (ready : t.Readiness i) (ready' : u.Readiness i)
    (stirred : (s.step i).Stirred now (t.step i)) (stirred' : (s.step i).Stirred now (u.step i))
    (same : ∀ d, p.DependsOn i d → (t.step d).status = (u.step d).status) :
    (t.step i).status = (u.step i).status := by
  have skipped : (t.step i).status = .skipped ↔ (u.step i).status = .skipped := by
    rw [ready.skipped, ready'.skipped]
    exact exists_congr fun d => and_congr_right fun depends => by rw [same d depends]
  have pending : (t.step i).status = .pending ↔ (u.step i).status = .pending := by
    rw [ready.pending, ready'.pending]
    refine and_congr (forall₂_congr fun d depends => by rw [same d depends]) ?_
    exact exists_congr fun d => and_congr_right fun depends => by rw [same d depends]
  rcases stirred.status with kept | ⟨waited, woke | skips⟩ <;>
    rcases stirred'.status with kept' | ⟨waited', woke' | skips'⟩ <;> simp_all

theorem ReportedBoth.status_eq (ordered : p.Ordered) (both : s.ReportedBoth a b ra rb now settings t)
    (both' : s.ReportedBoth b a rb ra now settings u) (ready : ∀ i, t.Readiness i)
    (ready' : ∀ i, u.Readiness i) (i : Fin p.size) : (t.step i).status = (u.step i).status := by
  obtain ⟨rank, lower⟩ := ordered.ranked
  -- What a step depends on is ranked below it, so that both runs agree on that first.
  induction position : rank i using Nat.strongRecOn generalizing i with
  | ind k ih =>
    by_cases isA : i = a
    · rw [isA, both.first, both'.second]
    · by_cases isB : i = b
      · rw [isB, both.second, both'.first]
      · refine (ready i).status_eq (ready' i) (both.elsewhere i isA isB)
          (both'.elsewhere i isB isA) fun d depends => ih (rank d) ?_ d rfl
        rw [← position]
        exact lower i d ((ordered.named i d).mpr depends)

end Both

/-- Two runs that `s` has become agree, apart from the texts that say why a step was skipped on the
way. -/
structure Meet (s t u : Run p) : Prop where
  record : t.record = u.record
  waiting : t.waiting = u.waiting
  reserved : t.reserved = u.reserved
  steps : ∀ i, t.step i = u.step i ∨ (s.step i).status = .pending ∧ (t.step i).status = .skipped ∧
    { t.step i with error := (u.step i).error } = u.step i

theorem Tracked.waiting_eq {t u : Run p} (tracked : t.Tracked [] []) (tracked' : u.Tracked [] [])
    (same : ∀ i, (t.step i).status = (u.step i).status) : t.waiting = u.waiting := by
  ext i bound
  have counted := tracked.waiting ⟨i, bound⟩
  have counted' := tracked'.waiting ⟨i, bound⟩
  have unsettled : t.unsettled ⟨i, bound⟩ = u.unsettled ⟨i, bound⟩ :=
    unsettled_congr (fun j => by rw [same]) _
  rw [unsettled] at counted
  exact counted.trans counted'.symm

section Meeting

variable {a b : Fin p.size} {ra rb : Report} {t u : Run p}

theorem ReportedBoth.meet (both : s.ReportedBoth a b ra rb now settings t)
    (both' : s.ReportedBoth b a rb ra now settings u) (funded : s.Funded)
    (goes : ¬ s.record.status.isTerminal) (estimates : ∀ i, 0 ≤ (p.node i).estimatedCost.value)
    (tracked : t.Tracked [] []) (tracked' : u.Tracked [] [])
    (status : ∀ i, (t.step i).status = (u.step i).status) :
    s.Meet (t.refresh now) (u.refresh now) := by
  have nonneg (c : Cents) : 0 ≤ (max c 0).value := by
    rw [Cents.value_max, Cents.value_zero]
    omega
  have record : t.record = u.record := by
    rw [both.record, both'.record,
      RunRecord.paid_comm goes funded.least funded.most (nonneg _) (nonneg _)]
  have reserved : t.reserved = u.reserved := by
    have estimateA := estimates a
    have estimateB := estimates b
    have upper := s.reserved.upper
    rw [both.reserved, both'.reserved]
    ext
    simp only [Cents.value_max, Cents.value_sub, Cents.value_zero]
    omega
  constructor
  case record => exact refresh_congr record status now
  case waiting =>
    rw [refresh_waiting, refresh_waiting]
    exact tracked.waiting_eq tracked' status
  case reserved =>
    rw [reserved_refresh, reserved_refresh, reserved]
  case steps =>
    intro i
    rw [step_refresh, step_refresh]
    by_cases isA : i = a
    · rw [isA, both.first, both'.second]
      exact .inl rfl
    · by_cases isB : i = b
      · rw [isB, both.second, both'.first]
        exact .inl rfl
      · exact (both.elsewhere i isA isB).eq_of_status (both'.elsewhere i isB isA) (status i)

end Meeting

/-- In an active run that tolerates failures, two reports on different steps under way have the same
effect in either order, apart from the texts that say why a step was skipped. The two answers name
the same steps as ready, and each of them what became of its step. -/
theorem accept_commutes {w : Workflow} (built : Plan.ofWorkflow w = .ok p) {record : RunRecord}
    (fresh : record.Fresh) (stepId : Nat → Uuid)
    (distinct : ∀ i j : Fin p.size, stepId i = stepId j → i = j) (events : List Event)
    {a b : Fin p.size} (apart : a ≠ b) (ra rb : Report) (now : Timestamp) (settings : Scheduling) :
    let s := (start p record stepId).after events
    let one := s.accept (s.step a).id ra now settings
    let both := one.2.accept (s.step b).id rb now settings
    let other := s.accept (s.step b).id rb now settings
    let both' := other.2.accept (s.step a).id ra now settings
    s.isActive → record.policy = .tolerant → s.accepts a ra.lease now → s.accepts b rb.lease now →
      s.Meet both.2 both'.2 ∧ ∃ statusA statusB namesA namesB namesA' namesB',
        one.1 = .ok (.applied statusA namesA) ∧ both.1 = .ok (.applied statusB namesB) ∧
        other.1 = .ok (.applied statusB namesB') ∧ both'.1 = .ok (.applied statusA namesA') ∧
        (namesA ++ namesB).Perm (namesB' ++ namesA') := by
  intro s one both other both' active tolerant acceptedA acceptedB
  have ordered := Plan.ordered built
  have valid := valid_after ordered fresh stepId events
  have begun := Valid.start ordered fresh stepId
  have policy : s.record.policy = .tolerant := (begun.after_policy ordered events).trans tolerant
  have funded : s.Funded := (begun.after_funded ordered events (start_funded fresh stepId).1).1
  have ids := ids_distinct ordered fresh stepId distinct events
  obtain ⟨s₁, t, namesA, namesB, reported, answer₁, answer₂, wakes, tracked⟩ :=
    accept_both ordered valid ids active policy apart acceptedA acceptedB settings
  obtain ⟨s₁', u, namesB', namesA', reported', answer₁', answer₂', wakes', tracked'⟩ :=
    accept_both ordered valid ids active policy apart.symm acceptedB acceptedA settings
  have status := reported.status_eq ordered reported' (tracked.readiness ordered)
    (tracked'.readiness ordered)
  have meet := reported.meet reported' funded (RunStatus.not_isTerminal_of_isActive active)
    (Plan.estimate_nonneg built) tracked tracked' status
  have first : one.2 = s₁ := congrArg Prod.snd answer₁
  have first' : other.2 = s₁' := congrArg Prod.snd answer₁'
  have last : both = _ := first ▸ answer₂
  have last' : both' = _ := first' ▸ answer₂'
  rw [last, last']
  refine ⟨meet, _, _, namesA, namesB, namesA', namesB', congrArg Prod.fst answer₁, rfl,
    congrArg Prod.fst answer₁', rfl, wakes.perm wakes' fun i => ?_⟩
  rw [step_refresh, step_refresh, status]

/-- Both steps fail. The one that waits for them is skipped for the first failure, and the step behind
it becomes ready. -/
theorem accept_commutes_failures :
    let record := RunRecord.queued .nil Workflow.join.reference .tolerant .epoch
    let events : List Event :=
      [.grant (.ofNat 0) "first" (.ofNat 4) .epoch default,
        .grant (.ofNat 1) "second" (.ofNat 5) .epoch default]
    let s := (start .join record .ofNat).after events
    let a : Fin 4 := 0
    let b : Fin 4 := 1
    let ra := (Report.failed (.ofNat 4) "no" 0).fatal
    let rb := (Report.failed (.ofNat 5) "no" 0).fatal
    let both := ((s.accept (s.step a).id ra .epoch default).2.accept (s.step b).id rb .epoch default).2
    let both' := ((s.accept (s.step b).id rb .epoch default).2.accept (s.step a).id ra .epoch default).2
    s.isActive ∧ s.accepts a ra.lease .epoch ∧ s.accepts b rb.lease .epoch ∧ s.Meet both both' ∧
      both.readySteps = [.ofNat 3] ∧
      (both.step (2 : Fin 4)).error ≠ (both'.step (2 : Fin 4)).error := by
  intro record events s a b ra rb both both'
  have fresh : record.Fresh :=
    RunRecord.queued_fresh .nil Workflow.join.reference .tolerant .epoch none [] .null
  have apart : a ≠ b := by decide
  have active : s.isActive := by decide +kernel
  have acceptedA : s.accepts a ra.lease .epoch := by decide +kernel
  have acceptedB : s.accepts b rb.lease .epoch := by decide +kernel
  have commutes := accept_commutes Plan.join_built fresh .ofNat (by decide +kernel) events
    (a := a) (b := b) apart ra rb .epoch default active rfl acceptedA acceptedB
  exact ⟨active, acceptedA, acceptedB, commutes.1, by decide +kernel, by decide +kernel⟩

end Run

end Orchestration
