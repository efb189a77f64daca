import Orchestration.Proofs.Run.Answered
import Orchestration.Proofs.Run.Spending

namespace Orchestration

theorem Plan.estimate_nonneg {w : Workflow} {p : Plan} (built : Plan.ofWorkflow w = .ok p)
    (i : Fin p.size) : 0 ≤ (p.node i).estimatedCost.value :=
  Int.not_lt.mp (Plan.node_sound built i).1

def Workflow.priced : Workflow :=
  ⟨.nil, "priced", 1, "",
    [⟨"a", .function, [], 0, none, .clamp 3, .null⟩, ⟨"b", .function, [], 0, none, .clamp 3, .null⟩],
    .epoch⟩

def Plan.priced : Plan :=
  ⟨.priced, ⟨#v[[], []], #v[[], []], List.finRange 2⟩⟩

theorem Plan.priced_built : ofWorkflow .priced = .ok .priced := by rfl

/-- Stopping at the ends of the range does not change how a sum compares with a budget within it. -/
theorem RunRecord.overBudget?_isSome {r : RunRecord} {reserved : Cents} {node : Node}
    (cost : 0 ≤ r.cost.value) (others : 0 ≤ reserved.value) (own : 0 ≤ node.estimatedCost.value) :
    (r.overBudget? reserved node).isSome ↔
      ∃ budget, r.budget = some budget ∧ budget.value < 9223372036854775807 ∧
        budget.value < r.cost.value + reserved.value + node.estimatedCost.value := by
  unfold overBudget?
  cases given : r.budget with
  | none => simp
  | some budget =>
    have beyond : budget < r.cost + reserved + node.estimatedCost ↔
        budget.value < 9223372036854775807 ∧
          budget.value < r.cost.value + reserved.value + node.estimatedCost.value := by
      have upper := budget.upper
      simp only [Cents.lt_iff, Cents.value_add]
      omega
    simp only [beyond, Option.some.injEq, exists_eq_left']
    split <;> simp_all

theorem Change.budget_eq {node : Node} {r r' : RunRecord} {s t : Step} {e : Event}
    (change : Change node r s e r' t) : r'.budget = r.budget :=
  (congrArg RunRecord.budget change.submitted_eq :)

/-- What is reserved stands for estimates that are `total` together. Only a sum that no budget bounds
may have stopped at the end of the range. -/
structure Cents.StandsFor (reserved : Cents) (budget : Option Cents) (total : Int) : Prop where
  least : 0 ≤ reserved.value
  most : reserved.value ≤ total
  exact : ∀ b, budget = some b → b.value < 9223372036854775807 → reserved.value = total

namespace Cents.StandsFor

variable {reserved : Cents} {r : RunRecord} {node : Node} {total : Int}

theorem add (stands : reserved.StandsFor r.budget total) (cost : 0 ≤ r.cost.value)
    (own : 0 ≤ node.estimatedCost.value) (fits : r.overBudget? reserved node = none) :
    (reserved + node.estimatedCost).StandsFor r.budget (total + node.estimatedCost.value) := by
  have least := stands.least
  have most := stands.most
  refine ⟨?_, ?_, fun b given small => ?_⟩
  · rw [value_add]
    omega
  · rw [value_add]
    omega
  · have exact := stands.exact b given small
    have room : ¬ (r.overBudget? reserved node).isSome := by simp [fits]
    rw [RunRecord.overBudget?_isSome cost least own] at room
    have within : ¬ b.value < r.cost.value + reserved.value + node.estimatedCost.value :=
      fun beyond => room ⟨b, given, small, beyond⟩
    rw [value_add]
    omega

theorem sub {budget : Option Cents} {estimate : Cents} (stands : reserved.StandsFor budget total)
    (own : 0 ≤ estimate.value) (part : estimate.value ≤ total) :
    (max (reserved - estimate) 0).StandsFor budget (total - estimate.value) := by
  have least := stands.least
  have most := stands.most
  have upper := estimate.upper
  have upper' := reserved.upper
  refine ⟨?_, ?_, fun b given small => ?_⟩
  · rw [value_max, value_zero]
    omega
  · rw [value_max, value_sub, value_zero]
    omega
  · have exact := stands.exact b given small
    rw [value_max, value_sub, value_zero]
    omega

end Cents.StandsFor

variable {p : Plan}

namespace Run

def loans (s : Run p) : Option Cents × Cents × (Fin p.size → Bool) :=
  (s.record.budget, s.reserved, fun i => (s.step i).status.isInFlight)

theorem loans_congr {s s' : Run p} (budget : s'.record.budget = s.record.budget)
    (reserved : s'.reserved = s.reserved)
    (steps : ∀ i, (s'.step i).status.isInFlight = (s.step i).status.isInFlight) :
    s'.loans = s.loans := by
  unfold loans
  rw [budget, reserved, funext steps]

theorem isInFlight_stopStep (now : Timestamp) (t : Step) :
    (stopStep now t).status.isInFlight = t.status.isInFlight := by
  unfold stopStep
  split <;> simp_all [StepStatus.isInFlight]

theorem loans_refresh (s : Run p) (now : Timestamp) : (s.refresh now).loans = s.loans := by
  refine loans_congr ?_ ?_ fun i => by rw [step_refresh]
  · unfold refresh
    split <;> rfl
  · unfold refresh
    split <;> rfl

theorem loans_halted (s : Run p) (now : Timestamp) : (s.halted now).loans = s.loans :=
  loans_congr rfl rfl fun i => by rw [step_halted, isInFlight_stopStep]

theorem loans_collapse (s : Run p) (why : String) (now : Timestamp) :
    (s.collapse why now).loans = s.loans :=
  loans_congr rfl rfl fun i => by rw [step_collapse, isInFlight_stopStep]

theorem loans_ripple {s s' : Run p} {now : Timestamp} (ripple : Ripple now s s') :
    s'.loans = s.loans := by
  cases ripple with
  | count => rfl
  | ready d _ pending | skip d _ _ pending =>
    refine loans_congr rfl rfl fun i => ?_
    apply step_put_congr fun t => t.status.isInFlight
    rw [pending]
    rfl

variable {s : Run p}

def underWay (s : Run p) : Int :=
  ∑ i, if (s.step i).status.isInFlight then (p.node i).estimatedCost.value else 0

abbrev Reserved (s : Run p) : Prop := s.reserved.StandsFor s.record.budget s.underWay

theorem Reserved.congr {s' : Run p} (reserved : s.Reserved) (same : s'.loans = s.loans) :
    s'.Reserved := by
  simp only [loans, Prod.mk.injEq, funext_iff] at same
  obtain ⟨budget, amount, steps⟩ := same
  unfold Reserved underWay at *
  simp only [budget, amount, steps]
  exact reserved

theorem act_loans (c : Released p) (i : Fin p.size) (r : RunRecord) (t : Step) (now : Timestamp) :
    (c.act i r t now).run.loans = (c.run.replace i r t).loans := by
  rcases c.act_cases i r t now with ⟨-, ripples⟩ | ⟨-, why, same⟩
  · exact ripples.preserve (P := fun s => s.loans = (c.run.replace i r t).loans) rfl
      fun _ _ same ripple => (loans_ripple ripple).trans same
  · rw [same, loans_collapse]

theorem reserved_act (c : Released p) (i : Fin p.size) (r : RunRecord) (t : Step) (now : Timestamp) :
    (c.act i r t now).run.reserved = c.run.reservedWith i t :=
  congrArg (·.2.1) (act_loans c i r t now)

theorem reserved_refresh (s : Run p) (now : Timestamp) : (s.refresh now).reserved = s.reserved :=
  congrArg (·.2.1) (loans_refresh s now)

section Estimates

variable (estimates : ∀ i, 0 ≤ (p.node i).estimatedCost.value)

include estimates

theorem estimate_le_underWay {i : Fin p.size} (flying : (s.step i).status.isInFlight) :
    (p.node i).estimatedCost.value ≤ s.underWay := by
  have part := Finset.single_le_sum
    (f := fun j => if (s.step j).status.isInFlight then (p.node j).estimatedCost.value else 0)
    (fun j _ => by
      split
      · exact estimates j
      · exact Int.le_refl 0)
    (Finset.mem_univ i)
  simp only [flying, if_true] at part
  exact part

theorem Reserved.replace (reserved : s.Reserved) (sound : s.Sound) (cost : 0 ≤ s.record.cost.value)
    {i : Fin p.size} {e : Event} {r : RunRecord} {t : Step}
    (change : Change (p.node i) s.record (s.step i) e r t)
    (fits : (s.step i).lease = none → t.lease.isSome →
      s.record.overBudget? s.reserved (p.node i) = none) : (s.replace i r t).Reserved := by
  have before := (sound i).leased
  have after := (change.sound (sound i)).leased
  have total : (s.replace i r t).underWay = s.underWay -
      (if (s.step i).status.isInFlight then (p.node i).estimatedCost.value else 0) +
      (if t.status.isInFlight then (p.node i).estimatedCost.value else 0) :=
    sum_replace (fun j u => if u.status.isInFlight then (p.node j).estimatedCost.value else 0) s i r t
  unfold Reserved
  rw [total, replace_record, change.budget_eq, ← before, ← after]
  unfold Run.replace reservedWith
  cases held : (s.step i).lease with
  | none =>
    cases given : t.lease with
    | none => simpa using reserved
    | some l =>
      have room := fits held (by rw [given]; rfl)
      simpa using Cents.StandsFor.add reserved cost (estimates i) room
  | some l =>
    have part : (p.node i).estimatedCost.value ≤ s.underWay :=
      estimate_le_underWay estimates (by rw [← before, held]; rfl)
    cases given : t.lease with
    | none => simpa using Cents.StandsFor.sub reserved (estimates i) part
    | some l' => simpa using reserved

theorem Call.reserved {e : Event} {result : Outcome × Run p} (call : s.Call e result)
    (reserved : s.Reserved) (sound : s.Sound) (cost : 0 ≤ s.record.cost.value) :
    result.2.Reserved := by
  cases call with
  | ignored => exact reserved
  | @heeded i r t o found change tells fits =>
    have leased : (s.step i).lease = none → t.lease.isSome →
        s.record.overBudget? s.reserved (p.node i) = none := by
      intro free taken
      cases tells with
      | leased a => exact fits rfl
      | rejected _ _ failed =>
        cases change with
        | lease => cases failed
        | reject =>
          rw [free] at taken
          cases taken
      | _ =>
        obtain ⟨l, given⟩ := Option.isSome_iff_exists.mp taken
        obtain ⟨l', held, -⟩ := change.lease_id rfl given
        rw [free] at held
        cases held
    have next := reserved.replace estimates sound cost change leased
    refine next.congr ?_
    rw [loans_refresh, act_loans]

theorem sweeping_reserved {now : Timestamp} {settings : Scheduling} {c c' : Released p}
    (acts : Acts (.sweep now settings) c c') (reserved : c.run.Reserved) (sound : c.run.Sound)
    (cost : 0 ≤ c.run.record.cost.value) : c'.run.Reserved := by
  induction acts with
  | refl => exact reserved
  | @tail c₁ c₂ acts act ih =>
    have sound₁ : c₁.run.Sound := Sound.acts acts sound
    have cost₁ : 0 ≤ c₁.run.record.cost.value := by
      rw [(purse_eq_iff.mp (sweeping_purse acts)).2.1]
      exact cost
    obtain ⟨i, r, t, change, rfl⟩ := act
    have next := ih.replace estimates sound₁ cost₁ change fun free taken => by
      obtain ⟨l, given⟩ := Option.isSome_iff_exists.mp taken
      obtain ⟨l', held, -⟩ := change.lease_id rfl given
      rw [free] at held
      cases held
    exact next.congr (act_loans c₁ i r t now)

theorem handle_reserved (reserved : s.Reserved) (sound : s.Sound) (settled : s.nextStatus? = none)
    (cost : 0 ≤ s.record.cost.value) (e : Event) : (s.handle e).2.Reserved := by
  have handled := handled sound settled e
  generalize s.handle e = result at handled
  cases handled with
  | called call => exact call.reserved estimates reserved sound cost
  | @swept now settings c found acts =>
    exact (sweeping_reserved estimates acts reserved sound cost).congr (loans_refresh c.run now)
  | @canceled now => exact (reserved.congr (loans_halted s now)).congr (loans_refresh _ now)
  | declined => exact reserved

theorem Valid.after_reserved (ordered : p.Ordered) {canceled : Bool} (valid : s.Valid canceled)
    (funded : s.Funded) (reserved : s.Reserved) (events : List Event) :
    (s.after events).Funded ∧ (s.after events).Reserved := by
  refine valid.preserve (P := fun s' => s'.Funded ∧ s'.Reserved) ordered ⟨funded, reserved⟩ ?_ events
  intro s' canceled e valid ⟨funded, reserved⟩
  refine ⟨(handle_funded funded valid.sound valid.settled e).1, ?_⟩
  exact handle_reserved estimates reserved valid.sound valid.settled funded.least e

end Estimates

theorem start_reserved (record : RunRecord) (stepId : Nat → Uuid) :
    (start p record stepId).Reserved := by
  have idle (i : Fin p.size) : ((start p record stepId).step i).status.isInFlight = false := by
    simp only [start, step, Fin.getElem_fin, Vector.getElem_ofFn]
    split <;> rfl
  have nothing : (start p record stepId).underWay = 0 := by
    unfold underWay
    simp only [idle, Bool.false_eq_true, if_false, Finset.sum_const_zero]
  unfold Reserved
  rw [nothing]
  exact ⟨Int.le_refl 0, Int.le_refl 0, fun _ _ _ => rfl⟩

theorem grant_answer (sound : s.Sound) {i : Fin p.size} {id : Uuid} (found : s.indexOf? id = some i)
    (active : s.isActive) (ready : (s.step i).status = .ready) (worker : String) (leaseId : Uuid)
    (now : Timestamp) (settings : Scheduling) :
    let answer := (s.handle (.grant id worker leaseId now settings)).1
    ((s.record.overBudget? s.reserved (p.node i)).isSome ∧
        ∃ why ready, answer = .granted (.ok (.rejected why ready))) ∨
      ((s.record.overBudget? s.reserved (p.node i)).isSome = false ∧
        ∃ a, answer = .granted (.ok (.leased a))) := by
  intro answer
  obtain ⟨here, -⟩ := indexOf?_eq_some_iff.mp found
  subst here
  obtain ⟨r, t, -, tells, -, fits, -⟩ := grant_ready sound found active ready worker leaseId now settings
  change answer.Tells t _ at tells
  change answer.assignment?.isSome ↔ _ at fits
  generalize answer = o at tells fits
  cases tells with
  | leased a => exact .inr ⟨by rw [fits.mp rfl]; rfl, a, rfl⟩
  | rejected why ready =>
    refine .inl ⟨?_, why, ready, rfl⟩
    rw [Option.isSome_iff_ne_none]
    intro none
    cases fits.mpr none

/-- After any events a ready step of a run that goes on is refused exactly if its estimate, beside what
the run has cost and the estimates of the steps under way, is beyond a budget short of the end of the
range; otherwise it is leased. With such a budget exactly those estimates are reserved, and never
more than those. -/
theorem reservation_after {w : Workflow} (built : Plan.ofWorkflow w = .ok p) {record : RunRecord}
    (fresh : record.Fresh) (stepId : Nat → Uuid) (events : List Event) :
    let s := (start p record stepId).after events
    let underWay := ∑ i, if (s.step i).status.isInFlight then (p.node i).estimatedCost.value else 0
    let leased := ∑ i, if (s.step i).lease.isSome then (p.node i).estimatedCost.value else 0
    (∀ id i worker leaseId now settings, s.indexOf? id = some i → s.isActive →
        (s.step i).status = .ready →
        let answer := (s.handle (.grant id worker leaseId now settings)).1
        let beyond := ∃ budget, record.budget = some budget ∧ budget.value < 9223372036854775807 ∧
          budget.value < s.record.cost.value + underWay + (p.node i).estimatedCost.value
        ((∃ why ready, answer = .granted (.ok (.rejected why ready))) ↔ beyond) ∧
          (¬ beyond → ∃ a, answer = .granted (.ok (.leased a)))) ∧
      (∀ budget, record.budget = some budget → budget.value < 9223372036854775807 →
        s.reserved.value = leased) ∧
      0 ≤ s.reserved.value ∧ s.reserved.value ≤ leased ∧
      ((∀ i, ¬ (s.step i).status.isInFlight) → s.reserved = 0) := by
  intro s underWay leased
  have ordered := Plan.ordered built
  have start := Valid.start ordered fresh stepId
  have valid := valid_after ordered fresh stepId events
  have estimates := Plan.estimate_nonneg built
  obtain ⟨funded, reserved⟩ := start.after_reserved estimates ordered (start_funded fresh stepId).1
    (start_reserved record stepId) events
  have budget : s.record.budget = record.budget := start.after_budget ordered events
  have same : leased = underWay :=
    Finset.sum_congr rfl fun i _ => by rw [(valid.sound i).leased]
  have reserved : s.reserved.StandsFor record.budget underWay := budget ▸ reserved
  refine ⟨?_, ?_, reserved.least, ?_, fun idle => ?_⟩
  · intro id i worker leaseId now settings found active ready answer beyond
    have refusal : (s.record.overBudget? s.reserved (p.node i)).isSome ↔ beyond := by
      rw [RunRecord.overBudget?_isSome funded.least reserved.least (estimates i), budget]
      refine exists_congr fun b => and_congr_right fun given => and_congr_right fun small => ?_
      rw [reserved.exact b given small]
    rcases grant_answer valid.sound found active ready worker leaseId now settings with
      ⟨refused, why, ready, rejected⟩ | ⟨fits, a, granted⟩
    · exact ⟨iff_of_true ⟨why, ready, rejected⟩ (refusal.mp refused),
        fun within => absurd (refusal.mp refused) within⟩
    · refine ⟨iff_of_false ?_ ?_, fun _ => ⟨a, granted⟩⟩
      · rintro ⟨why, ready, rejected⟩
        rw [show answer = _ from granted] at rejected
        cases rejected
      · rw [← refusal, fits]
        decide
  · intro b given small
    rw [same]
    exact reserved.exact b given small
  · rw [same]
    exact reserved.most
  · have none : underWay = 0 := by
      unfold underWay
      simp only [idle, Bool.false_eq_true, if_false, Finset.sum_const_zero]
    have least := reserved.least
    have most := reserved.most
    apply Cents.ext
    rw [Cents.value_zero]
    omega

theorem reservation_after_lease :
    let record : RunRecord :=
      { RunRecord.queued .nil Workflow.priced.reference .failFast .epoch with budget := some (.clamp 5) }
    let s := (start .priced record .ofNat).after
      [.grant (.ofNat 0) "worker" (.ofNat 2) .epoch default]
    s.reserved.value = 3 ∧ s.isActive ∧ (s.step (1 : Fin 2)).status = .ready ∧
      ∃ why ready, (s.handle (.grant (.ofNat 1) "worker" (.ofNat 3) .epoch default)).1 =
        .granted (.ok (.rejected why ready)) := by
  intro record s
  have fresh := RunRecord.queued_fresh .nil Workflow.priced.reference .failFast .epoch
    (some (.clamp 5)) [] .null
  have reservation := reservation_after Plan.priced_built fresh .ofNat
    [.grant (.ofNat 0) "worker" (.ofNat 2) .epoch default]
  have active : s.isActive := by decide +kernel
  have ready : (s.step (1 : Fin 2)).status = .ready := by decide +kernel
  have found : s.indexOf? (.ofNat 1) = some (1 : Fin 2) := by rfl
  have beyond := (reservation.1 (.ofNat 1) (1 : Fin 2) "worker" (.ofNat 3) .epoch default found active
    ready).1.mpr ⟨.clamp 5, rfl, by decide, by decide +kernel⟩
  have held : ∑ i, (if (s.step i).lease.isSome then (Plan.priced.node i).estimatedCost.value else 0) =
      3 := by
    decide +kernel
  have exact := reservation.2.1 (.clamp 5) rfl (by decide)
  exact ⟨exact.trans held, active, ready, beyond⟩

end Run

end Orchestration
