import Orchestration.Proofs.Run.Valid
import Mathlib.Algebra.BigOperators.Fin
import Mathlib.Algebra.Order.BigOperators.Group.Finset

namespace Orchestration

namespace RunRecord

def ceiling (r : RunRecord) : Int :=
  match r.budget with
  | none => 9223372036854775807
  | some budget => max budget.value 0

theorem ceiling_bounds (r : RunRecord) : 0 ≤ r.ceiling ∧ r.ceiling ≤ 9223372036854775807 := by
  unfold ceiling
  split
  · decide
  · rename_i budget _
    have := budget.upper
    omega

theorem charge_cost {r : RunRecord} {cost : Cents} (positive : 0 ≤ cost.value)
    (least : 0 ≤ r.cost.value) (most : r.cost.value ≤ r.ceiling) :
    (r.charge cost).cost.value = min r.ceiling (r.cost.value + cost.value) := by
  have upper := r.cost.upper
  have upper' := cost.upper
  unfold ceiling at *
  cases budget : r.budget with
  | none =>
    simp only [budget] at most
    simp only [charge, chargeFor, budget, Cents.value_add, Cents.value_max, Cents.value_zero]
    omega
  | some b =>
    have upper'' := b.upper
    simp only [budget] at most
    simp only [charge, chargeFor, budget, Cents.value_add, Cents.value_max, Cents.value_min,
      Cents.value_sub, Cents.value_zero]
    omega

theorem begin_cost (r : RunRecord) (now : Timestamp) : (r.begin now).cost = r.cost := by
  unfold begin
  split <;> rfl

theorem begin_budget (r : RunRecord) (now : Timestamp) : (r.begin now).budget = r.budget :=
  (congrArg budget (r.begin_submitted now) :)

theorem paid_budget (r : RunRecord) (cost : Cents) : (r.paid cost).budget = r.budget :=
  (congrArg budget (r.paid_submitted cost) :)

theorem paid_of_terminal {r : RunRecord} (ended : r.status.isTerminal) (cost : Cents) :
    r.paid cost = r := by
  unfold paid
  rw [if_pos ended]

theorem paid_of_not_terminal {r : RunRecord} (goes : ¬ r.status.isTerminal) (cost : Cents) :
    r.paid cost = r.charge cost := by
  unfold paid
  rw [if_neg goes]

end RunRecord

variable {p : Plan}

namespace Run

def purse (s : Run p) : Option Cents × Cents × (Fin p.size → Cents) :=
  (s.record.budget, s.record.cost, fun i => (s.step i).cost)

theorem purse_congr {s s' : Run p} (budget : s'.record.budget = s.record.budget)
    (cost : s'.record.cost = s.record.cost) (steps : ∀ i, (s'.step i).cost = (s.step i).cost) :
    s'.purse = s.purse := by
  unfold purse
  rw [budget, cost, funext steps]

theorem purse_eq_iff {s s' : Run p} : s'.purse = s.purse ↔ s'.record.budget = s.record.budget ∧
    s'.record.cost = s.record.cost ∧ ∀ i, (s'.step i).cost = (s.step i).cost := by
  simp only [purse, Prod.mk.injEq, funext_iff]

theorem cost_stopStep (now : Timestamp) (t : Step) : (stopStep now t).cost = t.cost := by
  unfold stopStep
  split <;> rfl

theorem purse_refresh (s : Run p) (now : Timestamp) : (s.refresh now).purse = s.purse := by
  refine purse_congr ?_ ?_ fun i => by rw [step_refresh]
  · unfold refresh
    split <;> rfl
  · unfold refresh
    split <;> rfl

theorem purse_halted (s : Run p) (now : Timestamp) : (s.halted now).purse = s.purse :=
  purse_congr rfl rfl fun i => by rw [step_halted, cost_stopStep]

theorem purse_collapse (s : Run p) (why : String) (now : Timestamp) :
    (s.collapse why now).purse = s.purse :=
  purse_congr rfl rfl fun i => by rw [step_collapse, cost_stopStep]

theorem purse_ripple {s s' : Run p} {now : Timestamp} (ripple : Ripple now s s') :
    s'.purse = s.purse := by
  refine purse_congr (by rw [ripple.record]) (by rw [ripple.record]) fun i => ?_
  cases ripple with
  | count => rfl
  | ready d | skip d =>
    apply step_put_congr Step.cost
    rfl

theorem purse_replace {s : Run p} {i : Fin p.size} {r : RunRecord} {t : Step}
    (budget : r.budget = s.record.budget) (cost : r.cost = s.record.cost)
    (same : t.cost = (s.step i).cost) : (s.replace i r t).purse = s.purse :=
  purse_congr budget cost (step_replace_congr Step.cost same)

end Run

theorem Change.cost {node : Node} {r r' : RunRecord} {s t : Step} {e : Event}
    (change : Change node r s e r' t) :
    (r'.budget = r.budget ∧ r'.cost = r.cost ∧ t.cost = s.cost) ∨
      ∃ step report now settings, e = .accept step report now settings ∧
        r' = r.paid (max report.cost 0) ∧ t.cost = s.cost + max report.cost 0 := by
  cases change with
  | lease => exact .inl ⟨r.begin_budget _, r.begin_cost _, rfl⟩
  | succeed | fail => exact .inr ⟨_, _, _, _, rfl, rfl, rfl⟩
  | retry => exact .inr ⟨_, _, _, _, rfl, rfl, Step.again_cost _ _ _⟩
  | reclaim => exact .inl ⟨rfl, rfl, Step.again_cost _ _ _⟩
  | _ => exact .inl ⟨rfl, rfl, rfl⟩

namespace Run

variable {s : Run p}

theorem act_purse (c : Released p) (i : Fin p.size) (r : RunRecord) (t : Step) (now : Timestamp) :
    (c.act i r t now).run.purse = (c.run.replace i r t).purse := by
  rcases c.act_cases i r t now with ⟨-, ripples⟩ | ⟨-, why, same⟩
  · exact ripples.preserve (P := fun s => s.purse = (c.run.replace i r t).purse) rfl
      fun _ _ same ripple => (purse_ripple ripple).trans same
  · rw [same, purse_collapse]

theorem sweeping_purse {now : Timestamp} {settings : Scheduling} {c c' : Released p}
    (acts : Acts (.sweep now settings) c c') : c'.run.purse = c.run.purse := by
  induction acts with
  | refl => rfl
  | @tail c c' _ act ih =>
    obtain ⟨i, r, t, change, rfl⟩ := act
    rw [act_purse, ← ih]
    rcases change.cost with ⟨budget, cost, same⟩ | ⟨_, _, _, _, report, -⟩
    · exact purse_replace budget cost same
    · cases report

theorem Call.purse {e : Event} {result : Outcome × Run p} (call : s.Call e result) :
    result.2.purse = s.purse ∨ ∃ i cost, 0 ≤ cost.value ∧
      result.2.purse = (s.replace i (s.record.paid cost) ((s.step i).returned cost)).purse := by
  cases call with
  | ignored => exact .inl rfl
  | @heeded i r t o found change tells =>
    simp only [purse_refresh, act_purse]
    rcases change.cost with ⟨budget, cost, same⟩ | ⟨step, report, now, settings, -, rfl, same⟩
    · exact .inl (purse_replace budget cost same)
    · refine .inr ⟨i, max report.cost 0, ?_, purse_congr rfl rfl fun j => ?_⟩
      · rw [Cents.value_max]
        exact le_max_right _ _
      · rw [step_replace, step_replace]
        split
        · exact same
        · rfl

theorem handle_purse (sound : s.Sound) (settled : s.nextStatus? = none) (e : Event) :
    (s.handle e).2.purse = s.purse ∨ ∃ i cost, 0 ≤ cost.value ∧
      (s.handle e).2.purse =
        (s.replace i (s.record.paid cost) ((s.step i).returned cost)).purse := by
  have handled := handled sound settled e
  generalize s.handle e = result at handled
  cases handled with
  | called call => exact call.purse
  | swept acts =>
    left
    rw [purse_refresh]
    exact sweeping_purse acts
  | canceled => exact .inl (by rw [purse_refresh, purse_halted])
  | declined => exact .inl rfl

theorem handle_record (sound : s.Sound) (settled : s.nextStatus? = none)
    (ended : s.record.status.isTerminal) (e : Event) : (s.handle e).2.record = s.record := by
  have stopped : ¬ s.record.status.isActive := by
    intro active
    cases status : s.record.status <;> simp_all [RunStatus.isTerminal, RunStatus.isActive]
  rcases handle_cases sound settled e with ⟨c, acts, same, -⟩ | ⟨active, -⟩
  · have kept : c.run.record = s.record := by
      refine acts.preserve (P := fun s' => s'.record = s.record) rfl ?_ ?_ ?_
      · intro s' i r t same change _
        rw [same] at change
        cases change with
        | lease _ _ _ _ active => exact absurd active stopped
        | succeed | fail | retry => exact RunRecord.paid_of_terminal ended _
        | _ => rfl
      · intro s' s'' same ripple
        rw [ripple.record, same]
      · intro s' i r t why same change breaks
        have active := change.active_eq.symm.trans breaks.1
        rw [same] at active
        exact absurd active stopped
    rw [same, refresh_eq_self, kept]
    exact nextStatus?_eq_none_iff.mpr (.inl (by rw [kept]; exact ended))
  · exact absurd active stopped

theorem sum_replace (f : Fin p.size → Step → Int) (s : Run p) (i : Fin p.size) (r : RunRecord)
    (t : Step) :
    ∑ j, f j ((s.replace i r t).step j) = ∑ j, f j (s.step j) - f i (s.step i) + f i t := by
  have others : ∑ j ∈ Finset.univ.erase i, f j ((s.replace i r t).step j) =
      ∑ j ∈ Finset.univ.erase i, f j (s.step j) := by
    refine Finset.sum_congr rfl fun j member => ?_
    rw [step_replace, if_neg (Finset.ne_of_mem_erase member)]
  have before := Finset.add_sum_erase Finset.univ (fun j => f j (s.step j)) (Finset.mem_univ i)
  have after := Finset.add_sum_erase Finset.univ (fun j => f j ((s.replace i r t).step j))
    (Finset.mem_univ i)
  simp only [step_replace_self] at after
  omega

def spent (s : Run p) : Int := ∑ i, (s.step i).cost.value

structure Funded (s : Run p) : Prop where
  steps : ∀ i, 0 ≤ (s.step i).cost.value
  least : 0 ≤ s.record.cost.value
  most : s.record.cost.value ≤ s.record.ceiling

def Balanced (s : Run p) : Prop := s.record.cost.value = min s.record.ceiling s.spent

theorem ceiling_congr {r r' : RunRecord} (same : r'.budget = r.budget) : r'.ceiling = r.ceiling := by
  unfold RunRecord.ceiling
  rw [same]

theorem Funded.congr {s' : Run p} (funded : s.Funded) (same : s'.purse = s.purse) : s'.Funded := by
  obtain ⟨budget, cost, steps⟩ := purse_eq_iff.mp same
  refine ⟨fun i => ?_, ?_, ?_⟩
  · rw [steps]
    exact funded.steps i
  · rw [cost]
    exact funded.least
  · rw [cost, ceiling_congr budget]
    exact funded.most

theorem Balanced.congr {s' : Run p} (balanced : s.Balanced) (same : s'.purse = s.purse) :
    s'.Balanced := by
  obtain ⟨budget, cost, steps⟩ := purse_eq_iff.mp same
  unfold Balanced spent
  simp only [cost, ceiling_congr budget, steps]
  exact balanced

section Paying

variable {cost : Cents} (funded : s.Funded) (positive : 0 ≤ cost.value) (i : Fin p.size)

include funded positive

theorem Funded.cost_le (goes : ¬ s.record.status.isTerminal) :
    (s.record.paid cost).cost.value = min s.record.ceiling (s.record.cost.value + cost.value) := by
  rw [RunRecord.paid_of_not_terminal goes]
  exact RunRecord.charge_cost positive funded.least funded.most

theorem Funded.pay : (s.replace i (s.record.paid cost) ((s.step i).returned cost)).Funded := by
  have ceiling := ceiling_congr (s.record.paid_budget cost)
  have bounds := s.record.ceiling_bounds
  have least := funded.least
  have most := funded.most
  refine ⟨fun j => ?_, ?_, ?_⟩
  · have old := funded.steps i
    have upper := (s.step i).cost.upper
    rw [step_replace]
    split
    · simp only [Step.returned, Cents.value_add]
      omega
    · exact funded.steps j
  · rw [replace_record]
    by_cases ended : s.record.status.isTerminal
    · rw [RunRecord.paid_of_terminal ended]
      exact least
    · rw [funded.cost_le positive ended]
      omega
  · rw [replace_record, ceiling]
    by_cases ended : s.record.status.isTerminal
    · rw [RunRecord.paid_of_terminal ended]
      exact most
    · rw [funded.cost_le positive ended]
      omega

/-- Neither the step's cost nor the run's can lose what stops at the end of the range: the run is
at its ceiling by then. -/
theorem Balanced.pay (balanced : s.Balanced) (goes : ¬ s.record.status.isTerminal) :
    (s.replace i (s.record.paid cost) ((s.step i).returned cost)).Balanced := by
  have ceiling := ceiling_congr (s.record.paid_budget cost)
  have bounds := s.record.ceiling_bounds
  -- A step has cost no more than all together, so that its own sum stops no sooner than the run's.
  have part : (s.step i).cost.value ≤ s.spent :=
    Finset.single_le_sum (f := fun j => (s.step j).cost.value) (fun j _ => funded.steps j)
      (Finset.mem_univ i)
  have total := sum_replace (fun _ t => t.cost.value) s i (s.record.paid cost)
    ((s.step i).returned cost)
  have old := funded.steps i
  unfold Balanced spent at *
  rw [total, replace_record, ceiling, funded.cost_le positive goes, balanced]
  simp only [Step.returned, Cents.value_add]
  omega

theorem Funded.le_paid : s.record.cost ≤ (s.record.paid cost).cost := by
  have most := funded.most
  rw [Cents.le_iff]
  by_cases ended : s.record.status.isTerminal
  · rw [RunRecord.paid_of_terminal ended]
  · rw [funded.cost_le positive ended]
    omega

end Paying

theorem start_funded {record : RunRecord} (fresh : record.Fresh) (stepId : Nat → Uuid) :
    (start p record stepId).Funded ∧ (start p record stepId).Balanced := by
  have free (i : Fin p.size) : ((start p record stepId).step i).cost.value = 0 := by
    simp only [start, step, Fin.getElem_fin, Vector.getElem_ofFn]
    split <;> rfl
  have cost : (start p record stepId).record.cost.value = 0 := congrArg Cents.value fresh.cost
  have bounds := (start p record stepId).record.ceiling_bounds
  refine ⟨⟨fun i => (free i).ge, cost.ge, ?_⟩, ?_⟩
  · omega
  · unfold Balanced spent
    simp only [free, Finset.sum_const_zero]
    omega

theorem handle_funded (funded : s.Funded) (sound : s.Sound) (settled : s.nextStatus? = none)
    (e : Event) :
    (s.handle e).2.Funded ∧ s.record.cost ≤ (s.handle e).2.record.cost ∧
      (¬ s.record.status.isTerminal → s.Balanced → (s.handle e).2.Balanced) := by
  rcases handle_purse sound settled e with same | ⟨i, cost, positive, same⟩
  · have cost := (purse_eq_iff.mp same).2.1
    refine ⟨funded.congr same, ?_, fun _ balanced => balanced.congr same⟩
    rw [cost]
    exact Int.le_refl _
  · have cost' := (purse_eq_iff.mp same).2.1
    refine ⟨(funded.pay positive i).congr same, ?_, fun goes balanced => ?_⟩
    · rw [cost']
      exact funded.le_paid positive
    · exact (balanced.pay funded positive i goes).congr same

section After

variable {canceled : Bool} (ordered : p.Ordered) (valid : s.Valid canceled) (events : List Event)

include ordered valid

theorem Valid.after_record (ended : s.record.status.isTerminal) :
    (s.after events).record = s.record := by
  refine valid.preserve (P := fun s' => s'.record = s.record) ordered rfl ?_ events
  intro s' canceled e valid same
  rw [← same] at ended
  exact (handle_record valid.sound valid.settled ended e).trans same

theorem Valid.after_funded (funded : s.Funded) :
    (s.after events).Funded ∧ s.record.cost ≤ (s.after events).record.cost := by
  refine valid.preserve (P := fun s' => s'.Funded ∧ s.record.cost ≤ s'.record.cost) ordered
    ⟨funded, Int.le_refl _⟩ ?_ events
  intro s' canceled e valid ⟨funded, more⟩
  have next := handle_funded funded valid.sound valid.settled e
  exact ⟨next.1, Int.le_trans more next.2.1⟩

theorem Valid.after_balanced (funded : s.Funded) (balanced : s.Balanced)
    (goes : ¬ (s.after events).record.status.isTerminal) : (s.after events).Balanced := by
  have kept : (s.after events).Funded ∧
      (¬ (s.after events).record.status.isTerminal → (s.after events).Balanced) := by
    refine valid.preserve
      (P := fun s' => s'.Funded ∧ (¬ s'.record.status.isTerminal → s'.Balanced)) ordered
      ⟨funded, fun _ => balanced⟩ ?_ events
    intro s' canceled e valid ⟨funded, balanced⟩
    obtain ⟨funded', -, balances⟩ := handle_funded funded valid.sound valid.settled e
    refine ⟨funded', fun goes => ?_⟩
    have went : ¬ s'.record.status.isTerminal := by
      intro ended
      rw [handle_record valid.sound valid.settled ended e] at goes
      exact goes ended
    exact balances went (balanced went)
  exact kept.2 goes

theorem Valid.after_budget : (s.after events).record.budget = s.record.budget :=
  (congrArg RunRecord.budget (valid.after_submitted ordered events) :)

end After

/-- After any events a run that has not ended was charged what its steps cost, up to its ceiling, and so
it is by the event that ends it. From then on its cost stays. So the cost never falls, is never
negative, and keeps within a budget that is not negative. -/
theorem cost_after {w : Workflow} (built : Plan.ofWorkflow w = .ok p) {record : RunRecord}
    (fresh : record.Fresh) (stepId : Nat → Uuid) (events : List Event) :
    let s := (start p record stepId).after events
    (¬ s.record.status.isTerminal →
        s.record.cost.value = min record.ceiling (∑ i, (s.step i).cost.value) ∧
          ∀ e, (s.handle e).2.record.cost.value =
            min record.ceiling (∑ i, ((s.handle e).2.step i).cost.value)) ∧
      (s.record.status.isTerminal → ∀ later, (s.after later).record.cost = s.record.cost) ∧
      (∀ later, s.record.cost ≤ (s.after later).record.cost) ∧
      0 ≤ s.record.cost.value ∧
      ∀ budget, record.budget = some budget → 0 ≤ budget.value → s.record.cost ≤ budget := by
  intro s
  have ordered := Plan.ordered built
  have start := Valid.start ordered fresh stepId
  have valid := valid_after ordered fresh stepId events
  obtain ⟨funded, balanced⟩ := start_funded (p := p) fresh stepId
  have ceiling (events : List Event) :
      ((Run.start p record stepId).after events).record.ceiling = record.ceiling :=
    ceiling_congr (start.after_budget ordered events)
  have now : s.Funded := (start.after_funded ordered events funded).1
  refine ⟨fun goes => ?_, fun ended later => ?_, fun later => ?_, now.least, ?_⟩
  · have here := start.after_balanced ordered events funded balanced goes
    refine ⟨(ceiling events) ▸ here, fun e => ?_⟩
    have next := (handle_funded now valid.sound valid.settled e).2.2 goes here
    have last := ceiling (events ++ [e])
    rw [after_append] at last
    exact last ▸ next
  · rw [valid.after_record ordered later ended]
  · exact (valid.after_funded ordered later now).2
  · intro budget given positive
    have most := now.most
    have here : s.record.ceiling = max budget.value 0 := by
      rw [ceiling events, RunRecord.ceiling, given]
    rw [Cents.le_iff]
    omega

theorem cost_after_overrun :
    let record : RunRecord :=
      { RunRecord.queued .nil Workflow.pair.reference .failFast .epoch with budget := some (.clamp 500) }
    let s := (start .pair record .ofNat).after
      [.grant (.ofNat 0) "worker" (.ofNat 2) .epoch default,
        .accept (.ofNat 0) (.failed (.ofNat 2) "no" (.clamp 700)) .epoch default]
    ¬ s.record.status.isTerminal ∧
      s.record.cost.value = min record.ceiling (∑ i, (s.step i).cost.value) ∧
      s.record.cost.value = 500 := by
  intro record s
  have goes : ¬ s.record.status.isTerminal := by decide +kernel
  have charged : s.record.cost.value = 500 := by decide +kernel
  have fresh := RunRecord.queued_fresh .nil Workflow.pair.reference .failFast .epoch
    (some (.clamp 500)) [] .null
  have balance := cost_after Plan.pair_built fresh .ofNat
    [.grant (.ofNat 0) "worker" (.ofNat 2) .epoch default,
      .accept (.ofNat 0) (.failed (.ofNat 2) "no" (.clamp 700)) .epoch default]
  simp only [s, record] at goes charged ⊢
  exact ⟨goes, (balance.1 goes).1, charged⟩

end Run

end Orchestration
