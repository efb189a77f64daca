import Orchestration.Proofs.Fleet.Scene
import Mathlib.Algebra.BigOperators.Group.List.Basic

namespace Orchestration

namespace Stage

/-- The ticket that a worker took from the queue, until it has asked for the step. -/
def held : Stage → Multiset Ticket
  | .asking ticket => {ticket}
  | _ => 0

end Stage

def Duty.held : Duty → Multiset Ticket
  | .round _ stage => stage.held
  | _ => 0

theorem Shift.pay?_duty {shift shift' : Shift} (paid : shift.pay? = some shift') :
    shift'.duty = shift.duty := by
  unfold pay? at paid
  dsimp only at paid
  split at paid
  · cases paid
    rfl
  · split at paid
    · cases paid
    · cases paid
      rfl

def heldBy (shifts : List Shift) : Multiset Ticket := (shifts.map (·.duty.held)).sum

theorem heldBy_append (first second : List Shift) :
    heldBy (first ++ second) = heldBy first + heldBy second := by
  unfold heldBy
  rw [List.map_append, List.sum_append]

theorem heldBy_dropLast (shifts : List Shift) :
    ∃ left, heldBy shifts = heldBy shifts.dropLast + left := by
  rcases List.eq_nil_or_concat shifts with rfl | ⟨first, last, rfl⟩
  · exact ⟨0, rfl⟩
  · rw [List.concat_eq_append, List.dropLast_concat, heldBy_append]
    exact ⟨_, rfl⟩

theorem heldBy_set {shifts : List Shift} {i : Nat} {shift : Shift} (here : shifts[i]? = some shift) :
    ∃ others, heldBy shifts = shift.duty.held + others ∧
      ∀ shift', heldBy (shifts.set i shift') = shift'.duty.held + others := by
  induction shifts generalizing i with
  | nil => cases here
  | cons first shifts ih =>
    cases i with
    | zero =>
      cases here
      exact ⟨heldBy shifts, rfl, fun _ => rfl⟩
    | succ i =>
      obtain ⟨others, whole, replaced⟩ := ih here
      refine ⟨first.duty.held + others, ?_, fun shift' => ?_⟩
      · show first.duty.held + heldBy shifts = _
        rw [whole, add_left_comm]
      · show first.duty.held + heldBy (shifts.set i shift') = _
        rw [replaced, add_left_comm]

namespace Fleet

open Scene (Reaches)

variable {f f' f'' : Fleet} {site : Site}

def held (f : Fleet) : Multiset Ticket := heldBy f.shifts

def scene (f : Fleet) (held : Multiset Ticket) : Scene := ⟨f.service, held, f.now⟩

/-- An act of a shift leads from `f` to `f'`: of the tickets it held `before`, and whatever the others
hold, it holds those `after`. -/
structure Leads (site : Site) (before : Multiset Ticket) (f : Fleet) (after : Multiset Ticket)
    (f' : Fleet) : Prop where
  reaches : ∀ others, Reaches site (f.scene (before + others)) (f'.scene (after + others))
  shifts : f'.shifts = f.shifts
  now : f'.now = f.now

namespace Leads

variable {before middle after : Multiset Ticket}

theorem refl (site : Site) (held : Multiset Ticket) (f : Fleet) : Leads site held f held f :=
  ⟨fun _ => .refl, rfl, rfl⟩

theorem trans (first : Leads site before f middle f') (second : Leads site middle f' after f'') :
    Leads site before f after f'' :=
  ⟨fun others => (first.reaches others).trans (second.reaches others),
    second.shifts.trans first.shifts, second.now.trans first.now⟩

end Leads

theorem seek_leads (f : Fleet) (site : Site) : Leads site 0 f f.seek.1.held f.seek.2 := by
  unfold seek
  split
  · exact .refl site 0 f
  · rename_i ticket queue first
    refine ⟨fun others => .single ?_, rfl, rfl⟩
    rw [zero_add]
    exact .take (s := f.scene others) first

theorem offer_leads (f : Fleet) (site : Site) (worker : String) (ticket : Ticket) (lease : Uuid) :
    Leads site {ticket} f 0
      (f.withBroker (f.service.broker.offer ticket worker lease (site.clock f.now)).broker) := by
  refine ⟨fun others => .single ?_, rfl, rfl⟩
  rw [zero_add]
  have holds : (f.scene ({ticket} + others)).held = ticket ::ₘ others := Multiset.singleton_add ..
  exact .offer holds worker lease

theorem heartbeat_leads (f : Fleet) (site : Site) (worker : String) (step : Uuid) :
    Leads site 0 f 0 { f with service := (f.service.heartbeat worker step (site.clock f.now)).2 } :=
  ⟨fun others => .single (.heartbeat (f.scene (0 + others)) worker step), rfl, rfl⟩

theorem complete_leads (f : Fleet) (site : Site) (step : Uuid) (report : Report) :
    Leads site 0 f 0 { f with service := (f.service.complete step report (site.clock f.now)).2 } :=
  ⟨fun others => .single (.complete (f.scene (0 + others)) step report), rfl, rfl⟩

theorem sweepRun_leads (f : Fleet) (site : Site) (run : Uuid) (report : SweepReport) :
    Leads site 0 f 0
      (f.withBroker (Broker.sweepRun (site.clock f.now) run report f.service.broker).2) :=
  ⟨fun others => .single (.sweepRun (f.scene (0 + others)) run report), rfl, rfl⟩

theorem advance_leads (f : Fleet) (site : Site) (worker : String) (stage : Stage) :
    Leads site stage.held f (f.advance site worker stage).1.held (f.advance site worker stage).2 := by
  cases stage with
  | asking ticket =>
    have offered := offer_leads f site worker ticket (site.leaseId f.leases)
    unfold advance
    dsimp only
    split
    all_goals
      rename_i answer
      rw [answer] at offered
    · exact ⟨offered.reaches, offered.shifts, offered.now⟩
    · exact offered
    · exact offered
    · exact offered.trans (seek_leads _ site)
  | starting job =>
    unfold advance
    dsimp only
    split
    · exact .refl site 0 f
    · exact .refl site 0 f
  | renewing job finish =>
    have renewed := heartbeat_leads f site worker job.step
    unfold advance
    dsimp only
    split
    all_goals
      rename_i answer
      rw [answer] at renewed
      exact renewed
  | renewed job finish => exact .refl site 0 f
  | working job heartbeat finish =>
    unfold advance
    dsimp only
    split
    · exact .refl site 0 f
    · exact .refl site 0 f
  | reporting job => exact complete_leads f site job.step job.report
  | ended result => exact .refl site 0 f

theorem proceed_leads (f : Fleet) (site : Site) (patrol : Patrol) :
    Leads site 0 f 0 (f.proceed site patrol).2 := by
  cases patrol with
  | listing | checking | ended => exact .refl site 0 f
  | sweeping run rest =>
    have swept := sweepRun_leads f site run ⟨0, 0, 0, 0⟩
    unfold proceed
    dsimp only
    split
    all_goals
      rename_i answer
      rw [answer] at swept
      exact swept

theorem step_leads (f : Fleet) (site : Site) (duty : Duty) :
    Leads site duty.held f (f.step site duty).1.held (f.step site duty).2 := by
  cases duty with
  | idle worker wake => exact seek_leads f site
  | asleep interval wake => exact .refl site 0 f
  | sweep interval patrol =>
    cases patrol with
    | ended => exact .refl site 0 f
    | listing => exact proceed_leads f site .listing
    | checking run rest => exact proceed_leads f site (.checking run rest)
    | sweeping run rest => exact proceed_leads f site (.sweeping run rest)
  | round worker stage =>
    have advanced := advance_leads f site worker stage
    unfold step
    split
    case h_2 same =>
      cases same
      exact .refl site 0 f
    case h_3 same =>
      cases same
      split
      all_goals
        rename_i answer
        rw [answer] at advanced
        exact advanced
    all_goals cases ‹Duty.round _ _ = _›

theorem act_leads (site : Site) (fuel : Nat) (shift : Shift) (f : Fleet) :
    Leads site shift.duty.held f (act site fuel shift f).1.duty.held (act site fuel shift f).2 := by
  induction fuel generalizing shift f with
  | zero => exact .refl site _ f
  | succ fuel ih =>
    unfold act
    split
    · exact .refl site _ f
    · split
      · exact .refl site _ f
      · rename_i shift' paid
        have stepped := step_leads f site shift'.duty
        rw [Shift.pay?_duty paid] at stepped ⊢
        exact stepped.trans (ih { shift' with duty := (f.step site shift.duty).1 } _)

def Goes (site : Site) (f f' : Fleet) : Prop :=
  ∀ hand, Reaches site (f.scene (f.held + hand)) (f'.scene (f'.held + hand))

namespace Goes

theorem refl (site : Site) (f : Fleet) : f.Goes site f := fun _ => .refl

theorem trans (first : f.Goes site f') (second : f'.Goes site f'') : f.Goes site f'' :=
  fun hand => (first hand).trans (second hand)

theorem of_leads (leads : Leads site 0 f 0 f') : f.Goes site f' := by
  intro hand
  have reaches := leads.reaches (f.held + hand)
  rw [zero_add] at reaches
  unfold held at *
  rw [leads.shifts]
  exact reaches

theorem of_eq (service : f'.service = f.service) (held : f'.held = f.held) (now : f'.now = f.now) :
    f.Goes site f' := by
  intro hand
  have same : f'.scene (f'.held + hand) = f.scene (f.held + hand) := by
    unfold scene
    rw [service, held, now]
  rw [same]

end Goes

theorem turn_goes (f : Fleet) (site : Site) (i : Nat) : f.Goes site (f.turn site i) := by
  unfold turn
  split
  · exact .refl site f
  · rename_i shift here
    obtain ⟨others, whole, replaced⟩ := heldBy_set here
    have acted := act_leads site (4 * shift.stamina + 4) shift { f with turns := f.turns + 1 }
    generalize act site (4 * shift.stamina + 4) shift { f with turns := f.turns + 1 } = answer at acted
    obtain ⟨shift', f'⟩ := answer
    obtain ⟨reaches, shifts, -⟩ := acted
    have rested : heldBy (f.shifts.set i shift'.rest) = heldBy (f.shifts.set i shift') := by
      rw [replaced, replaced]
      rfl
    intro hand
    have reaches := reaches (others + hand)
    rw [← add_assoc, ← add_assoc, ← whole, ← replaced] at reaches
    dsimp only at shifts ⊢
    rw [shifts]
    split
    · exact reaches
    · show Reaches site _ ⟨f'.service, heldBy (f.shifts.set i shift'.rest) + hand, f'.now⟩
      rw [rested]
      exact reaches

theorem turn_now (f : Fleet) (site : Site) (i : Nat) : (f.turn site i).now = f.now := by
  unfold turn
  split
  · rfl
  · rename_i shift here
    have acted := act_leads site (4 * shift.stamina + 4) shift { f with turns := f.turns + 1 }
    dsimp only
    split <;> exact acted.now

theorem pass_now (f : Fleet) (site : Site) : (f.pass site).now = f.now := by
  have turns (places : List Nat) (f : Fleet) :
      (places.foldl (fun f i => f.turn site i) f).now = f.now := by
    induction places generalizing f with
    | nil => rfl
    | cons i places ih => exact (ih _).trans (f.turn_now site i)
  exact turns ..

theorem pass_goes (f : Fleet) (site : Site) : f.Goes site (f.pass site) := by
  have turns (places : List Nat) (f : Fleet) :
      f.Goes site (places.foldl (fun f i => f.turn site i) f) := by
    induction places generalizing f with
    | nil => exact .refl site f
    | cons i places ih => exact (f.turn_goes site i).trans (ih _)
  have begun : f.Goes site { f with waiting := [] } := .of_eq rfl rfl rfl
  exact begun.trans (turns _ _)

theorem ring_held (f : Fleet) : f.ring.held = f.held := by
  have same : f.ring.shifts.map (·.duty.held) = f.shifts.map (·.duty.held) := by
    apply List.ext_getElem
    · simp only [ring, List.length_map, List.length_mapIdx]
    · intro i _ _
      simp only [ring, List.getElem_map, List.getElem_mapIdx]
      split <;> rfl
  exact congrArg List.sum same

theorem reach_goes (f : Fleet) (site : Site) (time : Nat) : f.Goes site (f.reach time) := by
  intro hand
  have later : (f.scene (f.held + hand)).time ≤ max f.now time := Nat.le_max_left ..
  have held : (f.reach time).held = f.held := ring_held { f with now := max f.now time }
  rw [held]
  exact .single (.wait later)

theorem runWithin_goes (site : Site) (limit : Nat) (done : Fleet → Bool) (fuel : Nat) (f : Fleet) :
    f.Goes site (runWithin site limit done fuel f) := by
  induction fuel generalizing f with
  | zero => exact .refl site f
  | succ fuel ih =>
    unfold runWithin
    split
    · exact .refl site f
    · split
      · exact (f.pass_goes site).trans (ih _)
      · split
        · exact .refl site f
        · split
          · exact (f.reach_goes site _).trans (ih _)
          · exact .refl site f

theorem run_goes (f : Fleet) (site : Site) (limit : Nat) (done : Fleet → Bool) :
    f.Goes site (f.run site limit done) := runWithin_goes _ _ _ _ f

theorem wait_goes (f : Fleet) (site : Site) (duration : Nat) : f.Goes site (f.wait site duration) := by
  unfold wait
  split
  · exact .refl site f
  · have waited := (f.run_goes site (f.now + duration) fun _ => false).trans
      (reach_goes _ site (f.now + duration))
    exact waited.trans (.of_eq rfl rfl rfl)

theorem close_cases (f : Fleet) (site : Site) :
    f.close site = f ∨ ∃ f', f.Goes site f' ∧ f.close site =
      { f' with
        shifts := f'.shifts.dropLast
        waiting := f'.waiting.filter (· + 1 < f'.shifts.length)
        stamina := Shift.fullStamina - 1 } := by
  unfold close
  split
  · exact .inl rfl
  · rename_i last final
    let begun : Fleet := { f with shifts := f.shifts.dropLast ++ [{ last with leaving := true }] }
    have whole : f.shifts.dropLast ++ [last] = f.shifts := List.dropLast_append_getLast? last final
    have split := heldBy_append f.shifts.dropLast [last]
    rw [whole] at split
    have held : begun.held = f.held := (heldBy_append ..).trans split.symm
    have started : f.Goes site begun := .of_eq rfl held rfl
    have passed := (started.trans (begun.pass_goes site)).trans (run_goes _ site (f.now + 1) lastIsOver)
    refine .inr ⟨_, ?_, rfl⟩
    dsimp only
    split
    · exact passed
    · exact passed.trans (run_goes _ _ _ _)

theorem close_goes (f : Fleet) (site : Site) : ∃ left, ∀ hand,
    Reaches site (f.scene (f.held + hand)) ((f.close site).scene ((f.close site).held + (left + hand))) := by
  rcases f.close_cases site with same | ⟨f', goes, closed⟩
  · rw [same]
    exact ⟨0, fun hand => by rw [zero_add]⟩
  · obtain ⟨left, split⟩ := heldBy_dropLast f'.shifts
    refine ⟨left, fun hand => ?_⟩
    rw [closed, ← add_assoc]
    have reaches := goes hand
    rw [Fleet.held.eq_def f', split] at reaches
    exact reaches

theorem ofService_held (service : Service) : (ofService service).held = 0 := rfl

theorem withWorker_held (f : Fleet) (name : String) : (f.withWorker name).held = f.held := by
  unfold held withWorker add
  rw [heldBy_append]
  exact add_zero _

theorem withSweeper_held (f : Fleet) (interval : Nat) : (f.withSweeper interval).held = f.held := by
  unfold held withSweeper add
  rw [heldBy_append]
  exact add_zero _

/-- Each step that is ready has one ticket, in the queue or with one worker, and the other tickets are of
steps that have ended. -/
structure Ticketed (f : Fleet) : Prop where
  once : ∀ id r, (id, r) ∈ f.service.broker.ledger.entries → ∀ s ∈ r.steps, s.status = .ready →
    (f.held + f.service.broker.queue.tickets).count ⟨id, s.id⟩ = 1
  others : ∀ t ∈ f.held + f.service.broker.queue.tickets,
    ∃ r, (t.run, r) ∈ f.service.broker.ledger.entries ∧
      ∃ s ∈ r.steps, s.id = t.step ∧ (s.status = .ready ∨ s.status.isTerminal)

theorem ticketed_of_served (served : (f.scene f.held).Served) : f.Ticketed := by
  constructor
  case once =>
    intro id r stored s member ready
    exact served.ticketed.once _ (Ledger.isReady_of_stored served.sound stored member ready)
  case others =>
    exact fun t member => Ledger.exists_of_isQueueable served.sound (served.ticketed.stands t member)

theorem Goes.reaches (goes : f.Goes site f') : Reaches site (f.scene f.held) (f'.scene f'.held) := by
  have reaches := goes 0
  rwa [add_zero, add_zero] at reaches

/-- However the shifts of a fleet take their turns, the stored runs go on by events alone, and no ready
step loses its ticket or has two. -/
theorem run_tends (settings : Scheduling) {requests : List Request}
    (fresh : ∀ r, .enter r ∈ requests → r.Fresh) {f : Fleet}
    (began : f.service.broker = (Broker.new settings).after requests) (free : f.held = 0) (site : Site)
    (limit : Nat) (done : Fleet → Bool) :
    let f' := f.run site limit done
    (f.scene f.held).Onward site (f'.scene f'.held) ∧ f'.Ticketed := by
  have served := Scene.Served.of_after settings fresh began f.now
  rw [← free] at served
  have reaches := (f.run_goes site limit done).reaches
  exact ⟨reaches.onward served.sound, ticketed_of_served (served.reaches reaches)⟩

end Fleet

end Orchestration
