import Orchestration.Fleet.Caller
import Orchestration.Proofs.Fleet.Reaching
import Orchestration.Proofs.Service.History

namespace Orchestration.Fleet

open Scene (Reaches)

variable {site : Site}

theorem lookUp_goes (f : Fleet) (site : Site) (n : Nat) : f.Goes site (f.lookUp site n) := by
  unfold lookUp
  split
  · exact .of_eq rfl rfl rfl
  · exact (f.pass_goes site).trans (.of_eq rfl rfl rfl)

theorem lookUp_now (f : Fleet) (site : Site) (n : Nat) : (f.lookUp site n).now = f.now := by
  unfold lookUp
  split
  · rfl
  · exact f.pass_now site

/-- What the caller asks for is answered by a service to which the shifts have led at that time. -/
theorem attend_cases {α : Type} (f : Fleet) (site : Site) (n : Nat) (act : Service → α × Service) :
    ∃ f', f.Goes site f' ∧ f'.now = f.now ∧
      f.attend site n act = ((act f'.service).1, { f' with service := (act f'.service).2 }) :=
  ⟨f.lookUp site n, f.lookUp_goes site n, f.lookUp_now site n, rfl⟩

theorem view_goes (f : Fleet) (site : Site) (run : Uuid) : f.Goes site (f.view site run).2 := by
  obtain ⟨f', goes, -, attended⟩ := f.attend_cases site (f.runCost run) fun s => (s.view run, s)
  unfold view
  rw [attended]
  exact goes

theorem foldl_goes {α β : Type} {step : α × Fleet → β → α × Fleet}
    (each : ∀ (a : α) (f : Fleet) (b : β), f.Goes site (step (a, f) b).2) (bs : List β) (a : α) (f : Fleet) :
    f.Goes site (bs.foldl step (a, f)).2 := by
  induction bs generalizing a f with
  | nil => exact .refl site f
  | cons b bs ih => exact (each a f b).trans (ih _ _)

theorem runs_goes (f : Fleet) (site : Site) (filter : RunFilter) :
    f.Goes site (f.runs site filter).2 := by
  refine (f.lookUp_goes site 1).trans (foldl_goes (fun records f id => ?_) _ _ _)
  have viewed := f.view_goes site id
  dsimp only
  split
  all_goals
    rename_i answer
    rw [answer] at viewed
    exact viewed

theorem heartbeat_goes (f : Fleet) (site : Site) (worker : String) (step : Uuid) :
    f.Goes site (f.heartbeat site worker step).2 := by
  obtain ⟨f', goes, now, attended⟩ := f.attend_cases site (f.stepCost step) fun s =>
    s.heartbeat worker step (site.clock f.now)
  unfold heartbeat
  rw [attended, ← now]
  exact goes.trans (.of_leads (heartbeat_leads f' site worker step))

theorem complete_goes (f : Fleet) (site : Site) (step : Uuid) (report : Report) :
    f.Goes site (f.complete site step report).2 := by
  obtain ⟨f', goes, now, attended⟩ := f.attend_cases site (f.stepCost step) fun s =>
    s.complete step report (site.clock f.now)
  unfold complete
  rw [attended, ← now]
  exact goes.trans (.of_leads (complete_leads f' site step report))

theorem take_goes (f : Fleet) (site : Site) (worker : String) {ticket : Ticket} {queue : Queue}
    (first : f.service.broker.queue.pop? = some (ticket, queue)) :
    let f' := (f.withBroker { f.service.broker with queue }).lookUp site 2
    f.Goes site (f'.withBroker
      (f'.service.broker.offer ticket worker (site.leaseId f'.leases) (site.clock f'.now)).broker) := by
  intro f' hand
  -- Between taking the ticket and asking for its step the caller counts it among what it holds.
  have moved (held : Multiset Ticket) : held + ({ticket} + hand) = ticket ::ₘ (held + hand) := by
    rw [add_left_comm, Multiset.singleton_add]
  have taken : Scene.Act site (f.scene (f.held + hand))
      ((f.withBroker { f.service.broker with queue }).scene (f.held + ({ticket} + hand))) := by
    rw [moved]
    exact .take (s := f.scene (f.held + hand)) first
  have looked := lookUp_goes (f.withBroker { f.service.broker with queue }) site 2 ({ticket} + hand)
  have holds : (f'.scene (f'.held + ({ticket} + hand))).held = ticket ::ₘ (f'.held + hand) :=
    moved f'.held
  exact .tail (.head taken looked) (.offer holds worker (site.leaseId f'.leases))

theorem pollWithin_goes (site : Site) (worker : String) (fuel : Nat) (f : Fleet) :
    f.Goes site (pollWithin site worker fuel f).2 := by
  induction fuel generalizing f with
  | zero => exact .refl site f
  | succ fuel ih =>
    unfold pollWithin
    split
    · exact .refl site f
    · rename_i ticket queue first
      have offered := f.take_goes site worker first
      dsimp only at offered ⊢
      split
      all_goals
        rename_i answer
        rw [answer] at offered
      · exact offered
      · exact offered.trans (ih _)

theorem poll_goes (f : Fleet) (site : Site) (worker : String) :
    f.Goes site (f.poll site worker).2 := by
  by_cases alone : f.waiting.isEmpty
  · have polled : f.Goes site
        { f with service := (f.service.poll worker (site.leaseId f.leases) (site.clock f.now)).2 } :=
      fun hand => Scene.poll_reaches site (f.scene (f.held + hand)) worker (site.leaseId f.leases)
    simp only [poll, alone, if_true]
    exact (polled.trans (lookUp_goes _ site _)).trans (.of_eq rfl rfl rfl)
  · simp only [poll, alone]
    exact (pollWithin_goes site worker (f.tickets + 1) f).trans (.of_eq rfl rfl rfl)

theorem sweepRuns_goes (site : Site) (ids : List Uuid) (report : SweepReport) (f : Fleet) :
    f.Goes site (sweepRuns site ids report f).2 := by
  induction ids generalizing report f with
  | nil => exact .refl site f
  | cons id ids ih =>
    have looked : f.Goes site (if (f.lookUp site 2).service.broker.isOverdue id
        (site.clock (f.lookUp site 2).now) then (f.lookUp site 2).lookUp site 2 else f.lookUp site 2) := by
      split
      · exact (f.lookUp_goes site 2).trans (lookUp_goes _ site 2)
      · exact f.lookUp_goes site 2
    unfold sweepRuns
    dsimp only
    generalize (if (f.lookUp site 2).service.broker.isOverdue id
        (site.clock (f.lookUp site 2).now) then (f.lookUp site 2).lookUp site 2 else f.lookUp site 2) = f'
      at looked
    have swept := Goes.of_leads (sweepRun_leads f' site id report)
    split
    all_goals
      rename_i answer
      rw [answer] at swept
    · exact looked.trans (swept.trans (ih _ _))
    · exact looked.trans swept

theorem sweep_goes (f : Fleet) (site : Site) : f.Goes site (f.sweep site).2 := by
  unfold sweep
  split
  · have swept : f.Goes site { f with service := (f.service.sweep (site.clock f.now)).2 } :=
      fun hand => Scene.sweepRuns_reaches site _ _ (f.scene (f.held + hand))
    exact swept.trans (lookUp_goes _ site _)
  · exact (f.lookUp_goes site 1).trans (sweepRuns_goes site _ _ _)

theorem advance_held (f : Fleet) (site : Site) (worker : String) {stage : Stage} (free : stage.held = 0) :
    (f.advance site worker stage).1.held = 0 := by
  cases stage with
  | asking ticket => cases Multiset.singleton_ne_zero ticket free
  | starting | working =>
    unfold advance
    dsimp only
    split <;> rfl
  | renewing =>
    unfold advance
    dsimp only
    split <;> rfl
  | renewed | reporting | ended => rfl

theorem finishRound_goes (site : Site) (worker : String) (fuel : Nat) (stage : Stage) (f : Fleet)
    (free : stage.held = 0) : f.Goes site (finishRound site worker fuel stage f).2 := by
  induction fuel generalizing stage f with
  | zero => cases stage <;> exact .refl site f
  | succ fuel ih =>
    have acted (f : Fleet) : f.Goes site (f.advance site worker stage).2 := by
      have leads := advance_leads f site worker stage
      rw [free, f.advance_held site worker free] at leads
      exact .of_leads leads
    unfold finishRound
    split
    case h_1 => exact .refl site _
    case h_2 none _ => cases none
    case h_3 same _ =>
      cases same
      refine .trans ?_ ((acted _).trans (ih _ _ (advance_held _ site worker free)))
      split
      · exact wait_goes _ site _
      · exact lookUp_goes _ site _

theorem round_goes (f : Fleet) (site : Site) (worker : String) :
    f.Goes site (f.round site worker).2 := by
  have polled := f.poll_goes site worker
  unfold round
  split
  all_goals
    rename_i answer
    rw [answer] at polled
  · exact polled
  · exact polled
  · rename_i a f'
    let job := Job.ofAssignment site.tools a
    have begun : f.Goes site { f' with jobs := f'.jobs ++ [job] } := polled.trans (.of_eq rfl rfl rfl)
    exact begun.trans (finishRound_goes site worker _ (.starting job) _ rfl)

theorem rounds_goes (site : Site) (worker : String) (fuel : Nat) (f : Fleet) :
    f.Goes site (rounds site worker fuel f).2.2 := by
  induction fuel generalizing f with
  | zero => exact .refl site f
  | succ fuel ih =>
    have first := f.round_goes site worker
    unfold rounds
    split
    all_goals
      rename_i answer
      rw [answer] at first
    · exact first
    · exact first
    · exact first.trans (ih _)

theorem runOnce_reaches (site : Site) (s : Scene) (worker : String) (lease : Uuid) :
    Reaches site s
      ⟨(Worker.runOnce s.service site.tools worker lease (s.now site)).2, s.held, s.time⟩ := by
  have polled : Reaches site s ⟨(s.service.poll worker lease (s.now site)).2, s.held, s.time⟩ :=
    s.poll_reaches site worker lease
  unfold Worker.runOnce
  split
  all_goals
    rename_i answer
    rw [answer] at polled
  · exact polled
  · exact polled
  · rename_i a service
    let job := Job.ofAssignment site.tools a
    have renewed : Reaches site s
        ⟨(service.heartbeat worker job.step (s.now site)).2, s.held, s.time⟩ :=
      polled.tail (.heartbeat ⟨service, s.held, s.time⟩ worker job.step)
    dsimp only
    split
    all_goals
      rename_i answer
      rw [answer] at renewed
    · exact renewed
    · rename_i lease service
      exact renewed.tail (.complete ⟨service, s.held, s.time⟩ job.step job.report)

theorem drain_reaches (site : Site) (worker : String) (leaseId : Nat → Uuid) (fuel : Nat) (s : Scene) :
    Reaches site s
      ⟨(Worker.drain site.tools worker leaseId (s.now site) fuel s.service).2.2, s.held, s.time⟩ := by
  induction fuel generalizing leaseId s with
  | zero => exact .refl
  | succ fuel ih =>
    have first := runOnce_reaches site s worker (leaseId 0)
    unfold Worker.drain
    split
    all_goals
      rename_i answer
      rw [answer] at first
    · exact first
    · exact first
    · rename_i job service
      exact first.trans (ih (fun n => leaseId (n + 1)) ⟨service, s.held, s.time⟩)

theorem pass_of_alone {f : Fleet} (alone : f.shifts = []) (site : Site) :
    f.pass site = { f with waiting := [] } := by
  have turns (places : List Nat) (f : Fleet) (alone : f.shifts = []) :
      places.foldl (fun f i => f.turn site i) f = f := by
    induction places with
    | nil => rfl
    | cons i places ih =>
      have same : f.turn site i = f := by
        unfold turn
        rw [alone, List.getElem?_nil]
      rw [List.foldl_cons, same, ih]
  exact turns f.waiting _ alone

theorem lookUp_of_alone {f : Fleet} (alone : f.shifts = []) (site : Site) (n : Nat) :
    (f.lookUp site n).shifts = [] ∧ (f.lookUp site n).now = f.now := by
  refine ⟨?_, f.lookUp_now site n⟩
  unfold lookUp
  split
  · exact alone
  · rw [pass_of_alone alone]
    exact alone

/-- What a caller who is alone does at once, it does act by act. -/
theorem afterJobs_goes {f : Fleet} (alone : f.shifts = []) (site : Site) (worker : String)
    (leaseId : Nat → Uuid) (fuel : Nat) (jobs : List Job) :
    let drained := Worker.drain site.tools worker leaseId (site.clock f.now) fuel f.service
    f.Goes site (f.afterJobs site drained.2.2 jobs) := by
  intro drained hand
  have lone (f' : Fleet) (stays : f'.shifts = [] ∧ f'.now = f.now) :
      (jobs.foldl (fun f job =>
        if job.delayMs = 0 then f.lookUp site 7
        else { f with stamina := Shift.fullStamina - 4 }) f').shifts = [] ∧
      (jobs.foldl (fun f job =>
        if job.delayMs = 0 then f.lookUp site 7
        else { f with stamina := Shift.fullStamina - 4 }) f').now = f.now := by
    induction jobs generalizing f' with
    | nil => exact stays
    | cons job jobs ih =>
      rw [List.foldl_cons]
      apply ih
      split
      · exact ⟨(lookUp_of_alone stays.1 site 7).1, (lookUp_now f' site 7).trans stays.2⟩
      · exact stays
  obtain ⟨shifts, now⟩ := lone _ (lookUp_of_alone alone site
    (2 * (f.service.broker.queue.size - drained.2.2.broker.queue.size - jobs.length)))
  have reached := drain_reaches site worker leaseId fuel (f.scene (f.held + hand))
  unfold afterJobs held scene at *
  dsimp only
  rw [shifts, now, ← alone]
  exact reached

/-- What may happen to a fleet from outside: the caller has shifts begin, asks the service for something,
or lets the shifts have their turns. -/
inductive Move (site : Site) (f : Fleet) : Fleet → Prop
  | withWorker (name : String) : Move site f (f.withWorker name)
  | withSweeper (interval : Nat) : Move site f (f.withSweeper interval)
  | register (name : String) (definition : Definition) (id : Uuid) :
      Move site f (f.register site name definition id).2
  | submit (request : Submission) (runId : Uuid) {stepId : Nat → Uuid}
      (distinct : Function.Injective stepId) : Move site f (f.submit site request runId stepId).2
  | cancel (run : Uuid) : Move site f (f.cancel site run).2
  | goes {f' : Fleet} (goes : f.Goes site f') : Move site f f'

theorem attend_served {α : Type} {f : Fleet} (served : (f.scene f.held).Served) (site : Site) (n : Nat)
    {act : Service → α × Service}
    (keeps : ∀ s : Scene, s.Served → Scene.Served ⟨(act s.service).2, s.held, s.time⟩) :
    let f' := (f.attend site n act).2
    (f'.scene f'.held).Served := by
  obtain ⟨f', goes, -, attended⟩ := f.attend_cases site n act
  rw [attended]
  exact keeps _ (served.reaches goes.reaches)

theorem Move.served {f f' : Fleet} (move : f.Move site f') (served : (f.scene f.held).Served) :
    (f'.scene f'.held).Served := by
  cases move with
  | withWorker name =>
    rw [f.withWorker_held name]
    exact served
  | withSweeper interval =>
    rw [f.withSweeper_held interval]
    exact served
  | register name definition id =>
    refine attend_served served site _ fun s served => ?_
    exact served.congr (s.service.register_broker name definition (site.clock f.now) id) _
  | submit request runId distinct =>
    refine attend_served served site _ fun s served => ?_
    rcases s.service.submit_broker request (site.clock f.now) runId distinct with
      kept | ⟨r, fresh, entered⟩
    · exact served.congr kept _
    · have entering : ∀ r', Deed.enter r = .enter r' → r'.Fresh := by
        rintro _ ⟨⟩
        exact fresh
      exact (served.carry rfl entering).congr entered _
  | cancel run =>
    refine attend_served served site _ fun s served => ?_
    have canceled := s.service.cancel_broker served.sound run (site.clock f.now)
    exact (served.carry rfl (by intro _ same; cases same)).congr canceled _
  | goes goes => exact served.reaches goes.reaches

/-- Whatever a caller does with the fleet of a new service, no ready step is left without a ticket or has
two. -/
theorem moves_ticketed {settings : Scheduling} {service : Service} (opened : Service.new settings = .ok service)
    {f : Fleet} (moves : Relation.ReflTransGen (Move site) (ofService service) f) : f.Ticketed := by
  apply ticketed_of_served
  induction moves with
  | refl =>
    have began : service.broker = (Broker.new settings).after [] := by
      rw [Service.new_eq_ok opened]
      rfl
    rw [ofService_held service]
    exact .of_after settings (fun r member => by cases member) began 0
  | tail _ move ih => exact move.served ih

end Orchestration.Fleet
