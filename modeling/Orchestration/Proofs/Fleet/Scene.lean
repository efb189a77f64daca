import Orchestration.Fleet
import Orchestration.Proofs.Broker.Fifo
import Orchestration.Proofs.Broker.Names
import Mathlib.Algebra.Order.Group.Multiset
import Mathlib.Data.Multiset.Count
import Mathlib.Logic.Relation

namespace Orchestration

/-- A service at a time, with the tickets that were taken from its queue and are not used up. -/
structure Scene where
  service : Service
  held : Multiset Ticket
  time : Nat

/-- The events happen at times of the site's clock, one after the other, from `first` to `last`. -/
def Event.Within (site : Site) (first last : Nat) (events : List Event) : Prop :=
  ∃ times : List Nat, events.map Event.now = times.map site.clock ∧ times.Pairwise (· ≤ ·) ∧
    ∀ time ∈ times, first ≤ time ∧ time ≤ last

namespace Event.Within

variable {site : Site} {first middle last : Nat} {earlier later : List Event}

theorem none (site : Site) (first last : Nat) : Within site first last [] := ⟨[], rfl, .nil, nofun⟩

theorem one {e : Event} {time : Nat} (dated : e.now = site.clock time) (since : first ≤ time)
    (til : time ≤ last) : Within site first last [e] := by
  refine ⟨[time], ?_, List.pairwise_singleton _ _, ?_⟩
  · rw [List.map_singleton, dated, List.map_singleton]
  · intro t member
    cases List.mem_singleton.mp member
    exact ⟨since, til⟩

theorem append (begun : Within site first middle earlier) (ended : Within site middle last later)
    (since : first ≤ middle) (til : middle ≤ last) : Within site first last (earlier ++ later) := by
  obtain ⟨times, dated, ordered, within⟩ := begun
  obtain ⟨times', dated', ordered', within'⟩ := ended
  refine ⟨times ++ times', ?_, List.pairwise_append.mpr ⟨ordered, ordered', ?_⟩, ?_⟩
  · rw [List.map_append, List.map_append, dated, dated']
  · exact fun t member t' member' => (within t member).2.trans (within' t' member').1
  · intro t member
    rcases List.mem_append.mp member with early | late
    · exact ⟨(within t early).1, (within t early).2.trans til⟩
    · exact ⟨since.trans (within' t late).1, (within' t late).2⟩

theorem inOrder {events : List Event} (within : Within site first last events)
    (steady : ∀ {a b}, a ≤ b → site.clock a ≤ site.clock b) : Event.InOrder events := by
  obtain ⟨times, dated, ordered, -⟩ := within
  rw [Event.InOrder, dated, List.pairwise_map]
  exact ordered.imp steady

end Event.Within

namespace Scene

def broker (s : Scene) : Broker := s.service.broker

def tickets (s : Scene) : Multiset Ticket := s.held + s.broker.queue.tickets

def done (s : Scene) (broker : Broker) (held : Multiset Ticket) : Scene :=
  ⟨{ s.service with broker }, held, s.time⟩

def now (s : Scene) (site : Site) : Timestamp := site.clock s.time

/-- What happens to a service by itself: time passes, and the workers and sweepers of the site do one
thing after the other. -/
inductive Act (site : Site) : Scene → Scene → Prop
  | wait {s : Scene} {time : Nat} (later : s.time ≤ time) : Act site s { s with time }
  | take {s : Scene} {ticket : Ticket} {queue : Queue}
      (first : s.broker.queue.pop? = some (ticket, queue)) :
      Act site s (s.done { s.broker with queue } (ticket ::ₘ s.held))
  | offer {s : Scene} {ticket : Ticket} {held : Multiset Ticket} (holds : s.held = ticket ::ₘ held)
      (worker : String) (lease : Uuid) :
      Act site s (s.done (s.broker.offer ticket worker lease (s.now site)).broker held)
  | heartbeat (s : Scene) (worker : String) (step : Uuid) :
      Act site s (s.done (s.broker.heartbeat worker step (s.now site)).2 s.held)
  | complete (s : Scene) (step : Uuid) (report : Report) :
      Act site s (s.done (s.broker.complete step report (s.now site)).2 s.held)
  | sweepRun (s : Scene) (run : Uuid) (report : SweepReport) :
      Act site s (s.done (Broker.sweepRun (s.now site) run report s.broker).2 s.held)

abbrev Reaches (site : Site) : Scene → Scene → Prop := Relation.ReflTransGen (Act site)

end Scene

namespace Broker

variable {b : Broker} {t : Ticket}

/-- What one thing other than an offer does to a broker: at most one event happens to one run. -/
inductive Carries (b : Broker) (now : Timestamp) : Broker → Prop
  | nothing : Carries b now b
  | event (run : Uuid) {e : Event} (dated : e.now = now) (under : e.Under b.settings)
      (kept : e.grants = false) : Carries b now (b.carry (.event run e))

theorem heartbeat_carries (sound : b.ledger.Sound) (worker : String) (step : Uuid) (now : Timestamp) :
    b.Carries now (b.heartbeat worker step now).2 := by
  rw [heartbeat_eq sound, deeds]
  cases b.ledger.resolve? step with
  | none => exact .nothing
  | some run => exact .event run rfl rfl rfl

theorem complete_carries (sound : b.ledger.Sound) (step : Uuid) (report : Report) (now : Timestamp) :
    b.Carries now (b.complete step report now).2 := by
  rw [complete_eq sound, deeds]
  cases b.ledger.resolve? step with
  | none => exact .nothing
  | some run => exact .event run rfl rfl rfl

theorem sweepRun_carries (sound : b.ledger.Sound) (now : Timestamp) (run : Uuid) (report : SweepReport) :
    b.Carries now (sweepRun now run report b).2 := by
  by_cases stored : run ∈ b.ledger.ids
  · obtain ⟨report', swept⟩ := sweepRun_eq sound stored now report
    rw [swept]
    dsimp only
    split
    · exact .event run rfl rfl rfl
    · exact .nothing
  · rw [sound.consistent.mem_ids_iff, Bool.not_eq_true, Option.isSome_eq_false_iff,
      Option.isNone_iff_eq_none] at stored
    simp only [sweepRun, Ledger.read, stored]
    exact .nothing

theorem offer_cases (sound : b.ledger.Sound) (t : Ticket) (worker : String) (lease : Uuid)
    (now : Timestamp) :
    (b.offer t worker lease now).broker = { b with queue := b.queue.pushFront t } ∨
      (b.offer t worker lease now).broker = b.carry (t.offered worker lease now b.settings) := by
  cases found : b.ledger.find? t.run with
  | none =>
    rw [offer_of_missing worker lease now found]
    exact .inl rfl
  | some r =>
    rw [offer_of_found worker lease now sound.distinct found]
    split
    · exact .inr rfl
    · exact .inr rfl
    · exact .inl rfl

end Broker

namespace Scene

variable {site : Site} {s s' s'' : Scene}

/-- From `s` to `s'` time passed and nothing but events happened to the stored runs. -/
structure Onward (site : Site) (s s' : Scene) : Prop where
  later : s.time ≤ s'.time
  catalog : s'.service.catalog = s.service.catalog
  knows : s.broker.Knows s'.broker
  runs : ∀ id r, s.broker.ledger.find? id = some r → ∃ events,
    Event.Within site s.time s'.time events ∧ (∀ e ∈ events, e.Under s.broker.settings) ∧
      s'.broker.ledger.find? id = some { r with run := r.run.after events }

namespace Onward

theorem refl (site : Site) (s : Scene) : s.Onward site s :=
  ⟨Nat.le_refl _, rfl, .refl _, fun _ _ found => ⟨[], .none .., List.forall_mem_nil _, found⟩⟩

theorem trans (first : s.Onward site s') (second : s'.Onward site s'') : s.Onward site s'' := by
  constructor
  case later => exact first.later.trans second.later
  case catalog => exact second.catalog.trans first.catalog
  case knows => exact first.knows.trans second.knows
  case runs =>
    intro id r found
    obtain ⟨earlier, within, under, found⟩ := first.runs id r found
    obtain ⟨later, within', under', found⟩ := second.runs id _ found
    refine ⟨earlier ++ later, within.append within' first.later second.later, ?_, ?_⟩
    · intro e member
      rcases List.mem_append.mp member with early | late
      · exact under e early
      · rw [← first.knows.settings]
        exact under' e late
    · rw [found, Run.after_append]

theorem of_ledger {b : Broker} (ledger : b.ledger = s.broker.ledger)
    (settings : b.settings = s.broker.settings) (held : Multiset Ticket) :
    s.Onward site (s.done b held) := by
  have same : (s.done b held).broker.ledger = s.broker.ledger := ledger
  have knows : s.broker.Knows b := ⟨by rw [ledger], by rw [ledger], by rw [ledger], settings⟩
  refine ⟨Nat.le_refl _, rfl, knows, fun id r found => ?_⟩
  refine ⟨[], .none .., List.forall_mem_nil _, ?_⟩
  rw [same, found]
  rfl

theorem of_event (run : Uuid) {e : Event} (dated : e.now = s.now site)
    (under : e.Under s.broker.settings) (held : Multiset Ticket) :
    s.Onward site (s.done (s.broker.carry (.event run e)) held) := by
  cases found : s.broker.ledger.find? run with
  | none =>
    rw [Broker.carry_of_missing found]
    exact of_ledger rfl rfl held
  | some r =>
    have moved := Broker.carry_of_found found e
    constructor
    case later => exact Nat.le_refl _
    case catalog => rfl
    case knows =>
      refine ⟨Broker.carry_keys .., Broker.carry_ids .., ?_, rfl⟩
      simp only [done, broker, Broker.carry, Ledger.perform] at found ⊢
      rw [found]
      rfl
    case runs =>
      intro id r' found'
      have stored : (s.done (s.broker.carry (.event run e)) held).broker.ledger =
          s.broker.ledger.set run { r with run := (r.run.handle e).2 } := congrArg Broker.ledger moved
      rw [stored, Ledger.find?_set]
      by_cases here : id = run
      · subst here
        cases found.symm.trans found'
        refine ⟨[e], .one dated (Nat.le_refl _) (Nat.le_refl _), ?_, ?_⟩
        · intro e' member
          cases List.mem_singleton.mp member
          exact under
        · rw [if_pos rfl, found]
          rfl
      · rw [if_neg here]
        exact ⟨[], .none .., List.forall_mem_nil _, found'⟩

theorem of_carries {b : Broker} (carries : s.broker.Carries (s.now site) b) (held : Multiset Ticket) :
    s.Onward site (s.done b held) := by
  cases carries with
  | nothing => exact of_ledger rfl rfl held
  | event run dated under => exact of_event run dated under held

end Onward

end Scene

namespace Ledger

structure Ticketed (l : Ledger PlannedRun) (tickets : Multiset Ticket) : Prop where
  stands : ∀ t ∈ tickets, l.isQueueable t
  once : ∀ t, l.isReady t → tickets.count t = 1

namespace Ticketed

variable {l l' : Ledger PlannedRun} {tickets : Multiset Ticket} {named : List Ticket} {t : Ticket}

theorem release (ticketed : l.Ticketed tickets) (releases : l.Releases l' named) :
    l'.Ticketed (tickets + named) := by
  constructor
  case stands =>
    intro t member
    rcases Multiset.mem_add.mp member with old | new
    · exact releases.kept t (ticketed.stands t old)
    · exact (releases.new t new).2
  case once =>
    intro t ready
    rw [Multiset.count_add, Multiset.coe_count]
    by_cases new : t ∈ named
    · have absent : t ∉ tickets := fun old => (releases.new t new).1 (ticketed.stands t old)
      rw [Multiset.count_eq_zero_of_notMem absent, List.count_eq_one_of_mem releases.nodup new]
    · have before := (releases.all t ready).resolve_right new
      rw [ticketed.once t before, List.count_eq_zero_of_not_mem new]

theorem drop (ticketed : l.Ticketed (t ::ₘ tickets)) (held : ¬ l.isReady t) : l.Ticketed tickets := by
  constructor
  case stands => exact fun u member => ticketed.stands u (Multiset.mem_cons_of_mem member)
  case once =>
    intro u ready
    have other : u ≠ t := fun same => held (same ▸ ready)
    rw [← ticketed.once u ready, Multiset.count_cons_of_ne other]

theorem lease (ticketed : l.Ticketed (t ::ₘ tickets)) (ready : l.isReady t)
    (status : ∀ u, l'.status? u = if u = t then some .dispatched else l.status? u) :
    l'.Ticketed tickets := by
  have absent : t ∉ tickets := by
    have once := ticketed.once t ready
    rw [Multiset.count_cons_self] at once
    exact Multiset.count_eq_zero.mp (Nat.succ.inj once)
  constructor
  case stands =>
    intro u member
    have other : u ≠ t := fun same => absent (same ▸ member)
    have stands := ticketed.stands u (Multiset.mem_cons_of_mem member)
    unfold isQueueable at *
    rwa [status, if_neg other]
  case once =>
    intro u ready'
    unfold isReady at ready'
    rw [status] at ready'
    split at ready'
    · cases ready'
    · rename_i other
      rw [← ticketed.once u ready', Multiset.count_cons_of_ne other]

end Ticketed

end Ledger

namespace Scene

/-- The runs are sound, and no ready step waits without a ticket or with two. -/
structure Served (s : Scene) : Prop where
  sound : s.broker.ledger.Sound
  ticketed : s.broker.ledger.Ticketed s.tickets

namespace Served

variable {site : Site} {s s' : Scene} {t : Ticket} {held : Multiset Ticket}

theorem congr (served : s.Served) {service : Service} (same : service.broker = s.broker) (time : Nat) :
    Served ⟨service, s.held, time⟩ := by
  obtain ⟨catalog, broker⟩ := service
  cases same
  exact ⟨served.sound, served.ticketed⟩

theorem carry (served : s.Served) {d : Deed} (kept : d.grants = false)
    (fresh : ∀ r, d = .enter r → r.Fresh) : (s.done (s.broker.carry d) s.held).Served := by
  constructor
  case sound => exact served.sound.perform fun r enters => (fresh r enters).sound
  case ticketed =>
    have releases := Ledger.perform_releases served.sound kept fresh
    have tickets := served.ticketed.release releases
    unfold Scene.tickets at *
    rw [add_assoc, Multiset.coe_add] at tickets
    exact tickets

theorem carries (served : s.Served) {now : Timestamp} {b : Broker} (carries : s.broker.Carries now b) :
    (s.done b s.held).Served := by
  cases carries with
  | nothing => exact served
  | event run dated under kept => exact served.carry kept (by intro _ same; cases same)

theorem offer (served : s.Served) (holds : s.held = t ::ₘ held) (worker : String) (lease : Uuid)
    (now : Timestamp) : (s.done (s.broker.offer t worker lease now).broker held).Served := by
  have ticketed := served.ticketed
  unfold tickets at ticketed
  rw [holds, Multiset.cons_add] at ticketed
  rcases Broker.offer_cases served.sound t worker lease now with back | used
  · rw [back]
    refine ⟨served.sound, ?_⟩
    have same : (s.done { s.broker with queue := s.broker.queue.pushFront t } held).tickets =
        t ::ₘ (held + s.broker.queue.tickets) := Multiset.add_cons t held s.broker.queue.tickets
    rw [same]
    exact ticketed
  · rw [used]
    have tickets : (s.done (s.broker.carry (t.offered worker lease now s.broker.settings)) held).tickets =
        held + s.broker.queue.tickets +
          (s.broker.ledger.perform (t.offered worker lease now s.broker.settings)).1 := by
      rw [add_assoc, Multiset.coe_add]
      rfl
    refine ⟨served.sound.event .., ?_⟩
    rw [tickets]
    show (s.broker.ledger.perform _).2.Ticketed _
    cases Ledger.offer served.sound worker lease now s.broker.settings t with
    | stale waits none =>
      rw [none, Multiset.coe_nil, add_zero]
      exact ticketed.drop waits
    | leased ready none a answer same status =>
      rw [none, Multiset.coe_nil, add_zero]
      exact ticketed.lease ready status
    | rejected ready why names answer releases failed =>
      -- The rejected step has failed by now, so that its ticket may go.
      have released := ticketed.release releases
      rw [Multiset.cons_add] at released
      exact released.drop (by simp [Ledger.isReady, failed])

theorem take (served : s.Served) {queue : Queue} (first : s.broker.queue.pop? = some (t, queue)) :
    (s.done { s.broker with queue } (t ::ₘ s.held)).Served := by
  unfold Queue.pop? at first
  split at first
  · cases first
  · rename_i ticket rest queued
    cases first
    have tickets : (s.done { s.broker with queue := ⟨rest⟩ } (t ::ₘ s.held)).tickets = s.tickets := by
      unfold Scene.tickets
      rw [queued]
      show t ::ₘ s.held + ↑rest = s.held + ↑(t :: rest)
      rw [← Multiset.cons_coe, Multiset.cons_add, Multiset.add_cons]
    exact ⟨served.sound, tickets ▸ served.ticketed⟩

theorem act (served : s.Served) (act : Act site s s') : s'.Served := by
  cases act with
  | wait => exact served.congr rfl _
  | take first => exact served.take first
  | offer holds worker lease => exact served.offer holds worker lease _
  | heartbeat worker step => exact served.carries (Broker.heartbeat_carries served.sound ..)
  | complete step report => exact served.carries (Broker.complete_carries served.sound ..)
  | sweepRun run report => exact served.carries (Broker.sweepRun_carries served.sound ..)

theorem of_after (settings : Scheduling) {requests : List Request}
    (fresh : ∀ r, .enter r ∈ requests → r.Fresh) {service : Service}
    (began : service.broker = (Broker.new settings).after requests) (time : Nat) :
    Served ⟨service, 0, time⟩ := by
  have follows := (Broker.Follows.new settings).after fresh
  rw [← began] at follows
  have tickets : Scene.tickets ⟨service, 0, time⟩ = service.broker.queue.tickets := zero_add _
  constructor
  case sound => exact follows.sound
  case ticketed =>
    rw [tickets]
    constructor
    · exact fun t member => follows.lined.stands t member
    · exact fun t ready => (Multiset.coe_count t _).trans (follows.lined.count ready)

/-- Whatever interleaving the workers get, no ready step loses its ticket or gets another one. -/
theorem reaches (served : s.Served) (reaches : Reaches site s s') : s'.Served := by
  induction reaches with
  | refl => exact served
  | tail _ act ih => exact ih.act act

end Served

variable {site : Site} {s s' : Scene}

theorem Onward.sound (onward : s.Onward site s') (sound : s.broker.ledger.Sound) :
    s'.broker.ledger.Sound := by
  constructor
  case consistent => exact onward.knows.consistent sound.consistent
  case runs =>
    intro id r' found'
    have known : id ∈ s'.broker.ledger.keys := by simp [Ledger.mem_keys_iff, found']
    rw [onward.knows.keys, Ledger.mem_keys_iff] at known
    obtain ⟨r, found⟩ := Option.isSome_iff_exists.mp known
    obtain ⟨events, -, -, moved⟩ := onward.runs id r found
    cases found'.symm.trans moved
    exact (sound.runs id r found).after events

theorem Onward.of_act (sound : s.broker.ledger.Sound) (act : Act site s s') : s.Onward site s' := by
  cases act with
  | wait later =>
    exact ⟨later, rfl, .refl _, fun _ _ found => ⟨[], .none .., List.forall_mem_nil _, found⟩⟩
  | @take ticket queue first => exact of_ledger (b := { s.broker with queue }) rfl rfl _
  | @offer ticket held holds worker lease =>
    rcases Broker.offer_cases sound ticket worker lease (s.now site) with back | used
    · rw [back]
      exact of_ledger (b := { s.broker with queue := s.broker.queue.pushFront ticket }) rfl rfl _
    · rw [used]
      exact of_event ticket.run (e := .grant ticket.step worker lease (s.now site) s.broker.settings)
        rfl rfl _
  | heartbeat worker step => exact of_carries (Broker.heartbeat_carries sound ..) _
  | complete step report => exact of_carries (Broker.complete_carries sound ..) _
  | sweepRun run report => exact of_carries (Broker.sweepRun_carries sound ..) _

/-- To a run that is stored nothing happens but events, dated by the clock one after the other. -/
theorem Reaches.onward (reaches : Reaches site s s') (sound : s.broker.ledger.Sound) :
    s.Onward site s' := by
  induction reaches with
  | refl => exact .refl site s
  | tail _ act ih => exact ih.trans (.of_act (ih.sound sound) act)

theorem pollWithin_reaches (site : Site) {worker : String} {lease : Uuid} {fuel : Nat} {s : Scene}
    {result : Except Refusal (Option Assignment)} {b : Broker}
    (polled : Broker.pollWithin worker lease (s.now site) fuel s.broker = some (result, b)) :
    Reaches site s (s.done b s.held) := by
  induction fuel generalizing s with
  | zero => cases polled
  | succ fuel ih =>
    unfold Broker.pollWithin Broker.turn at polled
    cases first : s.broker.queue.pop? with
    | none =>
      rw [first] at polled
      cases polled
      exact .refl
    | some entry =>
      obtain ⟨ticket, queue⟩ := entry
      have taken : Act site s (s.done { s.broker with queue } (ticket ::ₘ s.held)) := .take first
      have turned : Reaches site s
          (s.done (Broker.offer { s.broker with queue } ticket worker lease (s.now site)).broker s.held) :=
        .tail (.single taken) (.offer rfl worker lease)
      rw [first] at polled
      dsimp only at polled
      split at polled
      all_goals
        rename_i answer
        rw [answer] at turned
      · cases polled
        exact turned
      · exact turned.trans (ih polled)

theorem poll_reaches (site : Site) (s : Scene) (worker : String) (lease : Uuid) :
    Reaches site s (s.done (s.broker.poll worker lease (s.now site)).2 s.held) := by
  unfold Broker.poll
  cases polled : Broker.pollWithin worker lease (s.now site)
      (s.broker.queue.size + s.broker.pendingCount + 1) s.broker with
  | none => exact .refl
  | some answer => exact pollWithin_reaches site polled

theorem sweepRuns_reaches (site : Site) (ids : List Uuid) (report : SweepReport) (s : Scene) :
    Reaches site s (s.done (Broker.sweepRuns (s.now site) ids report s.broker).2 s.held) := by
  induction ids generalizing report s with
  | nil => exact .refl
  | cons id ids ih =>
    have swept : Act site s (s.done (Broker.sweepRun (s.now site) id report s.broker).2 s.held) :=
      .sweepRun s id report
    unfold Broker.sweepRuns
    split
    all_goals
      rename_i answer
      rw [answer] at swept
    · exact .head swept (ih ..)
    · exact .single swept

end Scene

end Orchestration
