import Orchestration.Proofs.Broker.Queue

namespace Orchestration

def Ledger.Names (l : Ledger PlannedRun) (deeds : List Deed) : Prop :=
  ∀ earlier d later, deeds = earlier ++ d :: later → ∀ t, ¬ (l.after earlier).isReady t →
    ((l.after earlier).perform d).2.isReady t → ((l.after earlier).perform d).1.count t = 1

namespace Broker

variable {b : Broker} {past : List Deed}

structure InOrder (b : Broker) (past : List Deed) : Prop where
  once : ∀ id r, (id, r) ∈ b.ledger.entries → ∀ s ∈ r.steps, s.status = .ready →
    b.queue.tickets.count ⟨id, s.id⟩ = 1
  others : ∀ t ∈ b.queue.tickets, ∃ r, (t.run, r) ∈ b.ledger.entries ∧
    ∃ s ∈ r.steps, s.id = t.step ∧ (s.status = .ready ∨ s.status.isTerminal)
  order : b.queue.tickets.filter b.ledger.isReady = Ledger.empty.line past

/-- What a poll does after `past`. Of the tickets that it considers, each that is of a ready step is of
the one that has been ready longest; the last of them is handed out, or all are used up. -/
structure PollsInOrder (b : Broker) (past : List Deed) (worker : String) (lease : Uuid)
    (now : Timestamp) : Prop where
  answers : ∃ answer, (b.poll worker lease now).1 = .ok answer
  fair : ∀ earlier t later, b.considered worker lease now = earlier ++ t :: later →
    let before := past ++ b.offers worker lease now earlier
    (Ledger.empty.after before).isReady t → (Ledger.empty.line before).head? = some t
  leased : ∀ a, (b.poll worker lease now).1 = .ok (some a) →
    ∃ earlier t, b.considered worker lease now = earlier ++ [t] ∧ t.step = a.step.id ∧
      (Ledger.empty.after (past ++ b.offers worker lease now earlier)).isReady t
  idle : (b.poll worker lease now).1 = .ok none →
    (b.poll worker lease now).2.queue.tickets = [] ∧
      ∀ id r, (id, r) ∈ (b.poll worker lease now).2.ledger.entries → ∀ s ∈ r.steps, s.status ≠ .ready

structure Follows (b : Broker) (past : List Deed) : Prop where
  sound : b.ledger.Sound
  replay : b.ledger = Ledger.empty.after past
  lined : Lined b.ledger b.queue.tickets (Ledger.empty.wakes past)

namespace Follows

theorem new (settings : Scheduling) : (new settings).Follows [] := ⟨.empty, rfl, .empty⟩

theorem carry (follows : b.Follows past) {d : Deed} (kept : d.grants = false)
    (fresh : ∀ r, d = .enter r → r.Fresh) : (b.carry d).Follows (past ++ [d]) := by
  obtain ⟨sound, replay, lined⟩ := follows
  constructor
  case sound => exact sound.perform fun r same => (fresh r same).sound
  case replay =>
    rw [Ledger.after_append, ← replay]
    rfl
  case lined =>
    rw [Ledger.wakes_append, ← replay, Ledger.wakes, Ledger.wakes, List.append_nil]
    exact lined.release (Ledger.perform_releases sound kept fresh)

theorem carryAll (follows : b.Follows past) {deeds : List Deed}
    (kept : ∀ d ∈ deeds, d.grants = false) (fresh : ∀ r, .enter r ∈ deeds → r.Fresh) :
    (deeds.foldl Broker.carry b).Follows (past ++ deeds) := by
  induction deeds generalizing b past with
  | nil => rwa [List.append_nil]
  | cons d deeds ih =>
    have here (r) (same : d = .enter r) : r.Fresh := fresh r (by simp [same])
    have first := follows.carry (kept d (List.mem_cons_self ..)) here
    have rest := ih first (fun d member => kept d (List.mem_cons_of_mem _ member)) fun r member =>
      fresh r (List.mem_cons_of_mem _ member)
    rwa [List.append_assoc] at rest

theorem poll (follows : b.Follows past) (worker : String) (lease : Uuid) (now : Timestamp) :
    (b.poll worker lease now).2.Follows
      (past ++ b.offers worker lease now (b.considered worker lease now)) := by
  obtain ⟨sound, replay, lined⟩ := follows
  obtain ⟨answer, -, turns⟩ := poll_turns sound lined worker lease now
  obtain ⟨ledger, lined⟩ := turns.lined sound lined
  constructor
  case sound =>
    rw [ledger]
    apply sound.after
    intro r member
    obtain ⟨t, -, same⟩ := List.mem_map.mp member
    cases same
  case replay => rw [ledger, replay, Ledger.after_append]
  case lined =>
    rw [Ledger.wakes_append, ← replay]
    exact lined

theorem perform (follows : b.Follows past) {r : Request} (fresh : ∀ r', r = .enter r' → r'.Fresh) :
    (b.perform r).Follows (past ++ b.deeds r) := by
  by_cases poll : ∃ worker lease now, r = .poll worker lease now
  · obtain ⟨worker, lease, now, rfl⟩ := poll
    exact follows.poll worker lease now
  · have other (worker lease now) (same : r = .poll worker lease now) : False :=
      poll ⟨worker, lease, now, same⟩
    rw [perform_eq follows.sound other]
    apply follows.carryAll
    · intro d member
      cases r with
      | poll => exact (other _ _ _ rfl).elim
      | enter | cancel => rw [List.mem_singleton.mp member]; rfl
      | heartbeat | complete | sweep =>
        obtain ⟨id, -, rfl⟩ := List.mem_map.mp member
        rfl
    · exact fun r' member => fresh r' (enter_of_mem_deeds member)

theorem after (follows : b.Follows past) {requests : List Request}
    (fresh : ∀ r, .enter r ∈ requests → r.Fresh) :
    (b.after requests).Follows (past ++ b.journal requests) := by
  induction requests generalizing b past with
  | nil => rwa [journal, List.append_nil]
  | cons request requests ih =>
    have here (r) (same : request = .enter r) : r.Fresh := fresh r (by simp [same])
    have rest := ih (follows.perform here) fun r member => fresh r (List.mem_cons_of_mem _ member)
    rwa [List.append_assoc] at rest

theorem inOrder (follows : b.Follows past) : b.InOrder past := by
  constructor
  case once =>
    intro id r stored s member ready
    exact follows.lined.count (Ledger.isReady_of_stored follows.sound stored member ready)
  case others =>
    exact fun t member => Ledger.exists_of_isQueueable follows.sound (follows.lined.stands t member)
  case order =>
    rw [follows.lined.order, follows.replay]
    rfl

theorem pollsInOrder (follows : b.Follows past) (worker : String) (lease : Uuid) (now : Timestamp) :
    b.PollsInOrder past worker lease now := by
  obtain ⟨answer, answered, turns⟩ := poll_turns follows.sound follows.lined worker lease now
  have ready (earlier : List Ticket) :
      Ledger.empty.after (past ++ b.offers worker lease now earlier) =
        b.ledger.after (b.offers worker lease now earlier) := by
    rw [Ledger.after_append, ← follows.replay]
  constructor
  case answers => exact ⟨answer, answered⟩
  case fair =>
    intro earlier t later split before ready'
    have fair := turns.fair follows.sound follows.lined split (by rwa [ready] at ready')
    rwa [Ledger.line, Ledger.wakes_append, ready, ← follows.replay]
  case leased =>
    intro a given
    rw [answered] at given
    obtain ⟨earlier, t, split, same, ready'⟩ := turns.leased (Except.ok.inj given)
    exact ⟨earlier, t, split, same, by rwa [ready]⟩
  case idle =>
    intro none
    rw [answered] at none
    have polled := follows.poll worker lease now
    have empty := turns.empty_of_none (Except.ok.inj none)
    apply And.intro empty
    intro id r stored s member ready
    have once := polled.inOrder.once id r stored s member ready
    rw [empty] at once
    cases once

end Follows

/-- After any requests each ready step has one ticket, in the order in which the steps last became
ready, and other tickets are of steps that have ended. Polls take them in this order. -/
theorem queue_after (settings : Scheduling) {requests : List Request}
    (fresh : ∀ r, .enter r ∈ requests → r.Fresh) :
    let b := (new settings).after requests
    let past := (new settings).journal requests
    b.ledger = Ledger.empty.after past ∧ Ledger.empty.Names past ∧ b.InOrder past ∧
      ∀ worker lease now, b.PollsInOrder past worker lease now := by
  intro b past
  have follows : b.Follows past := (Follows.new settings).after fresh
  have fresh (r : PlannedRun) (member : .enter r ∈ past) : r.Fresh := fresh r (enter_of_mem_journal member)
  have names : Ledger.empty.Names past := by
    intro earlier d later split t before after
    have sound : (Ledger.empty.after earlier).Sound :=
      Ledger.Sound.empty.after fun r member => fresh r (by rw [split]; simp [member])
    have here (r) (same : d = .enter r) : r.Fresh := fresh r (by rw [split]; simp [same])
    exact Ledger.count_of_woken sound here before after
  exact ⟨follows.replay, names, follows.inOrder, follows.pollsInOrder⟩

end Broker

def PlannedRun.pair (id : Uuid) (stepId : Nat) : PlannedRun :=
  ⟨.pair, .start .pair (.queued id Workflow.pair.reference .tolerant .epoch) fun i =>
    .ofNat (stepId + i)⟩

/-- What a completion makes ready stands behind what was ready before, also of another run. -/
theorem Broker.queue_after_completion :
    let requests : List Request :=
      [.enter (.pair (.ofNat 10) 0), .enter (.pair (.ofNat 11) 2), .poll "worker" (.ofNat 20) .epoch,
        .complete (.ofNat 0) (Report.succeeded (.ofNat 20) .null 0) .epoch]
    let b := (new default).after requests
    let past := (new default).journal requests
    (∀ r, .enter r ∈ requests → r.Fresh) ∧
      b.queue.tickets = [⟨.ofNat 11, .ofNat 2⟩, ⟨.ofNat 10, .ofNat 1⟩] ∧
      b.ledger = Ledger.empty.after past ∧ Ledger.empty.Names past ∧ b.InOrder past ∧
      ∀ worker lease now, b.PollsInOrder past worker lease now := by
  intro requests b past
  have fresh (r : PlannedRun) (member : .enter r ∈ requests) : r.Fresh := by
    simp only [requests, List.mem_cons, Request.enter.injEq, reduceCtorEq, List.not_mem_nil, or_false]
      at member
    rcases member with rfl | rfl
    · exact .start Plan.pair_built (RunRecord.queued_fresh ..) _ (by decide +kernel)
    · exact .start Plan.pair_built (RunRecord.queued_fresh ..) _ (by decide +kernel)
  exact ⟨fresh, by decide +kernel, queue_after default fresh⟩

end Orchestration
