import Orchestration.Proofs.Broker.Offer

namespace Orchestration

theorem dedup_append_of_nodup {α : Type} [DecidableEq α] (past : List α) {new : List α}
    (nodup : new.Nodup) : (past ++ new).dedup = past.dedup.filter (· ∉ new) ++ new := by
  induction past with
  | nil => simp [nodup.dedup]
  | cons a past ih =>
    rw [List.cons_append]
    by_cases old : a ∈ past
    · rw [List.dedup_cons_of_mem (List.mem_append_left _ old), List.dedup_cons_of_mem old, ih]
    · rw [List.dedup_cons_of_notMem old]
      by_cases again : a ∈ new
      · rw [List.dedup_cons_of_mem (List.mem_append_right _ again), ih]
        simp [again]
      · have first : a ∉ past ++ new := by simp [old, again]
        rw [List.dedup_cons_of_notMem first, ih]
        simp [again]

/-- The tickets of ready steps stand in the order in which the steps became ready last, and no other
ticket will ever be of a ready step. -/
structure Lined (l : Ledger PlannedRun) (tickets past : List Ticket) : Prop where
  stands : ∀ t ∈ tickets, l.isQueueable t
  order : tickets.filter l.isReady = past.dedup.filter l.isReady
  all : ∀ t, l.isReady t → t ∈ past

namespace Lined

variable {l l' : Ledger PlannedRun} {tickets rest past named : List Ticket} {t : Ticket}

theorem empty : Lined .empty [] [] := ⟨by simp, rfl, fun _ ready => nomatch ready⟩

theorem release (lined : Lined l tickets past) (releases : l.Releases l' named) :
    Lined l' (tickets ++ named) (past ++ named.filter fun t => !l.isReady t && l'.isReady t) := by
  have new (t) (member : t ∈ named) : l.isReady t = false := by
    by_contra ready
    rw [Bool.not_eq_false] at ready
    exact (releases.new t member).1 (Ledger.isQueueable_of_isReady ready)
  have woken : (named.filter fun t => !l.isReady t && l'.isReady t) = named.filter l'.isReady :=
    List.filter_congr fun t member => by rw [new t member, Bool.not_false, Bool.true_and]
  rw [woken]
  constructor
  case stands =>
    intro t member
    rcases List.mem_append.mp member with old | named
    · exact releases.kept t (lined.stands t old)
    · exact (releases.new t named).2
  case order =>
    -- What becomes ready could not stand in the queue, so that a ready ticket there was ready before.
    have kept : tickets.filter l'.isReady = (tickets.filter l.isReady).filter l'.isReady := by
      rw [List.filter_filter]
      apply List.filter_congr
      intro t member
      by_cases ready : l'.isReady t
      · rcases releases.all t ready with before | named
        · rw [ready, before]; rfl
        · exact absurd (lined.stands t member) (releases.new t named).1
      · simp [ready]
    -- Those named now have their place at the end, and lose the one they had.
    have stayed : (past.dedup.filter (· ∉ named.filter l'.isReady)).filter l'.isReady =
        (past.dedup.filter l.isReady).filter l'.isReady := by
      rw [List.filter_filter, List.filter_filter]
      apply List.filter_congr
      intro t _
      by_cases ready : l'.isReady t
      · by_cases before : l.isReady t
        · have absent : t ∉ named := fun member => by simp [new t member] at before
          simp [ready, before, absent]
        · have member := (releases.all t ready).resolve_left before
          simp [ready, before, member]
      · simp [ready]
    rw [dedup_append_of_nodup past (releases.nodup.filter _), List.filter_append, List.filter_append,
      stayed, kept, lined.order, List.filter_filter (p := l'.isReady) (l := named)]
    simp only [Bool.and_self]
  case all =>
    intro t ready
    rcases releases.all t ready with before | member
    · exact List.mem_append_left _ (lined.all t before)
    · exact List.mem_append_right _ (List.mem_filter.mpr ⟨member, ready⟩)

theorem drop (lined : Lined l (t :: rest) past) (held : ¬ l.isReady t) : Lined l rest past := by
  have order := lined.order
  rw [List.filter_cons_of_neg held] at order
  exact ⟨fun u member => lined.stands u (List.mem_cons_of_mem t member), order, lined.all⟩

theorem head (lined : Lined l (t :: rest) past) (ready : l.isReady t) :
    (past.dedup.filter l.isReady).head? = some t := by
  rw [← lined.order, List.filter_cons_of_pos ready]
  rfl

theorem lease (lined : Lined l (t :: rest) past) (ready : l.isReady t)
    (status : ∀ u, l'.status? u = if u = t then some .dispatched else l.status? u) :
    Lined l' rest past := by
  have isReady (u) : l'.isReady u = (l.isReady u && decide (u ≠ t)) := by
    unfold Ledger.isReady
    rw [status]
    split <;> simp [*]
  have order := lined.order
  rw [List.filter_cons_of_pos ready] at order
  have absent : t ∉ rest := by
    intro member
    have nodup : (t :: rest.filter l.isReady).Nodup := by
      rw [order]
      exact (List.nodup_dedup past).filter _
    exact (List.nodup_cons.mp nodup).1 (List.mem_filter.mpr ⟨member, ready⟩)
  constructor
  case stands =>
    intro u member
    have other : u ≠ t := fun same => absent (same ▸ member)
    have stands := lined.stands u (List.mem_cons_of_mem t member)
    unfold Ledger.isQueueable at *
    rwa [status, if_neg other]
  case order =>
    have gone (tickets : List Ticket) :
        tickets.filter l'.isReady = (tickets.filter l.isReady).filter (· ≠ t) := by
      rw [List.filter_filter]
      exact List.filter_congr fun u _ => by rw [isReady, Bool.and_comm]
    rw [gone rest, gone past.dedup, ← order, List.filter_cons_of_neg (by simp)]
  case all =>
    intro u after
    rw [isReady, Bool.and_eq_true] at after
    exact lined.all u after.1

theorem count (lined : Lined l tickets past) (ready : l.isReady t) : tickets.count t = 1 := by
  have waits := List.mem_filter.mpr ⟨List.mem_dedup.mpr (lined.all t ready), ready⟩
  rw [← List.count_filter ready, lined.order]
  exact List.count_eq_one_of_mem ((List.nodup_dedup _).filter _) waits

end Lined

namespace Broker

variable {b b' : Broker} {t : Ticket} {rest seen past : List Ticket} {answer : Option Assignment}

theorem serve_lined (sound : b.ledger.Sound) (lined : Lined b.ledger b.queue.tickets past)
    (queued : b.queue.tickets = t :: rest) (worker : String) (lease : Uuid) (now : Timestamp)
    (settings : Scheduling) :
    let d := t.offered worker lease now settings
    Lined (b.serve d).ledger (b.serve d).queue.tickets (past ++ b.ledger.woken d) := by
  intro d
  rw [queued] at lined
  have tickets : (b.serve d).queue.tickets = rest ++ (b.ledger.perform d).1 := by
    simp only [serve, carry, queued, List.tail_cons]
  have ledger : (b.serve d).ledger = (b.ledger.perform d).2 := rfl
  rw [tickets, ledger]
  unfold Ledger.woken
  cases Ledger.offer sound worker lease now settings t with
  | stale held none =>
    rw [none, List.append_nil, List.filter_nil, List.append_nil]
    exact lined.drop held
  | leased ready none a answer same status =>
    rw [none, List.append_nil, List.filter_nil, List.append_nil]
    exact lined.lease ready status
  | rejected ready why names answer releases failed =>
    have released := lined.release releases
    rw [List.cons_append] at released
    exact released.drop (by simp [Ledger.isReady, failed])

inductive Turns (worker : String) (lease : Uuid) (now : Timestamp) :
    Broker → List Ticket → Option Assignment → Broker → Prop
  | idle {b : Broker} (empty : b.queue.tickets = []) : Turns worker lease now b [] none b
  | last {b : Broker} {t : Ticket} {rest : List Ticket} (queued : b.queue.tickets = t :: rest)
      (ready : b.ledger.isReady t) (a : Assignment) (same : a.step.id = t.step) :
      Turns worker lease now b [t] (some a)
        (b.serve (t.offered worker lease now b.settings))
  | again {b b' : Broker} {t : Ticket} {rest seen : List Ticket} {answer : Option Assignment}
      (queued : b.queue.tickets = t :: rest)
      (more : Turns worker lease now
        (b.serve (t.offered worker lease now b.settings)) seen answer b') :
      Turns worker lease now b (t :: seen) answer b'

theorem pollWithin_turns (worker : String) (lease : Uuid) (now : Timestamp) {fuel : Nat}
    (sound : b.ledger.Sound) (lined : Lined b.ledger b.queue.tickets past)
    (enough : b.queue.size + b.ledger.pendingCount < fuel) :
    ∃ answer b', pollWithin worker lease now fuel b = some (.ok answer, b') ∧
      Turns worker lease now b (takenWithin worker lease now fuel b) answer b' := by
  induction fuel generalizing b past with
  | zero => exact absurd enough (Nat.not_lt_zero _)
  | succ fuel ih =>
    unfold pollWithin takenWithin
    cases queued : b.queue.tickets with
    | nil =>
      rw [turn_of_empty worker lease now queued]
      exact ⟨none, b, rfl, .idle queued⟩
    | cons t rest =>
      have stands := lined.stands t (by rw [queued]; exact List.mem_cons_self ..)
      have sound' : (b.serve (t.offered worker lease now b.settings)).ledger.Sound :=
        sound.event ..
      have lined' := serve_lined sound lined queued worker lease now b.settings
      have size : (b.serve (t.offered worker lease now b.settings)).queue.size = rest.length +
          (b.ledger.perform (t.offered worker lease now b.settings)).1.length := by
        simp only [serve, carry, Queue.size, queued, List.tail_cons, List.length_append]
      have ledger : (b.serve (t.offered worker lease now b.settings)).ledger =
          (b.ledger.perform (t.offered worker lease now b.settings)).2 := rfl
      have before : b.queue.size = rest.length + 1 := by
        simp only [Queue.size, queued, List.length_cons]
      cases Ledger.offer sound worker lease now b.settings t with
      | stale held none answer =>
        rw [turn_of_answer worker lease now sound queued (answer stands)]
        rw [none, List.length_nil] at size
        rw [none] at ledger
        dsimp only at ledger
        obtain ⟨answer, b', done, turns⟩ := ih sound' lined' (by rw [size, ledger]; omega)
        exact ⟨answer, b', done, .again queued turns⟩
      | leased ready none a answer same =>
        rw [turn_of_answer worker lease now sound queued answer]
        exact ⟨some a, _, rfl, .last queued ready a same⟩
      | rejected ready why names answer releases failed fewer =>
        rw [turn_of_answer worker lease now sound queued answer]
        obtain ⟨answer, b', done, turns⟩ := ih sound' lined' (by rw [size, ledger]; omega)
        exact ⟨answer, b', done, .again queued turns⟩

theorem poll_turns (sound : b.ledger.Sound) (lined : Lined b.ledger b.queue.tickets past)
    (worker : String) (lease : Uuid) (now : Timestamp) :
    ∃ answer, (b.poll worker lease now).1 = .ok answer ∧
      Turns worker lease now b (b.considered worker lease now) answer
        (b.poll worker lease now).2 := by
  obtain ⟨answer, b', done, turns⟩ :=
    pollWithin_turns worker lease now sound lined (Nat.lt_succ_self _)
  have polled : b.poll worker lease now = (.ok answer, b') := by
    unfold poll
    rw [show pollWithin worker lease now (b.queue.size + b.pendingCount + 1) b = _ from done]
    rfl
  rw [polled]
  exact ⟨answer, rfl, turns⟩

namespace Turns

variable {worker : String} {lease : Uuid} {now : Timestamp}
variable (turns : Turns worker lease now b seen answer b')

include turns

theorem lined (sound : b.ledger.Sound) (lined : Lined b.ledger b.queue.tickets past) :
    b'.ledger = b.ledger.after (b.offers worker lease now seen) ∧
      Lined b'.ledger b'.queue.tickets (past ++ b.ledger.wakes (b.offers worker lease now seen)) := by
  induction turns generalizing past with
  | idle => exact ⟨rfl, by rwa [offers, List.map_nil, Ledger.wakes, List.append_nil]⟩
  | @last b t rest queued =>
    have served := serve_lined sound lined queued worker lease now b.settings
    refine ⟨rfl, ?_⟩
    rwa [offers, List.map_cons, List.map_nil, Ledger.wakes, Ledger.wakes, List.append_nil]
  | @again b b' t rest seen answer queued more ih =>
    have served := serve_lined sound lined queued worker lease now b.settings
    obtain ⟨ledger, after⟩ := ih (sound.event ..) served
    rw [List.append_assoc] at after
    exact ⟨ledger, after⟩

theorem fair (sound : b.ledger.Sound) (lined : Lined b.ledger b.queue.tickets past)
    {earlier later : List Ticket} (split : seen = earlier ++ t :: later)
    (ready : (b.ledger.after (b.offers worker lease now earlier)).isReady t) :
    ((past ++ b.ledger.wakes (b.offers worker lease now earlier)).dedup.filter
      (b.ledger.after (b.offers worker lease now earlier)).isReady).head? = some t := by
  induction turns generalizing past earlier with
  | idle => cases earlier <;> cases split
  | last queued =>
    cases earlier with
    | nil =>
      cases split
      rw [queued] at lined
      rw [offers, List.map_nil, Ledger.wakes, List.append_nil]
      exact lined.head ready
    | cons u earlier =>
      rw [List.cons_append, List.cons.injEq] at split
      cases earlier <;> cases split.2
  | @again b b' u rest seen answer queued more ih =>
    cases earlier with
    | nil =>
      cases split
      rw [queued] at lined
      rw [offers, List.map_nil, Ledger.wakes, List.append_nil]
      exact lined.head ready
    | cons u' earlier =>
      rw [List.cons_append, List.cons.injEq] at split
      obtain ⟨rfl, split⟩ := split
      have served := serve_lined sound lined queued worker lease now b.settings
      have later := ih (sound.event ..) served split ready
      rw [List.append_assoc] at later
      exact later

theorem leased {a : Assignment} (given : answer = some a) :
    ∃ earlier t, seen = earlier ++ [t] ∧ t.step = a.step.id ∧
      (b.ledger.after (b.offers worker lease now earlier)).isReady t := by
  induction turns with
  | idle => cases given
  | @last b t rest queued ready a same =>
    cases given
    exact ⟨[], t, rfl, same.symm, ready⟩
  | @again b b' t rest seen answer queued more ih =>
    obtain ⟨earlier, u, split, same, ready⟩ := ih given
    exact ⟨t :: earlier, u, by rw [split]; rfl, same, ready⟩

theorem empty_of_none (idle : answer = none) : b'.queue.tickets = [] := by
  induction turns with
  | idle empty => exact empty
  | last => cases idle
  | again queued more ih => exact ih idle

end Turns

end Broker

end Orchestration
