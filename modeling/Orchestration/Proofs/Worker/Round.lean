import Orchestration.Proofs.Broker.Fifo
import Orchestration.Proofs.Worker.Steady

namespace Orchestration

def PlannedRun.attemptsLeft (r : PlannedRun) : Nat := r.run.attemptsLeft

def Ledger.attemptsLeft (l : Ledger PlannedRun) : Nat := l.total PlannedRun.attemptsLeft

theorem Ledger.attemptsLeft_set {l : Ledger PlannedRun} {id : Uuid} {r : PlannedRun}
    (distinct : l.keys.Nodup) (found : l.find? id = some r) {s : Run r.plan}
    (fewer : s.attemptsLeft < r.run.attemptsLeft) :
    (l.set id { r with run := s }).attemptsLeft < l.attemptsLeft := by
  have moved := total_set distinct PlannedRun.attemptsLeft found { r with run := s }
  unfold attemptsLeft
  dsimp only [PlannedRun.attemptsLeft] at *
  omega

structure Ledger.Continues (l l' : Ledger PlannedRun) : Prop where
  ids : l'.ids = l.ids
  runs : ∀ id r, l.find? id = some r → ∃ s : Run r.plan, l'.find? id = some { r with run := s } ∧
    s.record.policy = r.record.policy

theorem Ledger.Continues.set {l : Ledger PlannedRun} {id : Uuid} {r : PlannedRun}
    (found : l.find? id = some r) {s : Run r.plan} (policy : s.record.policy = r.record.policy) :
    l.Continues (l.set id { r with run := s }) := by
  refine ⟨ids_set l id _, fun id' r' found' => ?_⟩
  rw [find?_set]
  split
  · subst id'
    rw [found] at found'
    cases found'
    exact ⟨s, by rw [found]; rfl, policy⟩
  · exact ⟨r'.run, found', rfl⟩

namespace Broker

/-- A broker of which no step is under way, each on the course of its node. -/
structure Steady (b : Broker) : Prop where
  follows : ∃ past, b.Follows past
  runs : ∀ id r, b.ledger.find? id = some r → r.run.Steady
  named : ∀ id r, b.ledger.find? id = some r → ∀ i, b.ledger.resolve? (r.run.step i).id = some id
  atOnce : b.settings.retryBaseDelayMs = 0
  lasting : b.settings.leaseTtlSecs ≠ 0

/-- A broker that was `b₀` when `worker` took step `i` of the run `r`. -/
structure AtWork (b₀ : Broker) (id : Uuid) (r : PlannedRun) (i : Fin r.plan.size) (a : Assignment)
    (worker : String) (now : Timestamp) (b : Broker) : Prop where
  follows : ∃ past, b.Follows past
  settings : b.settings = b₀.settings
  stored : ∃ s, b.ledger = b₀.ledger.set id { r with run := s } ∧ r.run.Underway i a worker now s

variable {b b₀ : Broker} {id : Uuid} {r : PlannedRun} {i : Fin r.plan.size} {a : Assignment}
  {worker : String} {now : Timestamp}

namespace Steady

theorem set (steady : b₀.Steady) (found : b₀.ledger.find? id = some r) {s : Run r.plan}
    (ledger : b.ledger = b₀.ledger.set id { r with run := s }) (settings : b.settings = b₀.settings)
    (follows : ∃ past, b.Follows past) (run : s.Steady)
    (ids : ∀ j, (s.step j).id = (r.run.step j).id) : b.Steady := by
  have find (x : Uuid) (r' : PlannedRun) (found' : b.ledger.find? x = some r') :
      x = id ∧ r' = { r with run := s } ∨ b₀.ledger.find? x = some r' := by
    rw [ledger, Ledger.find?_set, found] at found'
    split at found'
    · exact .inl ⟨‹_›, (Option.some.inj found').symm⟩
    · exact .inr found'
  constructor
  case follows => exact follows
  case runs =>
    intro x r' found'
    rcases find x r' found' with ⟨rfl, rfl⟩ | before
    · exact run
    · exact steady.runs x r' before
  case named =>
    intro x r' found' j
    rw [ledger]
    rcases find x r' found' with ⟨rfl, rfl⟩ | before
    · exact (congrArg b₀.ledger.resolve? (ids j)).trans (steady.named x r found j)
    · exact steady.named x r' before j
  case atOnce => rw [settings]; exact steady.atOnce
  case lasting => rw [settings]; exact steady.lasting

end Steady

section AtWork

variable (steady : b₀.Steady) (found : b₀.ledger.find? id = some r)
  (here : r.run.indexOf? a.step.id = some i) (work : b₀.AtWork id r i a worker now b)

include steady found here work

theorem AtWork.runOf : b.runOf a.step.id = .ok id := by
  obtain ⟨s, ledger, -⟩ := work.stored
  have resolved : b.ledger.resolve? a.step.id = some id := by
    rw [ledger, ← (Run.indexOf?_eq_some_iff.mp here).1]
    exact steady.named id r found i
  rw [Broker.runOf, resolved]

theorem AtWork.current :
    ∃ s : Run r.plan, b.ledger.find? id = some { r with run := s } ∧ r.plan.Ordered ∧
      s.indexOf? a.step.id = some i ∧ r.run.Underway i a worker now s ∧
      ∀ s' : Run r.plan, b.ledger.set id { r with run := s' } = b₀.ledger.set id { r with run := s' } := by
  obtain ⟨_, before⟩ := steady.follows
  obtain ⟨s, ledger, underway⟩ := work.stored
  have stored : b.ledger.find? id = some { r with run := s } := by
    rw [ledger, Ledger.find?_set, if_pos rfl, found]
    rfl
  have index : s.indexOf? a.step.id = some i := (Run.indexOf?_congr underway.ids _).trans here
  refine ⟨s, stored, (before.sound.runs id r found).ordered, index, underway, fun s' => ?_⟩
  rw [ledger, Ledger.set_set]

theorem AtWork.heartbeat (early : now < .latest) :
    ∃ l b', b.heartbeat worker a.step.id now = (.ok l, b') ∧ b₀.AtWork id r i a worker now b' := by
  have owner := work.runOf steady found here
  obtain ⟨s, stored, ordered, index, underway, changed⟩ := work.current steady found here
  obtain ⟨⟨past, follows⟩, settings, -⟩ := work
  have lasting : b.settings.leaseTtlSecs ≠ 0 := by
    rw [settings]
    exact steady.lasting
  obtain ⟨⟨l, answer⟩, next⟩ := underway.renew ordered index early lasting
  let s' := (s.renew a.step.id worker now b.settings).2
  have renewed : (s.renew a.step.id worker now b.settings).1 = .ok (.renewed l) := by
    injection answer
  have beat : b.heartbeat worker a.step.id now =
      (.ok l, { b with ledger := b.ledger.set id { r with run := s' } }) := by
    unfold Broker.heartbeat
    simp only [owner]
    rw [onRun_of_found follows.sound.distinct stored (fun run => run.renew a.step.id worker now b.settings)
      fun why => Run.renew_of_error]
    simp only [renewed]
    rfl
  have follows' := follows.perform (r := .heartbeat worker a.step.id now) (by intro _ same; cases same)
  rw [perform, beat] at follows'
  exact ⟨l, _, beat, ⟨_, follows'⟩, settings, s', changed s', next⟩

theorem AtWork.complete :
    ∃ receipt b', b.complete a.step.id (Job.ofAssignment .simulated a).report now = (.ok receipt, b') ∧
      b'.Steady ∧ b'.settings = b₀.settings ∧ b₀.ledger.Continues b'.ledger ∧
      b'.ledger.attemptsLeft < b₀.ledger.attemptsLeft := by
  have owner := work.runOf steady found here
  obtain ⟨s, stored, ordered, index, underway, changed⟩ := work.current steady found here
  obtain ⟨⟨past, follows⟩, settings, -⟩ := work
  have atOnce : b.settings.retryBaseDelayMs = 0 := by
    rw [settings]
    exact steady.atOnce
  obtain ⟨⟨status, ready, answer⟩, run, ids, policy, fewer⟩ := underway.accept ordered index atOnce
  let report := (Job.ofAssignment .simulated a).report
  let s' := (s.accept a.step.id report now b.settings).2
  have applied : (s.accept a.step.id report now b.settings).1 = .ok (.applied status ready) := by
    injection answer
  have reported : b.complete a.step.id report now = (.ok (.applied status ready),
      { b with ledger := b.ledger.set id { r with run := s' } }.enqueue id ready) := by
    unfold Broker.complete
    simp only [owner]
    rw [onRun_of_found follows.sound.distinct stored (fun run => run.accept a.step.id report now b.settings)
      fun why => Run.accept_of_error]
    simp only [applied]
    rfl
  have follows' := follows.perform (r := .complete a.step.id report now) (by intro _ same; cases same)
  rw [perform, reported] at follows'
  refine ⟨_, _, reported, ?_, settings, ?_, ?_⟩
  · exact steady.set found (changed s') settings ⟨_, follows'⟩ run ids
  · exact changed s' ▸ .set found policy
  · obtain ⟨_, before⟩ := steady.follows
    exact changed s' ▸ Ledger.attemptsLeft_set before.sound.distinct found fewer

end AtWork

theorem Steady.answer? (steady : b.Steady) {t : Ticket} (ready : b.ledger.isReady t)
    (early : now < .latest) (worker : String) (lease : Uuid) :
    ∃ (r : PlannedRun) (i : Fin r.plan.size) (a : Assignment) (s : Run r.plan),
      b.ledger.find? t.run = some r ∧ r.run.indexOf? a.step.id = some i ∧
        b.ledger.answer? (t.offered worker lease now b.settings) = some (.granted (.ok (.leased a))) ∧
        (b.ledger.perform (t.offered worker lease now b.settings)).2 =
          b.ledger.set t.run { r with run := s } ∧
        r.run.Underway i a worker now s := by
  obtain ⟨past, follows⟩ := steady.follows
  obtain ⟨r, found, known⟩ := Option.bind_eq_some_iff.mp (of_decide_eq_true ready)
  obtain ⟨i, here, status⟩ := Option.map_eq_some_iff.mp known
  have ordered := (follows.sound.runs t.run r found).ordered
  obtain ⟨a, answer, same, underway⟩ := (steady.runs t.run r found).grant ordered here status early
    steady.lasting worker lease
  refine ⟨r, i, a, _, found, same ▸ here, ?_, ?_, underway⟩
  · rw [Ledger.answer?, found, Option.map_some, answer]
  · rw [Ledger.perform_event found]

theorem Steady.pollWithin (steady : b₀.Steady) (early : now < .latest) (worker : String) (lease : Uuid)
    {past : List Ticket} {fuel : Nat} (ledger : b.ledger = b₀.ledger) (settings : b.settings = b₀.settings)
    (lined : Lined b.ledger b.queue.tickets past) (enough : b.queue.size < fuel) :
    (∃ b', Broker.pollWithin worker lease now fuel b = some (.ok none, b') ∧ b'.ledger = b₀.ledger ∧
        b'.settings = b₀.settings) ∨
      ∃ id r i a b' s, Broker.pollWithin worker lease now fuel b = some (.ok (some a), b') ∧
        b₀.ledger.find? id = some r ∧ r.run.indexOf? a.step.id = some i ∧
        b'.ledger = b₀.ledger.set id { r with run := s } ∧ b'.settings = b₀.settings ∧
        r.run.Underway i a worker now s := by
  induction fuel generalizing b past with
  | zero => exact absurd enough (Nat.not_lt_zero _)
  | succ fuel ih =>
    obtain ⟨_, follows⟩ := steady.follows
    have sound : b.ledger.Sound := ledger ▸ follows.sound
    unfold Broker.pollWithin
    cases queued : b.queue.tickets with
    | nil =>
      rw [turn_of_empty worker lease now queued]
      exact .inl ⟨b, rfl, ledger, settings⟩
    | cons t rest =>
      by_cases ready : b.ledger.isReady t
      · obtain ⟨r, i, a, s, found, here, answer, changed, underway⟩ :=
          steady.answer? (ledger ▸ ready) early worker lease
        rw [← ledger, ← settings] at answer changed
        rw [turn_of_answer worker lease now sound queued answer]
        exact .inr ⟨t.run, r, i, a, _, s, rfl, found, here, ledger ▸ changed, settings, underway⟩
      · cases Ledger.offer sound worker lease now b.settings t with
        | leased taken | rejected taken => exact absurd taken ready
        | stale held none answer =>
          -- The ticket is dropped; the ledger is as before, and the queue is shorter by one.
          have stands := lined.stands t (by rw [queued]; exact List.mem_cons_self ..)
          rw [turn_of_answer worker lease now sound queued (answer stands)]
          have tickets : (b.serve (t.offered worker lease now b.settings)).queue.tickets = rest := by
            simp only [serve, Broker.carry, none, queued, List.tail_cons, List.append_nil]
          have kept : (b.serve (t.offered worker lease now b.settings)).ledger = b.ledger := by
            simp only [serve, Broker.carry, none]
          rw [queued] at lined
          rw [Queue.size, queued, List.length_cons] at enough
          have lined' : Lined (b.serve (t.offered worker lease now b.settings)).ledger
              (b.serve (t.offered worker lease now b.settings)).queue.tickets past := by
            rw [kept, tickets]
            exact lined.drop held
          refine ih (kept.trans ledger) settings lined' ?_
          rw [Queue.size, tickets]
          omega

theorem Steady.poll (steady : b.Steady) (early : now < .latest) (worker : String) (lease : Uuid) :
    (∃ b', b.poll worker lease now = (.ok none, b') ∧ b'.Steady ∧ b'.ledger = b.ledger ∧
        b'.queue.tickets = [] ∧ ∀ id r, b.ledger.find? id = some r → ∀ i, (r.run.step i).status ≠ .ready) ∨
      ∃ id r i a b', b.poll worker lease now = (.ok (some a), b') ∧ b.ledger.find? id = some r ∧
        r.run.indexOf? a.step.id = some i ∧ b.AtWork id r i a worker now b' := by
  obtain ⟨past, follows⟩ := steady.follows
  have polled := follows.poll worker lease now
  have inOrder := follows.pollsInOrder worker lease now
  have enough : b.queue.size < b.queue.size + b.pendingCount + 1 := by omega
  rcases steady.pollWithin early worker lease rfl rfl follows.lined enough with
    ⟨b', done, ledger, settings⟩ | ⟨id, r, i, a, b', s, done, found, here, ledger, settings, underway⟩
  · have answer : b.poll worker lease now = (.ok none, b') := by
      rw [Broker.poll, done]
      rfl
    obtain ⟨empty, idle⟩ := inOrder.idle (congrArg Prod.fst answer)
    rw [answer] at polled empty idle
    left
    refine ⟨b', answer, ?_, ledger, empty, ?_⟩
    · exact ⟨⟨_, polled⟩, ledger ▸ steady.runs, ledger ▸ steady.named, settings ▸ steady.atOnce,
        settings ▸ steady.lasting⟩
    · intro id r found i
      refine idle id r ?_ _ (Run.mem_steps.mpr ⟨i, rfl⟩)
      rw [ledger]
      exact follows.sound.consistent.mem_entries_iff.mpr found
  · have answer : b.poll worker lease now = (.ok (some a), b') := by
      rw [Broker.poll, done]
      rfl
    rw [answer] at polled
    exact .inr ⟨id, r, i, a, b', answer, found, here, ⟨_, polled⟩, settings, s, ledger, underway⟩

end Broker

end Orchestration
