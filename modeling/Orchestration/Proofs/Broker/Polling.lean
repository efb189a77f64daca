import Orchestration.Proofs.Broker.Offer

namespace Orchestration

namespace Broker

variable {b b' : Broker} {worker : String} {lease : Uuid} {now : Timestamp}

theorem turn_again (distinct : b.ledger.keys.Nodup) (again : b.turn worker lease now = .again b') :
    ∃ t rest r g s, b.queue.tickets = t :: rest ∧ b.ledger.find? t.run = some r ∧
      r.run.grant t.step worker lease now b.settings = (.ok g, s) ∧ (∀ a, g ≠ .leased a) ∧
      b' = b.serve (t.offered worker lease now b.settings) := by
  cases queued : b.queue.tickets with
  | nil =>
    rw [turn_of_empty worker lease now queued] at again
    cases again
  | cons t rest =>
    cases found : b.ledger.find? t.run with
    | none =>
      rw [turn_of_missing worker lease now queued found] at again
      cases again
    | some r =>
      rw [turn_of_found worker lease now distinct queued found] at again
      rcases answer : r.run.grant t.step worker lease now b.settings with ⟨⟨why⟩ | ⟨g⟩, s⟩
      · rw [answer] at again
        cases again
      · rw [answer] at again
        cases g with
        | leased => cases again
        | rejected | stale =>
          cases again
          exact ⟨t, rest, r, _, s, rfl, found, answer, by simp, rfl⟩

/-- What bounds the turns of a poll: the tickets in the queue, and those that may yet come in. -/
def turnsLeft (b : Broker) : Nat := b.queue.size + b.pendingCount

theorem again_lowers (distinct : b.ledger.keys.Nodup) (again : b.turn worker lease now = .again b') :
    b'.ledger.keys.Nodup ∧ b'.turnsLeft < b.turnsLeft := by
  obtain ⟨t, rest, r, g, s, queued, found, answer, kept, rfl⟩ := turn_again distinct again
  have fewer := Ledger.offered_pending_le distinct found answer kept
  constructor
  · rw [serve, carry_keys]
    exact distinct
  · have size : b.queue.size = rest.length + 1 := congrArg List.length queued
    have size' : (b.serve (t.offered worker lease now b.settings)).queue.size = rest.length +
        (b.ledger.perform (t.offered worker lease now b.settings)).1.length := by
      simp only [serve, carry, Queue.size, queued, List.tail_cons, List.length_append]
    have pending : b.pendingCount = b.ledger.pendingCount := rfl
    have pending' : (b.serve (t.offered worker lease now b.settings)).pendingCount =
        (b.ledger.perform (t.offered worker lease now b.settings)).2.pendingCount := rfl
    unfold turnsLeft
    omega

/-- Enough turns bring a poll to its end. -/
theorem pollWithin_ends (worker : String) (lease : Uuid) (now : Timestamp) {fuel : Nat}
    (distinct : b.ledger.keys.Nodup) (enough : b.turnsLeft < fuel) :
    ∃ result, pollWithin worker lease now fuel b = some result := by
  induction fuel generalizing b with
  | zero => exact absurd enough (Nat.not_lt_zero _)
  | succ fuel ih =>
    unfold pollWithin
    cases turned : b.turn worker lease now with
    | done result b' => exact ⟨_, rfl⟩
    | again b' =>
      obtain ⟨distinct', lowers⟩ := again_lowers distinct turned
      exact ih distinct' (Nat.lt_of_lt_of_le lowers (Nat.le_of_lt_succ enough))

theorem pollWithin_eq_poll (distinct : b.ledger.keys.Nodup) :
    pollWithin worker lease now (b.turnsLeft + 1) b = some (b.poll worker lease now) := by
  obtain ⟨result, ended⟩ := pollWithin_ends worker lease now distinct (Nat.lt_succ_self _)
  unfold poll
  rw [show pollWithin worker lease now (b.queue.size + b.pendingCount + 1) b = _ from ended, ended]
  rfl

theorem takenWithin_length_le (distinct : b.ledger.keys.Nodup) (fuel : Nat) :
    (takenWithin worker lease now fuel b).length ≤ b.turnsLeft := by
  induction fuel generalizing b with
  | zero => exact Nat.zero_le _
  | succ fuel ih =>
    unfold takenWithin
    cases queued : b.queue.tickets with
    | nil => exact Nat.zero_le _
    | cons t rest =>
      have size : b.queue.size = rest.length + 1 := congrArg List.length queued
      cases turned : b.turn worker lease now with
      | done result b' =>
        dsimp only [List.length_singleton]
        unfold turnsLeft
        omega
      | again b' =>
        obtain ⟨distinct', lowers⟩ := again_lowers distinct turned
        exact Nat.lt_of_le_of_lt (ih distinct') lowers

/-- From the first broker to the second, turns of a poll went on, each at its own time. -/
inductive GoesOn (worker : String) (lease : Uuid) : List Timestamp → Broker → Broker → Prop
  | still (b : Broker) : GoesOn worker lease [] b b
  | turn {now : Timestamp} {times : List Timestamp} {b b' b'' : Broker}
      (again : b.turn worker lease now = .again b') (more : GoesOn worker lease times b' b'') :
      GoesOn worker lease (now :: times) b b''

theorem GoesOn.length_le {times : List Timestamp} (goes : GoesOn worker lease times b b')
    (distinct : b.ledger.keys.Nodup) : times.length + b'.turnsLeft ≤ b.turnsLeft := by
  induction goes with
  | still => exact Nat.le_of_eq (Nat.zero_add _)
  | turn again more ih =>
    obtain ⟨distinct', lowers⟩ := again_lowers distinct again
    have rest := ih distinct'
    rw [List.length_cons]
    omega

/-- With each run stored once, a poll ends after at most as many turns as there are tickets in the queue
and pending steps in all runs. That is so, too, where time passes between its turns. -/
theorem poll_ends (distinct : b.ledger.keys.Nodup) (worker : String) (lease : Uuid) :
    let most := b.queue.size + b.pendingCount
    (∀ now, pollWithin worker lease now (most + 1) b = some (b.poll worker lease now)) ∧
      (∀ now fuel, (takenWithin worker lease now fuel b).length ≤ most) ∧
      ∀ times b', GoesOn worker lease times b b' →
        times.length + (b'.queue.size + b'.pendingCount) ≤ most :=
  ⟨fun _ => pollWithin_eq_poll distinct, fun _ fuel => takenWithin_length_le distinct fuel,
    fun _ _ goes => goes.length_le distinct⟩

end Broker

def Workflow.row : Workflow :=
  ⟨.nil, "row", 1, "",
    [⟨"a", .function, [], 0, none, .clamp 3, .null⟩, ⟨"b", .function, ["a"], 0, none, 0, .null⟩,
      ⟨"c", .function, ["b"], 0, none, .clamp 3, .null⟩], .epoch⟩

def Plan.row : Plan :=
  ⟨.row, ⟨#v[[], [(0 : Fin 3)], [(1 : Fin 3)]], #v[[(1 : Fin 3)], [(2 : Fin 3)], []], List.finRange 3⟩⟩

def PlannedRun.row : PlannedRun :=
  ⟨.row, .start .row
    { RunRecord.queued (.ofNat 10) Workflow.row.reference .tolerant .epoch with
      budget := some (.clamp 2) } .ofNat⟩

/-- The first step has two tickets. It is turned away for its cost, which makes the third step ready, so
that its ticket comes in meanwhile. -/
theorem Broker.poll_ends_rejecting :
    let b := ((new default).perform (.enter .row)).enqueue (.ofNat 10) [.ofNat 0]
    let most := b.queue.size + b.pendingCount
    b.ledger.keys.Nodup ∧ most = 4 ∧
      b.considered "worker" (.ofNat 20) .epoch =
        [⟨.ofNat 10, .ofNat 0⟩, ⟨.ofNat 10, .ofNat 0⟩, ⟨.ofNat 10, .ofNat 2⟩] ∧
      (∀ now, pollWithin "worker" (.ofNat 20) now (most + 1) b = some (b.poll "worker" (.ofNat 20) now)) ∧
      (∀ now fuel, (takenWithin "worker" (.ofNat 20) now fuel b).length ≤ most) ∧
      ∀ times b', GoesOn "worker" (.ofNat 20) times b b' →
        times.length + (b'.queue.size + b'.pendingCount) ≤ most := by
  intro b most
  have distinct : b.ledger.keys.Nodup := by decide +kernel
  exact ⟨distinct, by decide +kernel, by decide +kernel, poll_ends distinct "worker" (.ofNat 20)⟩

end Orchestration
