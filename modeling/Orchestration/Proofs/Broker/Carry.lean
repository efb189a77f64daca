import Orchestration.Proofs.Broker.Stored
import Orchestration.Proofs.Run.Refusals

namespace Orchestration

namespace Broker

variable {b : Broker} {id : Uuid} {r : PlannedRun}

def carry (b : Broker) (d : Deed) : Broker :=
  ⟨(b.ledger.perform d).2, ⟨b.queue.tickets ++ (b.ledger.perform d).1⟩, b.settings⟩

theorem carry_of_missing (missing : b.ledger.find? id = none) (e : Event) :
    b.carry (.event id e) = b := by
  simp only [carry, Ledger.perform, missing, List.append_nil]

theorem carry_of_found (found : b.ledger.find? id = some r) (e : Event) :
    b.carry (.event id e) =
      { b with ledger := b.ledger.set id { r with run := (r.run.handle e).2 } }.enqueue id
        (r.run.handle e).1.ready := by
  simp only [carry, Ledger.perform, found]
  rfl

theorem onRun_of_missing {β : Type} (missing : b.ledger.find? id = none)
    (change : {p : Plan} → Run p → Except Refusal β × Run p) :
    b.onRun id change = (.error (.ofLedger (.missing id)), b) := by
  simp only [onRun, Ledger.transition_of_missing missing]

theorem onRun_of_found {β : Type} (distinct : b.ledger.keys.Nodup) (found : b.ledger.find? id = some r)
    (change : {p : Plan} → Run p → Except Refusal β × Run p)
    (kept : ∀ why, (change r.run).1 = .error why → (change r.run).2 = r.run) :
    b.onRun id change = ((change r.run).1,
      { b with ledger := b.ledger.set id { r with run := (change r.run).2 } }) := by
  have same := Ledger.transition_of_found distinct found Refusal.ofLedger
    (fun r => r.update change) fun why refused => by
      simp only [PlannedRun.update]
      rw [kept why refused]
  simp only [onRun, same]
  rfl

theorem enqueue_nil (b : Broker) (id : Uuid) : b.enqueue id [] = b := by
  simp only [enqueue, Queue.push, List.map_nil, List.append_nil]

theorem enter_cases (b : Broker) (r : PlannedRun) :
    (∃ why, b.ledger.insert r.record.id r r.run.stepIds = (.error why, b.ledger) ∧
      b.enter r = (.error (.ofLedger why), b)) ∨
    ∃ l', b.ledger.insert r.record.id r r.run.stepIds = (.ok (), l') ∧
      b.enter r = (.ok (), { b with ledger := l' }.enqueue r.record.id r.run.readySteps) := by
  unfold enter
  rcases b.ledger.insert_cases r.record.id r r.run.stepIds with ⟨-, why, refused⟩ | ⟨l', inserted, -⟩
  · rw [refused]
    exact .inl ⟨why, rfl, rfl⟩
  · rw [inserted]
    exact .inr ⟨l', rfl, rfl⟩

theorem enter_eq (b : Broker) (r : PlannedRun) : (b.enter r).2 = b.carry (.enter r) := by
  unfold carry Ledger.perform
  rcases b.enter_cases r with ⟨why, refused, entered⟩ | ⟨l', inserted, entered⟩
  · simp only [refused, entered, List.append_nil]
  · simp only [inserted, entered]
    rfl

theorem heartbeat_eq (sound : b.ledger.Sound) (worker : String) (step : Uuid) (now : Timestamp) :
    (b.heartbeat worker step now).2 = (b.deeds (.heartbeat worker step now)).foldl carry b := by
  cases resolved : b.ledger.resolve? step with
  | none =>
    simp only [heartbeat, runOf, deeds, resolved]
    rfl
  | some id =>
    simp only [heartbeat, runOf, deeds, resolved, Option.toList_some, List.map_cons, List.map_nil,
      List.foldl_cons, List.foldl_nil]
    cases found : b.ledger.find? id with
    | none => rw [onRun_of_missing found, carry_of_missing found]
    | some r =>
      rw [onRun_of_found sound.distinct found _ fun why => Run.renew_of_error, carry_of_found found]
      simp only [Run.handle, Outcome.ready, enqueue_nil]
      split <;> simp_all

theorem complete_eq (sound : b.ledger.Sound) (step : Uuid) (report : Report) (now : Timestamp) :
    (b.complete step report now).2 = (b.deeds (.complete step report now)).foldl carry b := by
  cases resolved : b.ledger.resolve? step with
  | none =>
    simp only [complete, runOf, deeds, resolved]
    rfl
  | some id =>
    simp only [complete, runOf, deeds, resolved, Option.toList_some, List.map_cons, List.map_nil,
      List.foldl_cons, List.foldl_nil]
    cases found : b.ledger.find? id with
    | none => rw [onRun_of_missing found, carry_of_missing found]
    | some r =>
      rw [onRun_of_found sound.distinct found _ fun why => Run.accept_of_error, carry_of_found found]
      simp only [Run.handle]
      rcases r.run.accept step report now b.settings with ⟨⟨⟩ | ⟨⟨⟩ | ⟨⟩ | ⟨⟩⟩, s⟩
      all_goals simp [Outcome.ready, enqueue_nil]

theorem cancel_eq (sound : b.ledger.Sound) (id : Uuid) (now : Timestamp) :
    (b.cancel id now).2 = b.carry (.event id (.cancel now)) := by
  unfold cancel
  cases found : b.ledger.find? id with
  | none => rw [onRun_of_missing found, carry_of_missing found]
  | some r =>
    rw [onRun_of_found sound.distinct found _ (by intro _ refused; cases refused), carry_of_found found]
    simp only [Run.handle, Outcome.ready, enqueue_nil]

theorem sweepRun_eq (sound : b.ledger.Sound) (stored : id ∈ b.ledger.ids) (now : Timestamp)
    (report : SweepReport) : ∃ report', sweepRun now id report b =
      (.ok report', if b.isOverdue id now then b.carry (.event id (.sweep now b.settings)) else b) := by
  obtain ⟨r, found⟩ := Option.isSome_iff_exists.mp (sound.consistent.mem_ids_iff.mp stored)
  simp only [sweepRun, Ledger.read, isOverdue, found, Option.any_some]
  cases r.run.overdue now with
  | false => exact ⟨report, rfl⟩
  | true =>
    rw [onRun_of_found sound.distinct found _ (by intro _ refused; cases refused), carry_of_found found]
    exact ⟨_, rfl⟩

theorem isOverdue_carry {other : Uuid} (apart : other ≠ id) (e : Event) (now : Timestamp) :
    (b.carry (.event id e)).isOverdue other now = b.isOverdue other now := by
  unfold isOverdue
  cases found : b.ledger.find? id with
  | none => rw [carry_of_missing found]
  | some r =>
    rw [carry_of_found found]
    dsimp only [enqueue]
    rw [Ledger.find?_set, if_neg apart]

theorem carry_ids (b : Broker) (id : Uuid) (e : Event) :
    (b.carry (.event id e)).ledger.ids = b.ledger.ids := by
  cases found : b.ledger.find? id with
  | none => rw [carry_of_missing found]
  | some r =>
    rw [carry_of_found found]
    exact Ledger.ids_set b.ledger id _

theorem carry_keys (b : Broker) (id : Uuid) (e : Event) :
    (b.carry (.event id e)).ledger.keys = b.ledger.keys := by
  cases found : b.ledger.find? id with
  | none => rw [carry_of_missing found]
  | some r =>
    rw [carry_of_found found]
    exact Ledger.keys_set b.ledger id _

theorem sweepRuns_eq (now : Timestamp) {ids : List Uuid} (distinct : ids.Nodup) {b : Broker}
    (sound : b.ledger.Sound) (stored : ∀ id ∈ ids, id ∈ b.ledger.ids) (report : SweepReport) :
    (sweepRuns now ids report b).2 =
      ((ids.filter (b.isOverdue · now)).map fun id => .event id (.sweep now b.settings)).foldl carry
        b := by
  induction ids generalizing b report with
  | nil => rfl
  | cons id ids ih =>
    obtain ⟨new, distinct⟩ := List.nodup_cons.mp distinct
    obtain ⟨report', swept⟩ := sweepRun_eq sound (stored id (List.mem_cons_self ..)) now report
    have stored (x) (member : x ∈ ids) := stored x (List.mem_cons_of_mem id member)
    unfold sweepRuns
    rw [swept]
    by_cases overdue : b.isOverdue id now
    · simp only [overdue, if_true, List.filter_cons, List.map_cons, List.foldl_cons]
      have sound' : (b.carry (.event id (.sweep now b.settings))).ledger.Sound :=
        sound.event ..
      rw [ih distinct sound' (by rw [carry_ids]; exact stored) report']
      have same : ids.filter ((b.carry (.event id (.sweep now b.settings))).isOverdue · now) =
          ids.filter (b.isOverdue · now) := by
        refine List.filter_congr fun x member => isOverdue_carry ?_ _ now
        intro same
        exact new (same ▸ member)
      rw [same]
      rfl
    · simp only [overdue, List.filter_cons]
      exact ih distinct sound stored report'

/-- Every request but a poll is its deeds, one after the other. -/
theorem perform_eq (sound : b.ledger.Sound) {r : Request}
    (other : ∀ worker lease now, r ≠ .poll worker lease now) :
    b.perform r = (b.deeds r).foldl carry b := by
  cases r with
  | enter r => exact enter_eq b r
  | poll worker lease now => exact absurd rfl (other worker lease now)
  | heartbeat worker step now => exact heartbeat_eq sound worker step now
  | complete step report now => exact complete_eq sound step report now
  | sweep now => exact sweepRuns_eq now sound.consistent.once sound (fun _ stored => stored) _
  | cancel id now => exact cancel_eq sound id now

end Broker

end Orchestration
