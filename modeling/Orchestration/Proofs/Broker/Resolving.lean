import Orchestration.Proofs.Broker.Fifo
import Orchestration.Proofs.Ledger.History

namespace Orchestration

namespace Run

variable {p : Plan} {s : Run p}

theorem mem_stepIds {id : Uuid} : id ∈ s.stepIds ↔ ∃ i, (s.step i).id = id := by
  rw [stepIds, List.mem_map, exists_steps]

theorem handle_stepIds (sound : s.Sound) (settled : s.nextStatus? = none) (e : Event) :
    (s.handle e).2.stepIds = s.stepIds := by
  unfold stepIds
  rw [steps_eq_map, steps_eq_map, List.map_map, List.map_map]
  exact List.map_congr_left fun i _ => handle_id sound settled e i

theorem renew_known {id : Uuid} {i : Fin p.size} (found : s.indexOf? id = some i) (worker : String)
    (now : Timestamp) (settings : Scheduling) :
    (∃ renewal, (s.renew id worker now settings).1 = .ok renewal) ∨
      (s.renew id worker now settings).1 = .error (.leaseLost id worker) := by
  cases held : s.heldBy i worker now with
  | false => simp only [renew, found, held, Bool.not_false, if_true, or_true]
  | true =>
    obtain ⟨flying, l, leased, rfl, alive⟩ := heldBy_iff.mp held
    rw [renew_eq found flying leased alive]
    split <;> exact .inl ⟨_, rfl⟩

theorem accept_known {id : Uuid} {i : Fin p.size} (found : s.indexOf? id = some i) (report : Report)
    (now : Timestamp) (settings : Scheduling) :
    ∃ receipt, (s.accept id report now settings).1 = .ok receipt := by
  unfold accept
  simp only [found]
  split
  · exact ⟨_, rfl⟩
  · split <;> exact ⟨_, rfl⟩

end Run

namespace PlannedRun

def entry (r : PlannedRun) : Ledger.Entry PlannedRun := ⟨r.record.id, r, r.run.stepIds⟩

structure Continues (r r' : PlannedRun) : Prop where
  plan : r'.plan = r.plan
  submitted : r'.record.submitted = r.record.submitted
  stepIds : r'.run.stepIds = r.run.stepIds

theorem Continues.handle {r r' : PlannedRun} (continues : r.Continues r') (sound : r'.Sound)
    (e : Event) : r.Continues { r' with run := (r'.run.handle e).2 } := by
  obtain ⟨canceled, valid⟩ := sound.valid
  constructor
  case plan => exact continues.plan
  case submitted => exact (Run.handle_submitted valid.sound valid.settled e).trans continues.submitted
  case stepIds => exact (Run.handle_stepIds valid.sound valid.settled e).trans continues.stepIds

end PlannedRun

namespace Ledger

variable {l l' : Ledger PlannedRun} {admitted : List PlannedRun} {r r' : PlannedRun} {step : Uuid}

structure Admits (l : Ledger PlannedRun) (admitted : List PlannedRun) : Prop where
  holds : l.Holds (admitted.map PlannedRun.entry)
  stored : ∀ r ∈ admitted, ∃ r', l.find? r.record.id = some r' ∧ r.Continues r'

namespace Admits

theorem empty : Admits .empty [] := ⟨.empty, fun _ member => nomatch member⟩

theorem resolve?_iff (admits : l.Admits admitted) {id : Uuid} :
    l.resolve? step = some id ↔ ∃ r ∈ admitted, r.record.id = id ∧ step ∈ r.run.stepIds := by
  rw [← resolve_eq_ok_iff, admits.holds.resolves]
  simp only [List.mem_map, exists_exists_and_eq_and, PlannedRun.entry]

theorem resolve?_eq_none_iff (admits : l.Admits admitted) :
    l.resolve? step = none ↔ ∀ r ∈ admitted, step ∉ r.run.stepIds := by
  constructor
  · intro free r member has
    cases free.symm.trans (admits.resolve?_iff.mpr ⟨r, member, rfl, has⟩)
  · intro absent
    apply Option.eq_none_iff_forall_ne_some.mpr
    intro id bound
    obtain ⟨r, member, -, has⟩ := admits.resolve?_iff.mp bound
    exact absent r member has

theorem mem_ids (admits : l.Admits admitted) {id : Uuid} :
    id ∈ l.ids ↔ ∃ r ∈ admitted, r.record.id = id := by
  rw [admits.holds.ids, List.map_map, List.mem_map]
  rfl

theorem eq_of_id (admits : l.Admits admitted) (here : r ∈ admitted) (there : r' ∈ admitted)
    (same : r.record.id = r'.record.id) : r = r' := by
  have once := admits.holds.once
  rw [admits.holds.ids, List.map_map] at once
  exact List.inj_on_of_nodup_map once here there same

theorem enter (admits : l.Admits admitted) (consistent : l.Consistent)
    (inserts : l.Inserts l' r.record.id r r.run.stepIds) : l'.Admits (admitted ++ [r]) := by
  constructor
  case holds =>
    rw [List.map_append]
    exact admits.holds.insert consistent inserts
  case stored =>
    intro r₁ member
    rw [inserts.find?]
    split
    · rename_i same
      rcases List.mem_append.mp member with old | new
      · have taken := admits.mem_ids.mpr ⟨r₁, old, same⟩
        rw [consistent.mem_ids_iff, inserts.free] at taken
        cases taken
      · cases List.mem_singleton.mp new
        exact ⟨r, rfl, rfl, rfl, rfl⟩
    · rename_i other
      rcases List.mem_append.mp member with old | new
      · exact admits.stored r₁ old
      · cases List.mem_singleton.mp new
        exact absurd rfl other

theorem event (admits : l.Admits admitted) (sound : l.Sound) (id : Uuid) (e : Event) :
    (l.perform (.event id e)).2.Admits admitted := by
  unfold Ledger.perform
  dsimp only
  split
  · exact admits
  · rename_i r found
    constructor
    case holds => exact admits.holds.set _ _
    case stored =>
      intro r₁ member
      rw [find?_set]
      split
      · rename_i same
        obtain ⟨r', found', continues⟩ := admits.stored r₁ member
        rw [same, found] at found'
        cases found'
        rw [found]
        exact ⟨_, rfl, continues.handle (sound.runs id r found) e⟩
      · exact admits.stored r₁ member

theorem after (admits : l.Admits admitted) (sound : l.Sound) {deeds : List Deed}
    (events : ∀ r, .enter r ∉ deeds) : (l.after deeds).Admits admitted := by
  induction deeds generalizing l with
  | nil => exact admits
  | cons d deeds ih =>
    cases d with
    | enter r => exact absurd (List.mem_cons_self ..) (events r)
    | event id e =>
      have sound' : (l.perform (.event id e)).2.Sound := sound.perform fun _ same => nomatch same
      apply ih (admits.event sound id e) sound'
      exact fun r member => events r (List.mem_cons_of_mem _ member)

theorem known (admits : l.Admits admitted) (sound : l.Sound) (member : r ∈ admitted)
    (has : step ∈ r.run.stepIds) :
    l.resolve? step = some r.record.id ∧
      ∃ r', l.find? r.record.id = some r' ∧ ∃ i, r'.run.indexOf? step = some i := by
  apply And.intro (admits.resolve?_iff.mpr ⟨r, member, rfl, has⟩)
  obtain ⟨r', found, continues⟩ := admits.stored r member
  rw [← continues.stepIds] at has
  obtain ⟨i, rfl⟩ := Run.mem_stepIds.mp has
  exact ⟨r', found, i, Run.indexOf?_self (sound.runs _ r' found).distinct i⟩

theorem insert_fails_iff (admits : l.Admits admitted) (consistent : l.Consistent) :
    (∃ why, (l.insert r.record.id r r.run.stepIds).1 = .error why) ↔
      (∃ r' ∈ admitted, r'.record.id = r.record.id) ∨
        ∃ r' ∈ admitted, ∃ step ∈ r.run.stepIds, step ∈ r'.run.stepIds := by
  rw [insert_eq_error_iff consistent, admits.mem_ids]
  apply or_congr_right
  simp only [resolve_eq_ok_iff, admits.resolve?_iff]
  constructor
  · rintro ⟨step, has, -, r', member, -, has'⟩
    exact ⟨r', member, step, has, has'⟩
  · rintro ⟨r', member, step, has, has'⟩
    exact ⟨step, has, _, r', member, rfl, has'⟩

end Admits

end Ledger

namespace Broker

def admission? (b : Broker) : Request → Option PlannedRun
  | .enter r =>
    match (b.enter r).1 with
    | .ok _ => some r
    | .error _ => none
  | _ => none

def admitted (b : Broker) : List Request → List PlannedRun
  | [] => []
  | request :: requests => (b.admission? request).toList ++ (b.perform request).admitted requests

/-- From `b` to `b'` no run changed but the one that has `step`, and only steps of that were queued. -/
structure Spares (b b' : Broker) (admitted : List PlannedRun) (step : Uuid) : Prop where
  ids : b'.ledger.ids = b.ledger.ids
  aliases : b'.ledger.aliases = b.ledger.aliases
  unknown : (∀ r ∈ admitted, step ∉ r.run.stepIds) → b' = b
  others : ∀ r ∈ admitted, step ∉ r.run.stepIds →
    b'.ledger.find? r.record.id = b.ledger.find? r.record.id
  queue : ∃ woken, b'.queue.tickets = b.queue.tickets ++ woken ∧
    ∀ t ∈ woken, ∃ r ∈ admitted, r.record.id = t.run ∧ step ∈ r.run.stepIds

structure Answers (b : Broker) (admitted : List PlannedRun) : Prop where
  poll : ∀ worker lease now, ∃ answer, (b.poll worker lease now).1 = .ok answer
  heartbeat : ∀ worker step now,
    (∃ what, (b.heartbeat worker step now).1 = .error (.missing what)) ↔
      ∀ r ∈ admitted, step ∉ r.run.stepIds
  complete : ∀ step report now,
    (∃ what, (b.complete step report now).1 = .error (.missing what)) ↔
      ∀ r ∈ admitted, step ∉ r.run.stepIds
  completes : ∀ r ∈ admitted, ∀ step ∈ r.run.stepIds, ∀ report now,
    ∃ receipt, (b.complete step report now).1 = .ok receipt
  heartbeatSpares : ∀ worker step now, b.Spares (b.heartbeat worker step now).2 admitted step
  completeSpares : ∀ step report now, b.Spares (b.complete step report now).2 admitted step
  enter : ∀ r, (∃ why, (b.enter r).1 = .error why) ↔
    (∃ r' ∈ admitted, r'.record.id = r.record.id) ∨
      ∃ r' ∈ admitted, ∃ step ∈ r.run.stepIds, step ∈ r'.run.stepIds
  refused : ∀ r why, (b.enter r).1 = .error why → (b.enter r).2 = b

variable {b : Broker} {past : List Deed} {admitted : List PlannedRun} {r : PlannedRun} {step : Uuid}

theorem enter_fails_iff (b : Broker) (r : PlannedRun) : (∃ why, (b.enter r).1 = .error why) ↔
    ∃ why, (b.ledger.insert r.record.id r r.run.stepIds).1 = .error why := by
  rcases b.enter_cases r with ⟨why, inserted, entered⟩ | ⟨l', inserted, entered⟩
  all_goals simp [inserted, entered]

theorem Follows.admits (follows : b.Follows past) (admits : b.ledger.Admits admitted) {request : Request}
    (fresh : ∀ r, request = .enter r → r.Fresh) :
    (b.perform request).ledger.Admits (admitted ++ (b.admission? request).toList) := by
  have replay : (b.perform request).ledger = b.ledger.after (b.deeds request) := by
    rw [(follows.perform fresh).replay, Ledger.after_append, ← follows.replay]
  by_cases entering : ∃ r, request = .enter r
  · obtain ⟨r, rfl⟩ := entering
    rcases b.enter_cases r with ⟨why, inserted, entered⟩ | ⟨l', inserted, entered⟩
    · simp only [Broker.perform, admission?, entered]
      rwa [Option.toList_none, List.append_nil]
    · simp only [Broker.perform, admission?, entered]
      exact admits.enter follows.sound.consistent (Ledger.inserts_of_insert inserted)
  · have none : b.admission? request = none := by
      cases request with
      | enter r => exact absurd ⟨r, rfl⟩ entering
      | _ => rfl
    rw [replay, none, Option.toList_none, List.append_nil]
    apply admits.after follows.sound
    exact fun r member => entering ⟨r, enter_of_mem_deeds member⟩

theorem Follows.admits_after (follows : b.Follows past) (admits : b.ledger.Admits admitted)
    {requests : List Request} (fresh : ∀ r, .enter r ∈ requests → r.Fresh) :
    (b.after requests).ledger.Admits (admitted ++ b.admitted requests) := by
  induction requests generalizing b past admitted with
  | nil => rwa [Broker.admitted, List.append_nil]
  | cons request requests ih =>
    have here (r) (same : request = .enter r) : r.Fresh := fresh r (by simp [same])
    have rest := ih (follows.perform here) (follows.admits admits here) fun r member =>
      fresh r (List.mem_cons_of_mem _ member)
    rwa [List.append_assoc] at rest

theorem spares (admits : b.ledger.Admits admitted) (step : Uuid) (e : Event) :
    b.Spares (((b.ledger.resolve? step).toList.map fun id => .event id e).foldl carry b) admitted
      step := by
  cases resolved : b.ledger.resolve? step with
  | none =>
    exact ⟨rfl, rfl, fun _ => rfl, fun _ _ _ => rfl, [], (List.append_nil _).symm, nofun⟩
  | some id =>
    obtain ⟨r, member, rfl, has⟩ := admits.resolve?_iff.mp resolved
    obtain ⟨r', found, -⟩ := admits.stored r member
    rw [Option.toList_some, List.map_singleton, List.foldl_cons, List.foldl_nil, carry_of_found found]
    constructor
    case ids => exact Ledger.ids_set ..
    case aliases => rfl
    case unknown => exact fun unknown => absurd has (unknown r member)
    case others =>
      intro other member' lacks
      have apart : other.record.id ≠ r.record.id := by
        intro same
        rw [admits.eq_of_id member' member same] at lacks
        exact lacks has
      dsimp only [enqueue]
      rw [Ledger.find?_set, if_neg apart]
    case queue =>
      refine ⟨_, rfl, fun t named => ?_⟩
      obtain ⟨_, -, rfl⟩ := List.mem_map.mp named
      exact ⟨r, member, rfl, has⟩

section Known

variable (sound : b.ledger.Sound) (admits : b.ledger.Admits admitted)

include sound admits

theorem heartbeat_known (member : r ∈ admitted) (has : step ∈ r.run.stepIds) (worker : String)
    (now : Timestamp) (what : Missing) :
    (b.heartbeat worker step now).1 ≠ .error (.missing what) := by
  obtain ⟨resolved, r', found, i, here⟩ := admits.known sound member has
  have run := onRun_of_found sound.distinct found (fun s => s.renew step worker now b.settings)
    fun why => Run.renew_of_error
  simp only [heartbeat, runOf, resolved, run]
  rcases Run.renew_known here worker now b.settings with ⟨⟨l⟩ | ⟨status⟩, answered⟩ | lost
  · simp [answered]
  · simp [answered]
  · simp [lost]

theorem complete_known (member : r ∈ admitted) (has : step ∈ r.run.stepIds) (report : Report)
    (now : Timestamp) : ∃ receipt, (b.complete step report now).1 = .ok receipt := by
  obtain ⟨resolved, r', found, i, here⟩ := admits.known sound member has
  have run := onRun_of_found sound.distinct found (fun s => s.accept step report now b.settings)
    fun why => Run.accept_of_error
  obtain ⟨receipt, answered⟩ := Run.accept_known here report now b.settings
  exists receipt
  simp only [complete, runOf, resolved, run, answered]
  cases receipt <;> rfl

end Known

theorem Follows.answers (follows : b.Follows past) (admits : b.ledger.Admits admitted) :
    b.Answers admitted := by
  have sound := follows.sound
  constructor
  case poll => exact fun worker lease now => (follows.pollsInOrder worker lease now).answers
  case heartbeat =>
    intro worker step now
    constructor
    · rintro ⟨what, missing⟩ r member has
      exact heartbeat_known sound admits member has worker now what missing
    · intro unknown
      have unresolved := admits.resolve?_eq_none_iff.mpr unknown
      simp [Broker.heartbeat, runOf, unresolved]
  case complete =>
    intro step report now
    constructor
    · rintro ⟨what, missing⟩ r member has
      obtain ⟨receipt, answered⟩ := complete_known sound admits member has report now
      cases answered.symm.trans missing
    · intro unknown
      have unresolved := admits.resolve?_eq_none_iff.mpr unknown
      simp [Broker.complete, runOf, unresolved]
  case completes => exact fun r member step has => complete_known sound admits member has
  case heartbeatSpares =>
    intro worker step now
    rw [heartbeat_eq sound]
    exact spares admits step _
  case completeSpares =>
    intro step report now
    rw [complete_eq sound]
    exact spares admits step _
  case enter =>
    intro r
    rw [enter_fails_iff, admits.insert_fails_iff sound.consistent]
  case refused =>
    intro r why refused
    rcases b.enter_cases r with ⟨_, -, entered⟩ | ⟨l', -, entered⟩
    · rw [entered]
    · rw [entered] at refused
      cases refused

/-- After any requests a step id leads to the run that was admitted with it, and to no other. No poll
fails. Calls for a step are refused for want of it only where no admitted run has it, and concern no run
but that which has it. A run is refused, without a trace, if its id or one of its steps is known. -/
theorem resolves_after (settings : Scheduling) {requests : List Request}
    (fresh : ∀ r, .enter r ∈ requests → r.Fresh) :
    let b := (new settings).after requests
    let admitted := (new settings).admitted requests
    b.ledger.Admits admitted ∧ b.Answers admitted := by
  intro b admitted
  have follows : b.Follows _ := (Follows.new settings).after fresh
  have admits : b.ledger.Admits admitted := (Follows.new settings).admits_after .empty fresh
  exact ⟨admits, follows.answers admits⟩

/-- A run that is entered again is refused, and its steps lead to it as before. -/
theorem resolves_after_again :
    let first := PlannedRun.pair (.ofNat 10) 0
    let second := PlannedRun.pair (.ofNat 11) 2
    let requests : List Request :=
      [.enter first, .enter second, .poll "worker" (.ofNat 20) .epoch, .enter first]
    let b := (new default).after requests
    let admitted := (new default).admitted requests
    (∀ r, .enter r ∈ requests → r.Fresh) ∧ b.ledger.ids = [.ofNat 10, .ofNat 11] ∧
      b.ledger.resolve? (.ofNat 3) = some (.ofNat 11) ∧ b.ledger.Admits admitted ∧
      b.Answers admitted := by
  intro first second requests b admitted
  have fresh (r : PlannedRun) (member : .enter r ∈ requests) : r.Fresh := by
    simp only [requests, List.mem_cons, Request.enter.injEq, reduceCtorEq, List.not_mem_nil, false_or,
      or_false] at member
    rcases member with rfl | rfl | rfl
    · exact .start Plan.pair_built (RunRecord.queued_fresh ..) _ (by decide +kernel)
    · exact .start Plan.pair_built (RunRecord.queued_fresh ..) _ (by decide +kernel)
    · exact .start Plan.pair_built (RunRecord.queued_fresh ..) _ (by decide +kernel)
  exact ⟨fresh, by decide +kernel, by decide +kernel, resolves_after default fresh⟩

end Broker

end Orchestration
