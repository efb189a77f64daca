import Orchestration.Proofs.Broker.Fifo
import Orchestration.Proofs.Broker.Polling
import Orchestration.Proofs.Run.Moves

namespace Orchestration

namespace StepStatus

def deals : StepStatus → List StepStatus
  | .ready => [.dispatched, .failed, .skipped]
  | status => status.asides

def isTaken : StepStatus → Bool
  | .dispatched | .failed | .skipped => true
  | _ => false

theorem deals_of_asides : ∀ a b c : StepStatus, b ∈ a :: a.deals → c ∈ b :: b.asides →
    c ∈ a :: a.deals := by
  decide

theorem isTaken_of_deals : ∀ a b : StepStatus, b ∈ a :: a.deals → a.isTaken → b.isTaken := by
  decide

theorem ready_or_taken_of_deals : ∀ b : StepStatus, b ∈ ready :: ready.deals → b = ready ∨ b.isTaken := by
  decide

end StepStatus

namespace Run

variable {p : Plan} {s : Run p}

theorem grant_known {id : Uuid} {i : Fin p.size} (found : s.indexOf? id = some i) (worker : String)
    (lease : Uuid) (now : Timestamp) (settings : Scheduling) :
    ∃ g, (s.grant id worker lease now settings).1 = .ok g := by
  unfold grant
  simp only [found]
  split <;> exact ⟨_, rfl⟩

theorem grant_status_mem (sound : s.Sound) (id : Uuid) (worker : String) (lease : Uuid)
    (now : Timestamp) (settings : Scheduling) (j : Fin p.size) :
    ((s.handle (.grant id worker lease now settings)).2.step j).status ∈
      (s.step j).status :: (s.step j).status.deals := by
  have call := grant_call sound id worker lease now settings
  generalize s.handle (.grant id worker lease now settings) = result at call
  cases call with
  | ignored => exact List.mem_cons_self ..
  | @heeded i r t o found change =>
    have own : t.status ∈ (s.step i).status :: (s.step i).status.deals := by
      cases change with
      | lease _ _ _ _ _ ready | reject _ _ _ _ _ ready => simp [ready, StepStatus.deals]
    have aside := (Released.step_act_aside ⟨s, []⟩ i r t now j).status_mem
    simp only [step_refresh]
    refine StepStatus.deals_of_asides _ _ _ ?_ aside
    rw [step_replace]
    split
    · subst j
      exact own
    · exact List.mem_cons_self ..

end Run

inductive PlannedRun.Reached : PlannedRun → Prop
  | fresh {r : PlannedRun} (fresh : r.Fresh) : Reached r
  | handle {r : PlannedRun} (reached : Reached r) (e : Event) :
      Reached { r with run := (r.run.handle e).2 }

theorem PlannedRun.Reached.sound {r : PlannedRun} (reached : r.Reached) : r.Sound := by
  induction reached with
  | fresh fresh => exact fresh.sound
  | handle _ e ih => exact ih.handle e

namespace Ledger

variable {l : Ledger PlannedRun} {t u : Ticket}

def knows (l : Ledger PlannedRun) (t : Ticket) : Bool := (l.status? t).isSome

def isTaken (l : Ledger PlannedRun) (t : Ticket) : Bool := (l.status? t).any (·.isTaken)

theorem knows_of_isReady (ready : l.isReady t) : l.knows t := by
  unfold knows
  rw [of_decide_eq_true ready]
  rfl

theorem knows_iff : l.knows t ↔
    ∃ r, l.find? t.run = some r ∧ ∃ i, r.run.indexOf? t.step = some i := by
  simp [knows, status?, Option.isSome_iff_exists, Option.bind_eq_some_iff, Option.map_eq_some_iff]

section Offered

variable (sound : l.Sound) (worker : String) (lease : Uuid) (now : Timestamp) (settings : Scheduling)
variable (t u : Ticket)

include sound

theorem offered_deals :
    Option.Rel (fun before after => after ∈ before :: before.deals) (l.status? u)
      ((l.perform (t.offered worker lease now settings)).2.status? u) := by
  have still (status : Option StepStatus) :
      Option.Rel (fun before after => after ∈ before :: before.deals) status status := by
    cases status with
    | none => exact .none
    | some status => exact .some (List.mem_cons_self ..)
  cases found : l.find? t.run with
  | none =>
    simp only [perform, found]
    exact still _
  | some r =>
    obtain ⟨canceled, valid⟩ := (sound.runs t.run r found).valid
    rw [perform_event found]
    dsimp only
    rw [status?_set found (Run.handle_id valid.sound valid.settled _)]
    split
    · rename_i here
      rw [status?_of_found (here ▸ found)]
      cases r.run.indexOf? u.step with
      | none => exact .none
      | some i => exact .some (Run.grant_status_mem valid.sound _ _ _ _ _ i)
    · exact still _

theorem knows_offered :
    (l.perform (t.offered worker lease now settings)).2.knows u = l.knows u := by
  have deals := offered_deals sound worker lease now settings t u
  unfold knows
  generalize l.status? u = before,
    (l.perform (t.offered worker lease now settings)).2.status? u = after at deals ⊢
  cases deals <;> rfl

theorem isTaken_offered (taken : l.isTaken u) :
    (l.perform (t.offered worker lease now settings)).2.isTaken u := by
  have deals := offered_deals sound worker lease now settings t u
  unfold isTaken at *
  generalize l.status? u = before,
    (l.perform (t.offered worker lease now settings)).2.status? u = after at deals taken ⊢
  cases deals with
  | none => exact taken
  | some moved => exact StepStatus.isTaken_of_deals _ _ moved taken

theorem ready_or_taken_offered (ready : l.isReady u) :
    (l.perform (t.offered worker lease now settings)).2.isReady u ∨
      (l.perform (t.offered worker lease now settings)).2.isTaken u := by
  have deals := offered_deals sound worker lease now settings t u
  have ready : l.status? u = some .ready := of_decide_eq_true ready
  rw [ready] at deals
  unfold isReady isTaken
  generalize (l.perform (t.offered worker lease now settings)).2.status? u = after at deals
  cases deals with
  | some moved => simpa using StepStatus.ready_or_taken_of_deals _ moved

theorem not_ready_offered :
    ¬ (l.perform (t.offered worker lease now settings)).2.isReady t := by
  cases offer sound worker lease now settings t with
  | stale held none =>
    rw [none]
    exact held
  | leased _ _ _ _ _ status => simp [isReady, status]
  | rejected _ _ _ _ _ failed => simp [isReady, failed]

end Offered

end Ledger

/-- Anything that may be done to a broker: a request, or tickets put into the queue, whatever steps they
name. -/
inductive Operation where
  | request (r : Request)
  | enqueue (run : Uuid) (steps : List Uuid)

namespace Broker

variable {b b' : Broker} {t : Ticket} {rest : List Ticket} {n : Nat}

def operate (b : Broker) : Operation → Broker
  | .request r => b.perform r
  | .enqueue run steps => b.enqueue run steps

def afterAll (b : Broker) (operations : List Operation) : Broker := operations.foldl operate b

def pollAll (b : Broker) (polls : List (String × Uuid × Timestamp)) : Broker :=
  polls.foldl (fun b (worker, lease, now) => (b.poll worker lease now).2) b

def Stuck (b : Broker) : Prop := ∀ t rest, b.queue.tickets = t :: rest → ¬ b.ledger.knows t

inductive Serves : Broker → Broker → Prop
  | serve {b : Broker} {t : Ticket} {rest : List Ticket} (queued : b.queue.tickets = t :: rest)
      (known : b.ledger.knows t) (worker : String) (lease : Uuid) (now : Timestamp) :
      Serves b (b.serve (t.offered worker lease now b.settings))

theorem Serves.sound (serves : Serves b b') (sound : b.ledger.Sound) : b'.ledger.Sound := by
  cases serves with
  | serve => exact sound.event ..

namespace Serves

variable (serves : Serves b b') (sound : b.ledger.Sound)

include serves sound

theorem knows_eq (u : Ticket) : b'.ledger.knows u = b.ledger.knows u := by
  cases serves with
  | serve => exact Ledger.knows_offered sound ..

theorem isTaken {u : Ticket} (taken : b.ledger.isTaken u) : b'.ledger.isTaken u := by
  cases serves with
  | serve => exact Ledger.isTaken_offered sound _ _ _ _ _ u taken

theorem ready_or_taken {u : Ticket} (ready : b.ledger.isReady u) :
    b'.ledger.isReady u ∨ b'.ledger.isTaken u := by
  cases serves with
  | serve => exact Ledger.ready_or_taken_offered sound _ _ _ _ _ u ready

theorem head (queued : b.queue.tickets = t :: rest) :
    b.ledger.knows t ∧ ¬ b'.ledger.isReady t := by
  cases serves with
  | @serve u rest' queued' known =>
    obtain ⟨rfl, -⟩ := List.cons.inj (queued.symm.trans queued')
    exact ⟨known, Ledger.not_ready_offered sound _ _ _ _ _⟩

end Serves

theorem turns_sound (turns : Relation.TransGen Serves b b') (sound : b.ledger.Sound) :
    b'.ledger.Sound := by
  induction turns with
  | single serves => exact serves.sound sound
  | tail _ serves ih => exact serves.sound ih

section Turn

variable (worker : String) (lease : Uuid) (now : Timestamp)

theorem turn_of_known (distinct : b.ledger.keys.Nodup) (queued : b.queue.tickets = t :: rest)
    (known : b.ledger.knows t) :
    (∃ a, b.turn worker lease now =
        .done (.ok (some a)) (b.serve (t.offered worker lease now b.settings))) ∨
      b.turn worker lease now = .again (b.serve (t.offered worker lease now b.settings)) := by
  obtain ⟨r, found, i, here⟩ := Ledger.knows_iff.mp known
  obtain ⟨g, granted⟩ := Run.grant_known here worker lease now b.settings
  rw [turn_of_found worker lease now distinct queued found, granted]
  cases g with
  | leased a => exact .inl ⟨a, rfl⟩
  | rejected | stale => exact .inr rfl

theorem turn_of_unknown (distinct : b.ledger.keys.Nodup) (queued : b.queue.tickets = t :: rest)
    (unknown : ¬ b.ledger.knows t) :
    ∃ what, (what = .record t.run ∨ what = .step t.step) ∧ ∀ worker lease now,
      b.turn worker lease now = .done (.error (.missing what)) b := by
  cases found : b.ledger.find? t.run with
  | none =>
    exact ⟨_, .inl rfl, fun worker lease now => turn_of_missing worker lease now queued found⟩
  | some r =>
    have missing : r.run.indexOf? t.step = none := by
      cases here : r.run.indexOf? t.step with
      | none => rfl
      | some i => exact absurd (Ledger.knows_iff.mpr ⟨r, found, i, here⟩) unknown
    refine ⟨_, .inr rfl, fun worker lease now => ?_⟩
    have answer := Run.grant_missing worker lease now b.settings missing
    have refused : (r.run.grant t.step worker lease now b.settings).1 =
        .error (.missing (.step t.step)) := Outcome.granted.inj (congrArg Prod.fst answer)
    rw [turn_of_found worker lease now distinct queued found, refused]

/-- A ticket that leads to no step makes every poll fail, and stays where it is. -/
theorem poll_of_unknown (distinct : b.ledger.keys.Nodup) (queued : b.queue.tickets = t :: rest)
    (unknown : ¬ b.ledger.knows t) :
    ∃ what, (what = .record t.run ∨ what = .step t.step) ∧ ∀ worker lease now,
      b.poll worker lease now = (.error (.missing what), b) := by
  obtain ⟨what, cause, turns⟩ := turn_of_unknown distinct queued unknown
  refine ⟨what, cause, fun worker lease now => ?_⟩
  unfold poll pollWithin
  rw [turns]
  rfl

theorem pollWithin_serves {fuel : Nat} {result : Except Refusal (Option Assignment) × Broker}
    (sound : b.ledger.Sound) (ended : pollWithin worker lease now fuel b = some result) :
    (b.Stuck ∧ result.2 = b) ∨ Relation.TransGen Serves b result.2 := by
  induction fuel generalizing b with
  | zero => cases ended
  | succ fuel ih =>
    unfold pollWithin at ended
    cases queued : b.queue.tickets with
    | nil =>
      rw [turn_of_empty worker lease now queued] at ended
      cases ended
      refine .inl ⟨fun u rest filled => ?_, rfl⟩
      rw [queued] at filled
      cases filled
    | cons t rest =>
      by_cases known : b.ledger.knows t
      · right
        have serves := Serves.serve queued known worker lease now
        rcases turn_of_known worker lease now sound.distinct queued known with ⟨a, turned⟩ | turned
        · rw [turned] at ended
          cases ended
          exact .single serves
        · rw [turned] at ended
          rcases ih (serves.sound sound) ended with ⟨-, same⟩ | more
          · rw [same]
            exact .single serves
          · exact .head serves more
      · left
        obtain ⟨what, -, turns⟩ := turn_of_unknown sound.distinct queued known
        rw [turns] at ended
        cases ended
        refine ⟨fun u rest' filled => ?_, rfl⟩
        rw [queued] at filled
        cases filled
        exact known

theorem poll_serves (sound : b.ledger.Sound) :
    (b.Stuck ∧ (b.poll worker lease now).2 = b) ∨
      Relation.TransGen Serves b (b.poll worker lease now).2 :=
  pollWithin_serves worker lease now sound (pollWithin_eq_poll sound.distinct)

theorem poll_sound (sound : b.ledger.Sound) : (b.poll worker lease now).2.ledger.Sound := by
  rcases poll_serves worker lease now sound with ⟨-, same⟩ | served
  · rwa [same]
  · exact turns_sound served sound

end Turn

theorem pollAll_sound (polls : List (String × Uuid × Timestamp)) (sound : b.ledger.Sound) :
    (b.pollAll polls).ledger.Sound := by
  induction polls generalizing b with
  | nil => exact sound
  | cons poll polls ih => exact ih (poll_sound _ _ _ sound)

/-- The ticket `t` stands behind `n` others, which all lead to steps. -/
def StandsAt (b : Broker) (t : Ticket) (n : Nat) : Prop :=
  ∃ earlier later, b.queue.tickets = earlier ++ t :: later ∧ (∀ u ∈ earlier, b.ledger.knows u) ∧
    earlier.length = n

theorem StandsAt.queued (stands : b.StandsAt t 0) : ∃ rest, b.queue.tickets = t :: rest := by
  obtain ⟨earlier, later, split, -, length⟩ := stands
  obtain rfl := List.length_eq_zero_iff.mp length
  exact ⟨later, split⟩

theorem StandsAt.not_stuck (stands : b.StandsAt t (n + 1)) : ¬ b.Stuck := by
  obtain ⟨earlier, later, split, known, length⟩ := stands
  cases earlier with
  | nil => cases length
  | cons u earlier => exact fun stuck => stuck u _ split (known u (List.mem_cons_self ..))

theorem Serves.standsAt (serves : Serves b b') (sound : b.ledger.Sound)
    (stands : b.StandsAt t (n + 1)) : b'.StandsAt t n := by
  obtain ⟨earlier, later, split, known, length⟩ := stands
  cases earlier with
  | nil => cases length
  | cons first earlier =>
    cases serves with
    | @serve u rest queued here worker lease now =>
      have same : u :: rest = first :: (earlier ++ t :: later) := queued.symm.trans split
      obtain ⟨rfl, rfl⟩ := List.cons.inj same
      refine ⟨earlier, later ++ (b.ledger.perform (u.offered worker lease now b.settings)).1, ?_, ?_,
        Nat.succ.inj length⟩
      · simp only [Broker.serve, carry, queued, List.tail_cons, List.append_assoc, List.cons_append]
      · intro v member
        rw [Serves.knows_eq (.serve queued here worker lease now) sound]
        exact known v (List.mem_cons_of_mem _ member)

/-- What takes `n` turns at most: every turn brings it nearer, and no turn leads away from it. -/
structure Nears (P : Nat → Broker → Prop) : Prop where
  mono : ∀ {n b}, P n b → P (n + 1) b
  serves : ∀ {n b b'}, Serves b b' → b.ledger.Sound → P n b → P (n - 1) b'
  stuck : ∀ {n b}, b.Stuck → P n b → P (n - 1) b

namespace Nears

variable {P : Nat → Broker → Prop} (nears : Nears P)

include nears

theorem turns (turns : Relation.TransGen Serves b b') (sound : b.ledger.Sound) (before : P n b) :
    P (n - 1) b' := by
  induction turns with
  | single serves => exact nears.serves serves sound before
  | tail turns serves ih =>
    have nearer := nears.serves serves (turns_sound turns sound) ih
    rcases n with _ | _ | n
    · exact nearer
    · exact nearer
    · exact nears.mono nearer

theorem poll (sound : b.ledger.Sound) (before : P n b) (worker : String) (lease : Uuid)
    (now : Timestamp) : P (n - 1) (b.poll worker lease now).2 := by
  rcases poll_serves worker lease now sound with ⟨stuck, same⟩ | served
  · rw [same]
    exact nears.stuck stuck before
  · exact nears.turns served sound before

theorem pollAll (polls : List (String × Uuid × Timestamp)) (sound : b.ledger.Sound) (before : P n b) :
    P (n - polls.length) (b.pollAll polls) := by
  induction polls generalizing b n with
  | nil => exact before
  | cons poll polls ih =>
    obtain ⟨worker, lease, now⟩ := poll
    have rest := ih (poll_sound worker lease now sound) (nears.poll sound before worker lease now)
    rwa [Nat.sub_sub, Nat.add_comm] at rest

end Nears

theorem nears_taken (t : Ticket) : Nears fun n b =>
    b.ledger.isTaken t ∨ b.ledger.isReady t ∧ ∃ m < n, b.StandsAt t m where
  mono near := near.imp_right fun ⟨ready, m, less, stands⟩ => ⟨ready, m, Nat.lt_succ_of_lt less, stands⟩
  serves := by
    intro n b b' serves sound near
    rcases near with taken | ⟨ready, m, less, stands⟩
    · exact .inl (serves.isTaken sound taken)
    · have after := serves.ready_or_taken sound ready
      cases m with
      | zero =>
        obtain ⟨rest, queued⟩ := stands.queued
        exact .inl (after.resolve_left (serves.head sound queued).2)
      | succ m =>
        rcases after with ready | taken
        · exact .inr ⟨ready, m, by omega, serves.standsAt sound stands⟩
        · exact .inl taken
  stuck := by
    intro n b stuck near
    rcases near with taken | ⟨ready, m, less, stands⟩
    · exact .inl taken
    · cases m with
      | zero =>
        obtain ⟨rest, queued⟩ := stands.queued
        exact absurd (Ledger.knows_of_isReady ready) (stuck t rest queued)
      | succ m => exact absurd stuck stands.not_stuck

theorem nears_blocked (t : Ticket) : Nears fun n b =>
    ¬ b.ledger.knows t ∧ ∃ m ≤ n, b.StandsAt t m where
  mono near := ⟨near.1, near.2.imp fun m near => ⟨Nat.le_succ_of_le near.1, near.2⟩⟩
  serves := by
    intro n b b' serves sound ⟨unknown, m, less, stands⟩
    cases m with
    | zero =>
      obtain ⟨rest, queued⟩ := stands.queued
      exact absurd (serves.head sound queued).1 unknown
    | succ m =>
      rw [serves.knows_eq sound]
      exact ⟨unknown, m, by omega, serves.standsAt sound stands⟩
  stuck := by
    intro n b stuck ⟨unknown, m, less, stands⟩
    cases m with
    | zero => exact ⟨unknown, 0, Nat.zero_le _, stands⟩
    | succ m => exact absurd stuck stands.not_stuck

section Operations

theorem carryAll_sound {deeds : List Deed} (sound : b.ledger.Sound)
    (new : ∀ r, .enter r ∈ deeds → r.Sound) : (deeds.foldl carry b).ledger.Sound := by
  induction deeds generalizing b with
  | nil => exact sound
  | cons d deeds ih =>
    have here (r) (same : d = .enter r) : r.Sound := new r (by simp [same])
    exact ih (sound.perform here) fun r member => new r (List.mem_cons_of_mem d member)

theorem operate_sound (sound : b.ledger.Sound) {o : Operation}
    (new : ∀ r, o = .request (.enter r) → r.Sound) : (b.operate o).ledger.Sound := by
  cases o with
  | enqueue => exact sound
  | request r =>
    by_cases poll : ∃ worker lease now, r = .poll worker lease now
    · obtain ⟨worker, lease, now, rfl⟩ := poll
      exact poll_sound worker lease now sound
    · have other (worker lease now) (same : r = .poll worker lease now) : False :=
        poll ⟨worker, lease, now, same⟩
      rw [operate, perform_eq sound other]
      exact carryAll_sound sound fun r' member => new r' (by rw [enter_of_mem_deeds member])

theorem afterAll_sound (sound : b.ledger.Sound) {operations : List Operation}
    (reached : ∀ r, .request (.enter r) ∈ operations → r.Reached) :
    (b.afterAll operations).ledger.Sound := by
  induction operations generalizing b with
  | nil => exact sound
  | cons o operations ih =>
    have here (r) (same : o = .request (.enter r)) : r.Sound := (reached r (by simp [same])).sound
    exact ih (operate_sound sound here) fun r member => reached r (List.mem_cons_of_mem o member)

end Operations

/-- After any operations, let all tickets ahead of `t` lead to steps. If `t` is of a ready step, as many
polls as there are tickets up to `t` take it out of its place: it is handed out, rejected or skipped.
If `t` leads to no step, then after those ahead of it are dealt with no poll does anything any more,
and each fails for want of `t`. -/
theorem blocked_after (settings : Scheduling) {operations : List Operation}
    (reached : ∀ r, .request (.enter r) ∈ operations → r.Reached) :
    let b := (new settings).afterAll operations
    ∀ earlier t later, b.queue.tickets = earlier ++ t :: later →
      (∀ u ∈ earlier, b.ledger.knows u) → ∀ polls,
      let b' := b.pollAll polls
      (b.ledger.isReady t → earlier.length < polls.length → b'.ledger.isTaken t) ∧
        (¬ b.ledger.knows t → earlier.length ≤ polls.length →
          ∃ what, (what = .record t.run ∨ what = .step t.step) ∧ ∀ worker lease now,
            b'.poll worker lease now = (.error (.missing what), b')) := by
  intro b earlier t later split known polls b'
  have sound : b.ledger.Sound := afterAll_sound .empty reached
  have stands : b.StandsAt t earlier.length := ⟨earlier, later, split, known, rfl⟩
  constructor
  · intro ready enough
    have near := (nears_taken t).pollAll polls sound
      (.inr ⟨ready, earlier.length, Nat.lt_succ_self _, stands⟩)
    rcases near with taken | ⟨-, m, less, -⟩
    · exact taken
    · omega
  · intro unknown enough
    have near := (nears_blocked t).pollAll polls sound
      ⟨unknown, earlier.length, Nat.le_refl _, stands⟩
    obtain ⟨unknown', m, less, stands'⟩ := near
    obtain rfl : m = 0 := by omega
    obtain ⟨rest, queued⟩ := stands'.queued
    exact poll_of_unknown (pollAll_sound polls sound).distinct queued unknown'

/-- Between the steps of two runs stands a ticket that leads to no run. The first step is handed out, and
the other one stays ready. -/
theorem blocked_after_stray :
    let operations : List Operation :=
      [.request (.enter (.pair (.ofNat 10) 0)), .enqueue (.ofNat 10) [.ofNat 0],
        .enqueue (.ofNat 8) [.ofNat 9], .request (.enter (.pair (.ofNat 11) 2))]
    let b := (new default).afterAll operations
    let first : Ticket := ⟨.ofNat 10, .ofNat 0⟩
    let stray : Ticket := ⟨.ofNat 8, .ofNat 9⟩
    let last : Ticket := ⟨.ofNat 11, .ofNat 2⟩
    let polls := [("worker", Uuid.ofNat 20, Timestamp.epoch), ("worker", .ofNat 21, .epoch)]
    let b' := b.pollAll polls
    (∀ r, .request (.enter r) ∈ operations → r.Reached) ∧
      b.queue.tickets = [first, first, stray, last] ∧ b.ledger.isReady first ∧
      b.ledger.isReady last ∧ ¬ b.ledger.knows stray ∧ b'.ledger.isTaken first ∧
      b'.ledger.isReady last ∧
      ∃ what, (what = .record stray.run ∨ what = .step stray.step) ∧ ∀ worker lease now,
        b'.poll worker lease now = (.error (.missing what), b') := by
  intro operations b first stray last polls b'
  have reached (r : PlannedRun) (member : .request (.enter r) ∈ operations) : r.Reached := by
    simp only [operations, List.mem_cons, Operation.request.injEq, Request.enter.injEq, reduceCtorEq,
      List.not_mem_nil, false_or, or_false] at member
    rcases member with rfl | rfl
    · exact .fresh (.start Plan.pair_built (RunRecord.queued_fresh ..) _ (by decide +kernel))
    · exact .fresh (.start Plan.pair_built (RunRecord.queued_fresh ..) _ (by decide +kernel))
  have tickets : b.queue.tickets = [first, first, stray, last] := by decide +kernel
  have ready : b.ledger.isReady first := by decide +kernel
  have known : ∀ t ∈ [first, first], b.ledger.knows t := by decide +kernel
  have unknown : ¬ b.ledger.knows stray := by decide +kernel
  have taken := (blocked_after default reached [] first _ tickets (by simp) polls).1 ready (by decide)
  have blocked := (blocked_after default reached [first, first] stray _ tickets known polls).2 unknown
    (by decide)
  exact ⟨reached, tickets, ready, by decide +kernel, unknown, taken, by decide +kernel, blocked⟩

end Broker

end Orchestration
