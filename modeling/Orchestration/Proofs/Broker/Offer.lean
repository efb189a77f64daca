import Orchestration.Proofs.Broker.Carry

namespace Orchestration

namespace Run

variable {p : Plan} {s s' : Run p} {id : Uuid} {worker : String} {lease : Uuid} {now : Timestamp}
variable {settings : Scheduling}

theorem reject_pending_le {i : Fin p.size} (active : s.isActive) (why : Refusal) (now : Timestamp) :
    PlannedRun.pendingCount ⟨p, (s.reject i why now).2⟩ +
        (Outcome.granted (.ok (s.reject i why now).1)).ready.length ≤
      PlannedRun.pendingCount ⟨p, s⟩ := by
  rw [reject_eq why now active]
  let t : Step := { s.step i with status := .failed, error := some why.message, endedAt := some now }
  obtain ⟨woken, releases⟩ := Released.failed_releases ⟨s, []⟩ (t := t) s.record now rfl rfl
  have fewer := (releases.congr fun j => step_refresh _ now j).pending_le
  have named := congrArg List.length releases.named
  rw [List.nil_append, List.length_map] at named
  rw [← named] at fewer
  exact fewer

theorem grant_pending_le {g : Grant} (answer : s.grant id worker lease now settings = (.ok g, s'))
    (kept : ∀ a, g ≠ .leased a) :
    PlannedRun.pendingCount ⟨p, s'⟩ + (Outcome.granted (.ok g)).ready.length ≤
      PlannedRun.pendingCount ⟨p, s⟩ := by
  unfold grant at answer
  split at answer
  · cases answer
  · rename_i i found
    split at answer
    · cases answer
      exact Nat.le_refl _
    · rename_i free
      have free : s.isActive := by
        by_contra stopped
        exact free (by simp [stopped])
      cases budget : s.record.overBudget? s.reserved (p.node i) with
      | some why =>
        rw [budget] at answer
        cases answer
        exact reject_pending_le free why now
      | none =>
        rw [budget] at answer
        cases answer
        exact absurd rfl (kept _)

end Run

namespace Ledger

variable {l : Ledger PlannedRun} {id : Uuid} {r : PlannedRun} {t : Ticket}

def pendingCount (l : Ledger PlannedRun) : Nat :=
  l.records.foldr (fun entry n => entry.2.pendingCount + n) 0

theorem pendingCount_set (distinct : l.keys.Nodup) (found : l.find? id = some r) (r' : PlannedRun) :
    (l.set id r').pendingCount + r.pendingCount = l.pendingCount + r'.pendingCount :=
  total_set distinct PlannedRun.pendingCount found r'

def answer? (l : Ledger PlannedRun) : Deed → Option Outcome
  | .enter _ => none
  | .event id e => (l.find? id).map fun r => (r.run.handle e).1

/-- How it goes when `d` offers the step of `t` to a worker. -/
inductive Offer (l : Ledger PlannedRun) (t : Ticket) (d : Deed) : Prop
  | stale (held : ¬ l.isReady t) (none : l.perform d = ([], l))
      (answer : l.isQueueable t → l.answer? d = some (.granted (.ok .stale)))
  | leased (ready : l.isReady t) (none : (l.perform d).1 = []) (a : Assignment)
      (answer : l.answer? d = some (.granted (.ok (.leased a)))) (same : a.step.id = t.step)
      (status : ∀ u, (l.perform d).2.status? u = if u = t then some .dispatched else l.status? u)
  | rejected (ready : l.isReady t) (why : Refusal) (names : List Uuid)
      (answer : l.answer? d = some (.granted (.ok (.rejected why names))))
      (releases : l.Releases (l.perform d).2 (l.perform d).1)
      (failed : (l.perform d).2.status? t = some .failed)
      (fewer : (l.perform d).2.pendingCount + (l.perform d).1.length ≤ l.pendingCount)

theorem perform_event (found : l.find? id = some r) (e : Event) :
    l.perform (.event id e) = ((r.run.handle e).1.ready.map (⟨id, ·⟩),
      l.set id { r with run := (r.run.handle e).2 }) := by
  simp only [perform, found]

theorem offered_pending_le {worker : String} {lease : Uuid} {now : Timestamp} {settings : Scheduling}
    {g : Grant} {s : Run r.plan} (distinct : l.keys.Nodup) (found : l.find? t.run = some r)
    (answer : r.run.grant t.step worker lease now settings = (.ok g, s)) (kept : ∀ a, g ≠ .leased a) :
    let performed := l.perform (t.offered worker lease now settings)
    performed.2.pendingCount + performed.1.length ≤ l.pendingCount := by
  have fewer := Run.grant_pending_le answer kept
  have moved := pendingCount_set distinct found { r with run := s }
  rw [perform_event found]
  simp only [Run.handle, answer, List.length_map]
  change PlannedRun.pendingCount ⟨r.plan, s⟩ + _ ≤ r.pendingCount at fewer
  omega

theorem status?_set_one (found : l.find? t.run = some r) {i : Fin r.plan.size}
    (here : r.run.indexOf? t.step = some i) {s : Run r.plan} {status : StepStatus}
    (steps : ∀ j, (s.step j).id = (r.run.step j).id ∧
      (s.step j).status = if j = i then status else (r.run.step j).status) (u : Ticket) :
    (l.set t.run { r with run := s }).status? u = if u = t then some status else l.status? u := by
  rw [status?_set found fun j => (steps j).1]
  simp only [(steps _).2]
  by_cases run : u.run = t.run
  · rw [if_pos run, status?_of_found (run ▸ found)]
    cases there : r.run.indexOf? u.step with
    | none =>
      have other : u ≠ t := by
        rintro rfl
        cases here.symm.trans there
      simp [other]
    | some j =>
      have same : j = i ↔ u = t := by
        constructor
        · rintro rfl
          have step := (Run.indexOf?_eq_some_iff.mp there).1
          rw [(Run.indexOf?_eq_some_iff.mp here).1] at step
          cases u
          cases t
          simp_all
        · rintro rfl
          exact Option.some.inj (there.symm.trans here)
      simp only [Option.map_some, same]
      split <;> rfl
  · have other : u ≠ t := fun same => run (congrArg Ticket.run same)
    rw [if_neg run, if_neg other]

theorem perform_of_ignored (sound : l.Sound) (found : l.find? id = some r) {e : Event} {o : Outcome}
    (answer : r.run.handle e = (o, r.run)) (none : o.ready = []) :
    l.perform (.event id e) = ([], l) := by
  rw [perform_event found, answer, none]
  dsimp only
  rw [set_eq_self sound.distinct found]
  rfl

theorem Offer.of_unknown {d : Deed} (unknown : l.status? t = none) (none : l.perform d = ([], l)) :
    l.Offer t d := by
  apply Offer.stale _ none
  · intro stands
    rw [isQueueable, unknown] at stands
    cases stands
  · rw [isReady, unknown]
    decide

section Offered

variable (sound : l.Sound) (worker : String) (lease : Uuid) (now : Timestamp) (settings : Scheduling)

include sound

theorem offer_of_ready (found : l.find? t.run = some r) {i : Fin r.plan.size}
    (here : r.run.indexOf? t.step = some i) (ready : (r.run.step i).status = .ready) :
    l.Offer t (t.offered worker lease now settings) := by
  obtain ⟨canceled, valid⟩ := (sound.runs t.run r found).valid
  have isReady : l.isReady t := by
    rw [Ledger.isReady, status?_of_found found, here, Option.map_some, ready]
    rfl
  rcases answer : r.run.handle (.grant t.step worker lease now settings) with ⟨o, s⟩
  have performed := perform_event found (.grant t.step worker lease now settings)
  rw [answer] at performed
  have answered : l.answer? (t.offered worker lease now settings) = some o := by
    rw [answer?, found, Option.map_some, answer]
  rcases Run.grant_taken valid.sound worker lease now settings here ready answer with
    ⟨a, rfl, same, steps⟩ | ⟨why, names, woken, rfl, failed, releases⟩
  · apply Offer.leased isReady _ a answered same
    · rw [performed]
      exact status?_set_one found here steps
    · rw [performed]
      rfl
  · apply Offer.rejected isReady why names answered
    case releases =>
      rw [performed]
      exact Releases.of_run sound found releases.weaken
    case failed =>
      rw [performed]
      dsimp only
      rw [status?_set found releases.ids, if_pos rfl, here, Option.map_some, failed]
    case fewer =>
      rcases granted : r.run.grant t.step worker lease now settings with ⟨result, s'⟩
      simp only [Run.handle, granted] at answer
      cases answer
      exact offered_pending_le sound.distinct found granted (by simp)

theorem offer (t : Ticket) : l.Offer t (t.offered worker lease now settings) := by
  cases found : l.find? t.run with
  | none =>
    have unknown : l.status? t = none := by rw [status?, found, Option.bind_none]
    exact .of_unknown unknown (by simp only [perform, found])
  | some r =>
    have before := status?_of_found found
    cases here : r.run.indexOf? t.step with
    | none =>
      rw [here] at before
      have answer := Run.grant_missing worker lease now settings here
      exact .of_unknown before (perform_of_ignored sound found answer rfl)
    | some i =>
      by_cases ready : (r.run.step i).status = .ready
      · exact offer_of_ready sound worker lease now settings found here ready
      · have answer := Run.grant_stale worker lease now settings here ready
        have answered : l.answer? (t.offered worker lease now settings) =
            some (.granted (.ok .stale)) := by
          rw [answer?, found, Option.map_some, answer]
        have held : ¬ l.isReady t := by
          rw [here, Option.map_some] at before
          rw [isReady, before]
          simpa using ready
        exact .stale held (perform_of_ignored sound found answer rfl) fun _ => answered

end Offered

theorem count_of_woken (sound : l.Sound) {d : Deed} (fresh : ∀ r, d = .enter r → r.Fresh)
    (before : ¬ l.isReady t) (after : (l.perform d).2.isReady t) : (l.perform d).1.count t = 1 := by
  have of_releases (releases : l.Releases (l.perform d).2 (l.perform d).1) :
      (l.perform d).1.count t = 1 := by
    have named := (releases.all t after).resolve_left before
    exact List.count_eq_one_of_mem releases.nodup named
  by_cases grants : d.grants
  · cases d with
    | enter => cases grants
    | event id e =>
      cases e with
      | grant step worker lease now settings =>
        cases offer sound worker lease now settings ⟨id, step⟩ with
        | stale held none =>
          rw [none] at after
          exact absurd after before
        | leased ready none a answer same status =>
          unfold isReady at *
          rw [status] at after
          split at after
          · cases after
          · exact absurd after before
        | rejected ready why names answer releases => exact of_releases releases
      | _ => cases grants
  · exact of_releases (perform_releases sound (Bool.eq_false_iff.mpr grants) fresh)

end Ledger

namespace Broker

variable {b : Broker} {t : Ticket} {rest : List Ticket}

def serve (b : Broker) (d : Deed) : Broker := { b with queue := ⟨b.queue.tickets.tail⟩ }.carry d

section Turn

variable (worker : String) (lease : Uuid) (now : Timestamp)

theorem offer_of_missing (missing : b.ledger.find? t.run = none) :
    b.offer t worker lease now =
      .done (.error (.missing (.record t.run))) { b with queue := b.queue.pushFront t } := by
  unfold offer
  rw [onRun_of_missing missing]
  rfl

/-- A ticket that is offered is used up, unless the run has no such step: then it is put back. -/
theorem offer_of_found {r : PlannedRun} (distinct : b.ledger.keys.Nodup)
    (found : b.ledger.find? t.run = some r) :
    b.offer t worker lease now =
      match (r.run.grant t.step worker lease now b.settings).1 with
      | .ok (.leased a) => .done (.ok (some a)) (b.carry (t.offered worker lease now b.settings))
      | .ok _ => .again (b.carry (t.offered worker lease now b.settings))
      | .error why => .done (.error why) { b with queue := b.queue.pushFront t } := by
  have carried := carry_of_found found (.grant t.step worker lease now b.settings)
  unfold offer Ticket.offered
  rw [onRun_of_found distinct found
    (fun run => run.grant t.step worker lease now b.settings) fun why => Run.grant_of_error, carried]
  simp only [Run.handle]
  cases result : (r.run.grant t.step worker lease now b.settings).1 with
  | ok granted =>
    cases granted with
    | leased | stale => simp only [Outcome.ready, enqueue_nil]
    | rejected => rfl
  | error why =>
    dsimp only
    rw [Run.grant_of_error result, Ledger.set_eq_self distinct found]

theorem turn_of_empty (empty : b.queue.tickets = []) :
    b.turn worker lease now = .done (.ok none) b := by
  simp only [turn, Queue.pop?, empty]

theorem turn_of_missing (queued : b.queue.tickets = t :: rest)
    (missing : b.ledger.find? t.run = none) :
    b.turn worker lease now = .done (.error (.missing (.record t.run))) b := by
  have offered := offer_of_missing (b := { b with queue := ⟨rest⟩ }) worker lease now missing
  simp only [turn, Queue.pop?, queued, offered, Queue.pushFront]
  rw [← queued]

theorem turn_of_found {r : PlannedRun} (distinct : b.ledger.keys.Nodup)
    (queued : b.queue.tickets = t :: rest) (found : b.ledger.find? t.run = some r) :
    b.turn worker lease now =
      match (r.run.grant t.step worker lease now b.settings).1 with
      | .ok (.leased a) => .done (.ok (some a)) (b.serve (t.offered worker lease now b.settings))
      | .ok _ => .again (b.serve (t.offered worker lease now b.settings))
      | .error why => .done (.error why) b := by
  have offered := offer_of_found (b := { b with queue := ⟨rest⟩ }) worker lease now distinct found
  simp only [turn, Queue.pop?, queued, offered, Queue.pushFront, serve, List.tail_cons]
  rw [← queued]

theorem turn_of_answer (sound : b.ledger.Sound) (queued : b.queue.tickets = t :: rest)
    {granted : Grant}
    (answer : b.ledger.answer? (t.offered worker lease now b.settings) =
      some (.granted (.ok granted))) :
    b.turn worker lease now =
      match granted with
      | .leased a => .done (.ok (some a)) (b.serve (t.offered worker lease now b.settings))
      | _ => .again (b.serve (t.offered worker lease now b.settings)) := by
  obtain ⟨r, found, answer⟩ := Option.map_eq_some_iff.mp answer
  have result : (r.run.grant t.step worker lease now b.settings).1 = .ok granted := by
    injection answer
  rw [turn_of_found worker lease now sound.distinct queued found, result]
  cases granted <;> rfl

end Turn

end Broker

end Orchestration
