import Orchestration.Broker
import Orchestration.Proofs.Ledger
import Orchestration.Proofs.Run.Releases
import Mathlib.Data.List.Dedup

namespace Orchestration

inductive PlannedRun.Fresh : PlannedRun → Prop
  | start {w : Workflow} {p : Plan} (built : Plan.ofWorkflow w = .ok p) {record : RunRecord}
      (fresh : record.Fresh) (stepId : Nat → Uuid)
      (distinct : ∀ i j : Fin p.size, stepId i = stepId j → i = j) :
      Fresh ⟨p, .start p record stepId⟩

/-- A transition of the stored runs: one is entered, or an event happens to one. -/
inductive Deed where
  | enter (r : PlannedRun)
  | event (run : Uuid) (e : Event)

def Deed.grants : Deed → Bool
  | .enter _ => false
  | .event _ e => e.grants

abbrev Ticket.offered (t : Ticket) (worker : String) (lease : Uuid) (now : Timestamp)
    (settings : Scheduling) : Deed :=
  .event t.run (.grant t.step worker lease now settings)

namespace Ledger

def status? (l : Ledger PlannedRun) (t : Ticket) : Option StepStatus :=
  (l.find? t.run).bind fun r => (r.run.indexOf? t.step).map fun i => (r.run.step i).status

def isReady (l : Ledger PlannedRun) (t : Ticket) : Bool := l.status? t = some .ready

/-- The steps that the answer to a deed names as ready, and the runs after it. -/
def perform (l : Ledger PlannedRun) : Deed → List Ticket × Ledger PlannedRun
  | .enter r =>
    match l.insert r.record.id r r.run.stepIds with
    | (.error _, l) => ([], l)
    | (.ok (), l) => (r.run.readySteps.map (⟨r.record.id, ·⟩), l)
  | .event id e =>
    match l.find? id with
    | none => ([], l)
    | some r =>
      let (outcome, run) := r.run.handle e
      (outcome.ready.map (⟨id, ·⟩), l.set id { r with run })

def after (l : Ledger PlannedRun) (deeds : List Deed) : Ledger PlannedRun :=
  deeds.foldl (fun l d => (l.perform d).2) l

def woken (l : Ledger PlannedRun) (d : Deed) : List Ticket :=
  (l.perform d).1.filter fun t => !l.isReady t && (l.perform d).2.isReady t

def wakes (l : Ledger PlannedRun) : List Deed → List Ticket
  | [] => []
  | d :: deeds => l.woken d ++ (l.perform d).2.wakes deeds

/-- The steps that are ready after `deeds`, in the order in which they last became ready: of the times
that a step did, `dedup` keeps the last. -/
def line (l : Ledger PlannedRun) (deeds : List Deed) : List Ticket :=
  (l.wakes deeds).dedup.filter (l.after deeds).isReady

theorem perform_enter_cases (l : Ledger PlannedRun) (r : PlannedRun) :
    l.perform (.enter r) = ([], l) ∨
    ∃ l', l.Inserts l' r.record.id r r.run.stepIds ∧
      l.perform (.enter r) = (r.run.readySteps.map (⟨r.record.id, ·⟩), l') := by
  unfold perform
  dsimp only
  rcases l.insert_cases r.record.id r r.run.stepIds with ⟨-, why, refused⟩ | ⟨l', inserted, inserts⟩
  · rw [refused]
    exact .inl rfl
  · rw [inserted]
    exact .inr ⟨l', inserts, rfl⟩

@[simp] theorem after_nil (l : Ledger PlannedRun) : l.after [] = l := rfl

@[simp] theorem after_cons (l : Ledger PlannedRun) (d : Deed) (deeds : List Deed) :
    l.after (d :: deeds) = (l.perform d).2.after deeds := rfl

theorem after_append (l : Ledger PlannedRun) (first second : List Deed) :
    l.after (first ++ second) = (l.after first).after second := List.foldl_append

theorem wakes_append (l : Ledger PlannedRun) (first second : List Deed) :
    l.wakes (first ++ second) = l.wakes first ++ (l.after first).wakes second := by
  induction first generalizing l with
  | nil => rfl
  | cons d first ih => simp only [List.cons_append, wakes, ih, after_cons, List.append_assoc]

end Ledger

inductive Request where
  | enter (r : PlannedRun)
  | poll (worker : String) (lease : Uuid) (now : Timestamp)
  | heartbeat (worker : String) (step : Uuid) (now : Timestamp)
  | complete (step : Uuid) (report : Report) (now : Timestamp)
  | sweep (now : Timestamp)
  | cancel (run : Uuid) (now : Timestamp)

namespace Broker

def perform (b : Broker) : Request → Broker
  | .enter r => (b.enter r).2
  | .poll worker lease now => (b.poll worker lease now).2
  | .heartbeat worker step now => (b.heartbeat worker step now).2
  | .complete step report now => (b.complete step report now).2
  | .sweep now => (b.sweep now).2
  | .cancel run now => (b.cancel run now).2

def after (b : Broker) (requests : List Request) : Broker := requests.foldl perform b

def takenWithin (worker : String) (lease : Uuid) (now : Timestamp) : Nat → Broker → List Ticket
  | 0, _ => []
  | fuel + 1, b =>
    match b.queue.tickets with
    | [] => []
    | ticket :: _ =>
      match b.turn worker lease now with
      | .done .. => [ticket]
      | .again b => ticket :: takenWithin worker lease now fuel b

def considered (b : Broker) (worker : String) (lease : Uuid) (now : Timestamp) : List Ticket :=
  takenWithin worker lease now (b.queue.size + b.pendingCount + 1) b

def offers (b : Broker) (worker : String) (lease : Uuid) (now : Timestamp) (tickets : List Ticket) :
    List Deed :=
  tickets.map (·.offered worker lease now b.settings)

/-- The transitions of stored runs that a request comes down to. -/
def deeds (b : Broker) : Request → List Deed
  | .enter r => [.enter r]
  | .poll worker lease now => b.offers worker lease now (b.considered worker lease now)
  | .heartbeat worker step now =>
    (b.ledger.resolve? step).toList.map fun run => .event run (.renew step worker now b.settings)
  | .complete step report now =>
    (b.ledger.resolve? step).toList.map fun run => .event run (.accept step report now b.settings)
  | .sweep now =>
    (b.ledger.ids.filter (b.isOverdue · now)).map fun run => .event run (.sweep now b.settings)
  | .cancel run now => [.event run (.cancel now)]

def journal (b : Broker) : List Request → List Deed
  | [] => []
  | r :: requests => b.deeds r ++ (b.perform r).journal requests

theorem enter_of_mem_deeds {b : Broker} {request : Request} {r : PlannedRun}
    (member : .enter r ∈ b.deeds request) : request = .enter r := by
  cases request with
  | enter r' =>
    cases List.mem_singleton.mp member
    rfl
  | cancel => cases List.mem_singleton.mp member
  | poll | heartbeat | complete | sweep =>
    obtain ⟨_, -, same⟩ := List.mem_map.mp member
    cases same

theorem enter_of_mem_journal {b : Broker} {requests : List Request} {r : PlannedRun}
    (member : .enter r ∈ b.journal requests) : .enter r ∈ requests := by
  induction requests generalizing b with
  | nil => cases member
  | cons request requests ih =>
    rcases List.mem_append.mp member with here | later
    · rw [enter_of_mem_deeds here]
      exact List.mem_cons_self ..
    · exact List.mem_cons_of_mem _ (ih later)

end Broker

end Orchestration
