import Orchestration.Run.Transition

namespace Orchestration

inductive Event where
  | grant (step : Uuid) (worker : String) (lease : Uuid) (now : Timestamp) (settings : Scheduling)
  | renew (step : Uuid) (worker : String) (now : Timestamp) (settings : Scheduling)
  | accept (step : Uuid) (report : Report) (now : Timestamp) (settings : Scheduling)
  | sweep (now : Timestamp) (settings : Scheduling)
  | cancel (now : Timestamp)

def Event.now : Event → Timestamp
  | .grant _ _ _ now _ | .renew _ _ now _ | .accept _ _ now _ | .sweep now _ | .cancel now => now

def Event.grants : Event → Bool
  | .grant .. => true
  | _ => false

def Event.Under (c : Scheduling) : Event → Prop
  | .grant _ _ _ _ settings | .renew _ _ _ settings | .accept _ _ _ settings | .sweep _ settings =>
    settings = c
  | .cancel _ => True

def Event.InOrder (events : List Event) : Prop := (events.map Event.now).Pairwise (· ≤ ·)

theorem Event.InOrder.cons {e : Event} {events : List Event} (inOrder : InOrder (e :: events)) :
    (∀ later ∈ events, e.now ≤ later.now) ∧ InOrder events := by
  obtain ⟨first, inOrder⟩ := List.pairwise_cons.mp inOrder
  exact ⟨fun later member => first _ (List.mem_map_of_mem member), inOrder⟩

theorem Event.InOrder.sublist {some all : List Event} (inOrder : InOrder all) (part : some.Sublist all) :
    InOrder some := List.Pairwise.sublist (part.map Event.now) inOrder

inductive Outcome where
  | granted (result : Except Refusal Grant)
  | renewed (result : Except Refusal Renewal)
  | accepted (result : Except Refusal Receipt)
  | swept (found : Sweep)
  | canceled (stopped : Bool)

def Outcome.stops : Outcome → Bool
  | .canceled stopped => stopped
  | _ => false

def Outcome.assignment? : Outcome → Option Assignment
  | .granted (.ok (.leased assignment)) => some assignment
  | _ => none

def Outcome.ready : Outcome → List Uuid
  | .granted (.ok (.rejected _ ready)) | .accepted (.ok (.applied _ ready)) => ready
  | .swept found => found.ready
  | _ => []

def Outcome.heeds : Outcome → Bool
  | .granted (.ok (.leased _)) | .granted (.ok (.rejected ..)) | .renewed (.ok _)
  | .accepted (.ok (.applied ..)) => true
  | _ => false

abbrev Log := List (Event × Outcome)

def Log.canceled (log : Log) : Bool := log.any (·.2.stops)

def Log.assignments (log : Log) : List Assignment := log.filterMap (·.2.assignment?)

structure RunRecord.Fresh (r : RunRecord) : Prop where
  status : r.status = .queued
  cost : r.cost = 0
  error : r.error = none
  startedAt : r.startedAt = none
  endedAt : r.endedAt = none

theorem RunRecord.queued_fresh (id : Uuid) (workflow : Reference) (policy : FailurePolicy)
    (createdAt : Timestamp) (budget : Option Cents) (tags : List String) (input : Json) :
    RunRecord.Fresh { queued id workflow policy createdAt with budget, tags, input } :=
  ⟨rfl, rfl, rfl, rfl, rfl⟩

namespace Run

variable {p : Plan}

def handle (s : Run p) : Event → Outcome × Run p
  | .grant step worker lease now settings =>
    let (result, s) := s.grant step worker lease now settings
    (.granted result, s)
  | .renew step worker now settings =>
    let (result, s) := s.renew step worker now settings
    (.renewed result, s)
  | .accept step report now settings =>
    let (result, s) := s.accept step report now settings
    (.accepted result, s)
  | .sweep now settings =>
    let (found, s) := s.sweep now settings
    (.swept found, s)
  | .cancel now =>
    let (stopped, s) := s.cancel now
    (.canceled stopped, s)

def after (s : Run p) (events : List Event) : Run p :=
  events.foldl (fun s e => (s.handle e).2) s

def log (s : Run p) : List Event → Log
  | [] => []
  | e :: events => (e, (s.handle e).1) :: (s.handle e).2.log events

@[simp] theorem after_nil (s : Run p) : s.after [] = s := rfl

@[simp] theorem after_cons (s : Run p) (e : Event) (events : List Event) :
    s.after (e :: events) = (s.handle e).2.after events := rfl

theorem log_cons (s : Run p) (e : Event) (events : List Event) :
    s.log (e :: events) = [(e, (s.handle e).1)] ++ (s.handle e).2.log events := rfl

@[simp] theorem after_append (s : Run p) (first second : List Event) :
    s.after (first ++ second) = (s.after first).after second := List.foldl_append

@[simp] theorem log_append (s : Run p) (first second : List Event) :
    s.log (first ++ second) = s.log first ++ (s.after first).log second := by
  induction first generalizing s with
  | nil => rfl
  | cons e first ih => simp [log, ih]

/-- What holds after the events and not before them is brought about by one of them. -/
theorem exists_turn {P : Run p → Prop} {s : Run p} {events : List Event} (before : ¬ P s)
    (after : P (s.after events)) :
    ∃ earlier e later, events = earlier ++ e :: later ∧ ¬ P (s.after earlier) ∧
      P ((s.after earlier).handle e).2 := by
  induction events generalizing s with
  | nil => exact absurd after before
  | cons e events ih =>
    by_cases now : P (s.handle e).2
    · exact ⟨[], e, events, rfl, before, now⟩
    · obtain ⟨earlier, e', later, rfl, kept, turn⟩ := ih now after
      exact ⟨e :: earlier, e', later, rfl, kept, turn⟩

end Run

end Orchestration
