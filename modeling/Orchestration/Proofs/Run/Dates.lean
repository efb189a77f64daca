import Orchestration.Proofs.Run.Breaking
import Orchestration.Proofs.Run.Shape
import Orchestration.Proofs.Run.Spending
import Orchestration.Proofs.Run.Waking
import Mathlib.Order.Bounds.Defs

namespace Orchestration

def Timestamp.Begins (now : Timestamp) (old new : Option Timestamp) : Prop :=
  new = old ∨ old = none ∧ new = some now

def Timestamp.Ends (now : Timestamp) (old new : Option Timestamp) : Prop := new = old ∨ new = some now

namespace Timestamp

variable {now date : Timestamp} {a b c : Option Timestamp}

theorem Begins.trans (first : now.Begins a b) (second : now.Begins b c) : now.Begins a c := by
  rcases first with rfl | ⟨none, started⟩
  · exact second
  · rcases second with rfl | ⟨none', -⟩
    · exact .inr ⟨none, started⟩
    · cases none'.symm.trans started

theorem Begins.some (begins : now.Begins a b) (started : a = some date) : b = some date := by
  rcases begins with rfl | ⟨none, -⟩
  · exact started
  · cases none.symm.trans started

theorem Ends.trans (first : now.Ends a b) (second : now.Ends b c) : now.Ends a c := by
  rcases second with rfl | ended
  · exact first
  · exact .inr ended

theorem Ends.now_eq (ends : now.Ends a b) (before : a = none) (ended : b = some date) : now = date := by
  rcases ends with rfl | anew
  · cases before.symm.trans ended
  · exact Option.some.inj (anew.symm.trans ended)

end Timestamp

structure Step.Onward (now : Timestamp) (s t : Step) : Prop where
  startedAt : now.Begins s.startedAt t.startedAt
  endedAt : now.Ends s.endedAt t.endedAt

theorem Step.Onward.trans {now : Timestamp} {s t u : Step} (first : s.Onward now t)
    (second : t.Onward now u) : s.Onward now u :=
  ⟨first.startedAt.trans second.startedAt, first.endedAt.trans second.endedAt⟩

theorem Change.onward {node : Node} {r r' : RunRecord} {s t : Step} {e : Event}
    (change : Change node r s e r' t) : s.Onward e.now t := by
  cases change with
  | lease =>
    refine ⟨?_, .inl rfl⟩
    cases s.startedAt with
    | none => exact .inr ⟨rfl, rfl⟩
    | some first => exact .inl rfl
  | retry | reclaim => exact ⟨.inl (Step.again_startedAt _ _ _), .inl (Step.again_endedAt _ _ _)⟩
  | renew | promote => exact ⟨.inl rfl, .inl rfl⟩
  | _ => exact ⟨.inl rfl, .inr rfl⟩

theorem Step.Aside.onward {s t : Step} {now : Timestamp} (aside : s.Aside now t) : s.Onward now t := by
  refine ⟨.inl aside.startedAt_eq, ?_⟩
  cases aside with
  | same | wake => exact .inl rfl
  | skip => exact .inr rfl
  | stop =>
    unfold Run.stopStep
    split
    case h_1 | h_2 | h_3 => exact .inr rfl
    all_goals exact .inl rfl

/-- A queued run has no start yet. -/
structure RunRecord.Onward (now : Timestamp) (r r' : RunRecord) : Prop where
  idle : r'.status = .queued → r'.startedAt = none
  startedAt : now.Begins r.startedAt r'.startedAt
  endedAt : now.Ends r.endedAt r'.endedAt

theorem RunRecord.Onward.refl {now : Timestamp} {r : RunRecord}
    (idle : r.status = .queued → r.startedAt = none) : r.Onward now r := ⟨idle, .inl rfl, .inl rfl⟩

theorem RunRecord.Onward.trans {now : Timestamp} {r r' r'' : RunRecord} (first : r.Onward now r')
    (second : r'.Onward now r'') : r.Onward now r'' :=
  ⟨second.idle, first.startedAt.trans second.startedAt, first.endedAt.trans second.endedAt⟩

theorem Change.record_onward {node : Node} {r r' : RunRecord} {s t : Step} {e : Event}
    (change : Change node r s e r' t) (idle : r.status = .queued → r.startedAt = none) :
    r.Onward e.now r' := by
  have paid (cost : Cents) (now : Timestamp) : r.Onward now (r.paid cost) := by
    unfold RunRecord.paid
    split
    · exact .refl idle
    · exact ⟨idle, .inl rfl, .inl rfl⟩
  cases change with
  | lease =>
    unfold RunRecord.begin
    split
    · exact ⟨nofun, .inr ⟨idle ‹_›, rfl⟩, .inl rfl⟩
    · exact .refl idle
  | succeed | fail | retry => exact paid _ _
  | _ => exact .refl idle

namespace Run

variable {p : Plan} {s : Run p}

theorem handle_onward (sound : s.Sound) (settled : s.nextStatus? = none) (e : Event) (i : Fin p.size) :
    (s.step i).Onward e.now ((s.handle e).2.step i) := by
  have relates : e.Relates (p.node i) (Step.Onward e.now) := by
    constructor
    case refl => exact fun _ => ⟨.inl rfl, .inl rfl⟩
    case trans => exact fun _ _ _ => Step.Onward.trans
    case change => exact fun _ _ _ _ change => change.onward
    case aside => exact fun _ _ aside => aside.onward
  exact relates.handle sound settled

theorem refresh_onward (idle : s.record.status = .queued → s.record.startedAt = none) (now : Timestamp) :
    s.record.Onward now (s.refresh now).record := by
  unfold refresh
  cases next : s.nextStatus? with
  | none => exact .refl idle
  | some status =>
    refine ⟨?_, .inl rfl, .inr rfl⟩
    rintro rfl
    rcases nextStatus?_eq_some_iff.mp next with ⟨-, -, canceled⟩ | ⟨-, -, ended⟩
    · cases canceled
    · have := s.endStatus_isTerminal
      rw [← ended] at this
      cases this

theorem handle_record_onward (sound : s.Sound) (settled : s.nextStatus? = none)
    (idle : s.record.status = .queued → s.record.startedAt = none) (e : Event) :
    s.record.Onward e.now (s.handle e).2.record := by
  rcases handle_cases sound settled e with ⟨c, acts, same, -⟩ | ⟨-, same, -⟩
  · have onward : s.record.Onward e.now c.run.record := by
      refine acts.preserve (P := fun s' => s.record.Onward e.now s'.record) (.refl idle) ?_ ?_ ?_
      · exact fun _ _ _ _ onward change _ => onward.trans (change.record_onward onward.idle)
      · exact fun _ _ onward ripple => ripple.record ▸ onward
      · intro s' i r t why onward change _
        have changed := onward.trans (change.record_onward onward.idle)
        exact changed.trans ⟨nofun, .inl rfl, .inr rfl⟩
    rw [same]
    exact onward.trans (refresh_onward onward.idle e.now)
  · have halted : s.record.Onward e.now (s.halted e.now).record := ⟨nofun, .inl rfl, .inl rfl⟩
    rw [same]
    exact halted.trans (refresh_onward halted.idle e.now)

def starts (s : Run p) : Set Timestamp := { date | ∃ i, (s.step i).startedAt = some date }

def ends (s : Run p) : Set Timestamp := { date | ∃ i, (s.step i).endedAt = some date }

theorem Valid.all_ended {canceled : Bool} (valid : s.Valid canceled) (ended : s.record.status.isTerminal)
    (mild : ¬ (s.record.status = .failed ∧ s.record.policy = .failFast)) (i : Fin p.size) :
    (s.step i).status.isTerminal := by
  cases valid.phase with
  | active _ active => exact absurd ended (RunStatus.not_isTerminal_of_isActive active)
  | canceling _ status => rw [status] at ended; cases ended
  | broken _ status failFast => exact absurd ⟨status, failFast⟩ mild
  | canceled _ _ finished | ended _ _ finished => exact finished i

theorem Valid.exists_unended {canceled : Bool} (valid : s.Valid canceled)
    (goes : ¬ s.record.status.isTerminal) : ∃ i, ¬ (s.step i).status.isTerminal := by
  rcases nextStatus?_eq_none_iff.mp valid.settled with ended | ⟨-, i, flying⟩ | ⟨-, waits⟩
  · exact absurd ended goes
  · exact ⟨i, StepStatus.not_isTerminal_of_isInFlight flying⟩
  · exact waits

/-- The dates of a run that was submitted at `created`, up to the present `time`. -/
structure Dated (created time : Timestamp) (s : Run p) : Prop where
  since : created ≤ time
  idle : s.record.status = .queued → s.record.startedAt = none
  begun : ∀ i first, (s.step i).startedAt = some first → first ≤ time
  finished : ∀ i last, (s.step i).endedAt = some last →
    last ≤ time ∧ ∀ first, (s.step i).startedAt = some first → first ≤ last
  first : ∀ first, s.record.startedAt = some first → created ≤ first ∧ IsLeast s.starts first
  last : ∀ last, s.record.endedAt = some last →
    last ≤ time ∧ ∀ first, s.record.startedAt = some first → first ≤ last
  greatest : ¬ (s.record.status = .failed ∧ s.record.policy = .failFast) →
    ∀ last, s.record.endedAt = some last → IsGreatest s.ends last

namespace Dated

variable {created time : Timestamp}

theorem start {record : RunRecord} (fresh : record.Fresh) (stepId : Nat → Uuid) :
    (start p record stepId).Dated record.createdAt record.createdAt := by
  have step (i : Fin p.size) : ((Run.start p record stepId).step i).startedAt = none ∧
      ((Run.start p record stepId).step i).endedAt = none := by
    simp only [Run.start, Run.step, Fin.getElem_fin, Vector.getElem_ofFn]
    split <;> exact ⟨rfl, rfl⟩
  have startedAt : (Run.start p record stepId).record.startedAt = none := fresh.startedAt
  have endedAt : (Run.start p record stepId).record.endedAt = none := fresh.endedAt
  constructor <;> simp [startedAt, endedAt, step, Timestamp.le_iff]

section Handle

variable {canceled : Bool} (valid : s.Valid canceled) (shaped : s.Shaped) (dated : s.Dated created time)
  {e : Event} (later : time ≤ e.now)

include valid dated later

theorem handle_begun {i : Fin p.size} {first : Timestamp}
    (started : ((s.handle e).2.step i).startedAt = some first) : first ≤ e.now := by
  rcases (handle_onward valid.sound valid.settled e i).startedAt with same | ⟨-, anew⟩
  · exact Int.le_trans (dated.begun i first (same.symm.trans started)) later
  · obtain rfl := Option.some.inj (anew.symm.trans started)
    exact Int.le_refl _

include shaped

theorem handle_finished {i : Fin p.size} {last : Timestamp}
    (ended : ((s.handle e).2.step i).endedAt = some last) :
    last ≤ e.now ∧ ∀ first, ((s.handle e).2.step i).startedAt = some first → first ≤ last := by
  by_cases closed : (s.step i).status.isTerminal
  · rw [handle_terminal valid.sound valid.settled e closed] at ended ⊢
    obtain ⟨past, order⟩ := dated.finished i last ended
    exact ⟨Int.le_trans past later, order⟩
  · have open' := ((shaped.steps i).opened closed).1
    obtain rfl := (handle_onward valid.sound valid.settled e i).endedAt.now_eq open' ended
    exact ⟨Int.le_refl _, fun _ => handle_begun valid dated later⟩

theorem handle_first {first : Timestamp} (started : (s.handle e).2.record.startedAt = some first) :
    created ≤ first ∧ IsLeast (s.handle e).2.starts first := by
  have onward := handle_onward valid.sound valid.settled e
  rcases (handle_record_onward valid.sound valid.settled dated.idle e).startedAt with same | ⟨none, anew⟩
  · obtain ⟨since, ⟨i, here⟩, least⟩ := dated.first first (same.symm.trans started)
    refine ⟨since, ⟨i, (onward i).startedAt.some here⟩, ?_⟩
    rintro date ⟨j, there⟩
    rcases (onward j).startedAt with same | ⟨-, anew⟩
    · exact least ⟨j, same.symm.trans there⟩
    · obtain rfl := Option.some.inj (anew.symm.trans there)
      exact Int.le_trans (dated.begun i first here) later
  · -- No step had started before, so that all that have by now did so with the run.
    obtain rfl := Option.some.inj (anew.symm.trans started)
    have fresh (j) : (s.step j).startedAt = .none := by
      have idle := shaped.started.not.mp (by simp [none])
      simpa using (not_exists.mp idle) j
    have here (j date) (there : ((s.handle e).2.step j).startedAt = some date) : e.now = date :=
      Timestamp.Ends.now_eq ((onward j).startedAt.imp_right And.right) (fresh j) there
    refine ⟨Int.le_trans dated.since later, ?_, ?_⟩
    · have shaped' := shaped.handle valid.sound valid.settled e
      obtain ⟨j, begun⟩ := shaped'.started.mp (by simp [started])
      obtain ⟨date, there⟩ := Option.isSome_iff_exists.mp begun
      exact ⟨j, here j date there ▸ there⟩
    · rintro date ⟨j, there⟩
      rw [here j date there]
      exact Int.le_refl _

theorem handle_greatest (ordered : p.Ordered)
    (mild : ¬ ((s.handle e).2.record.status = .failed ∧ (s.handle e).2.record.policy = .failFast))
    {last : Timestamp} (ended : (s.handle e).2.record.endedAt = some last) :
    IsGreatest (s.handle e).2.ends last := by
  have valid' := valid.handle ordered e
  have shaped' := shaped.handle valid.sound valid.settled e
  have finished := valid'.all_ended (shaped'.record.endedAt.mp (by simp [ended])) mild
  by_cases closed : s.record.status.isTerminal
  · have same := handle_record valid.sound valid.settled closed e
    rw [same] at mild ended
    have kept : (s.handle e).2.ends = s.ends := by
      unfold ends
      simp only [handle_terminal valid.sound valid.settled e (valid.all_ended closed mild _)]
    rw [kept]
    exact dated.greatest mild last ended
  · have open' : s.record.endedAt = none := by simpa using shaped.record.endedAt.not.mpr closed
    obtain rfl :=
      (handle_record_onward valid.sound valid.settled dated.idle e).endedAt.now_eq open' ended
    constructor
    · obtain ⟨i, waits⟩ := valid.exists_unended closed
      obtain ⟨date, there⟩ :=
        Option.isSome_iff_exists.mp ((shaped'.steps i).endedAt.mpr (finished i))
      obtain rfl := (handle_onward valid.sound valid.settled e i).endedAt.now_eq
        ((shaped.steps i).opened waits).1 there
      exact ⟨i, there⟩
    · rintro date ⟨i, there⟩
      exact (handle_finished valid shaped dated later there).1

theorem handle (ordered : p.Ordered) : (s.handle e).2.Dated created e.now := by
  have onward := handle_record_onward valid.sound valid.settled dated.idle e
  have first (date) (started : (s.handle e).2.record.startedAt = some date) :=
    handle_first valid shaped dated later started
  constructor
  case since => exact Int.le_trans dated.since later
  case idle => exact onward.idle
  case begun => exact fun _ _ => handle_begun valid dated later
  case finished => exact fun _ _ => handle_finished valid shaped dated later
  case first => exact first
  case greatest => exact fun mild _ => handle_greatest valid shaped dated later ordered mild
  case last =>
    intro last ended
    by_cases closed : s.record.status.isTerminal
    · rw [handle_record valid.sound valid.settled closed e] at ended ⊢
      obtain ⟨past, order⟩ := dated.last last ended
      exact ⟨Int.le_trans past later, order⟩
    · have open' : s.record.endedAt = none := by simpa using shaped.record.endedAt.not.mpr closed
      obtain rfl := onward.endedAt.now_eq open' ended
      refine ⟨Int.le_refl _, fun date started => ?_⟩
      obtain ⟨i, here⟩ := (first date started).2.1
      exact handle_begun valid dated later here

end Handle

theorem after {canceled : Bool} (ordered : p.Ordered) (valid : s.Valid canceled) (shaped : s.Shaped)
    (dated : s.Dated created time) {events : List Event} (later : ∀ e ∈ events, time ≤ e.now)
    (inOrder : Event.InOrder events) : ∃ time, (s.after events).Dated created time := by
  induction events generalizing s canceled time with
  | nil => exact ⟨time, dated⟩
  | cons e events ih =>
    obtain ⟨first, inOrder⟩ := inOrder.cons
    have next := dated.handle valid shaped (later e (List.mem_cons_self ..)) ordered
    exact ih (valid.handle ordered e) (shaped.handle valid.sound valid.settled e) next first inOrder

end Dated

theorem Valid.after_endedAt {canceled : Bool} (ordered : p.Ordered) (valid : s.Valid canceled)
    {events : List Event} {now : Timestamp} (later : ∀ e ∈ events, now ≤ e.now) {i : Fin p.size}
    (open' : (s.step i).endedAt = none) {last : Timestamp}
    (ended : ((s.after events).step i).endedAt = some last) : now ≤ last := by
  refine valid.preserve_mem (P := fun s' => ∀ last, (s'.step i).endedAt = some last → now ≤ last) ordered
    ?_ ?_ last ended
  · intro last ended
    cases open'.symm.trans ended
  · intro s' canceled e member valid past last ended
    rcases (handle_onward valid.sound valid.settled e i).endedAt with same | anew
    · exact past last (same.symm.trans ended)
    · obtain rfl := Option.some.inj (anew.symm.trans ended)
      exact later e member

theorem Valid.active_of_fails {canceled : Bool} (ordered : p.Ordered) (valid : s.Valid canceled)
    (goes : s.record.status ≠ .failed) (failFast : s.record.policy = .failFast) {e : Event}
    (fails : (s.handle e).2.record.status = .failed) : s.isActive := by
  have policy := (handle_policy valid.sound valid.settled e).trans failFast
  have kept := ((valid.handle ordered e).phase.failed_step fails policy).1
  cases valid.phase with
  | active _ active => exact active
  | canceling stopped | canceled stopped => rw [stopped, Bool.true_or] at kept; cases kept
  | broken _ status => exact absurd status goes
  | ended _ status =>
    have ended : s.record.status.isTerminal := by
      rw [status]
      exact s.endStatus_isTerminal
    rw [handle_record valid.sound valid.settled ended e] at fails
    exact absurd fails goes

/-- One of the events breaks the run with a step that fails. Both end with it, and what was under way by
then ends no earlier. -/
def BreaksAmid (s : Run p) (events : List Event) : Prop :=
  ∃ earlier e later i, events = earlier ++ e :: later ∧ (s.after earlier).isActive ∧
    ((s.after earlier).handle e).2.BrokenBy i e.now ∧
    (s.after events).record.endedAt = some e.now ∧ ((s.after events).step i).endedAt = some e.now ∧
    ∀ j last, ((s.after earlier).step j).status.isInFlight →
      ((s.after events).step j).endedAt = some last → e.now ≤ last

theorem Valid.breaksAmid {canceled : Bool} (ordered : p.Ordered) (valid : s.Valid canceled)
    (shaped : s.Shaped) (goes : s.record.status ≠ .failed) (failFast : s.record.policy = .failFast)
    {events : List Event} (inOrder : Event.InOrder events)
    (failed : (s.after events).record.status = .failed) : s.BreaksAmid events := by
  obtain ⟨earlier, e, later, rfl, kept, fails⟩ :=
    exists_turn (P := fun s => s.record.status = .failed) goes failed
  have was := valid.after ordered earlier
  have next := was.handle ordered e
  have policy := (valid.after_policy ordered earlier).trans failFast
  have active := was.active_of_fails ordered kept policy fails
  obtain ⟨i, broken⟩ := handle_breaks ordered was active policy e fails
  refine ⟨earlier, e, later, i, rfl, active, broken, ?_⟩
  rw [after_append, after_cons]
  refine ⟨?_, ?_, fun j last flying ended => ?_⟩
  · rw [next.after_record ordered later (by rw [fails]; rfl)]
    exact broken.ended
  · have ended : (((s.after earlier).handle e).2.step i).status.isTerminal := by
      rw [(broken.failed i).mpr rfl]
      rfl
    rw [next.after_terminal ordered later ended]
    exact broken.last
  · have shaped := shaped.after ordered valid earlier
    have open' := ((shaped.steps j).opened (StepStatus.not_isTerminal_of_isInFlight flying)).1
    have sorted : Event.InOrder (e :: later) := inOrder.sublist (List.sublist_append_right ..)
    have since : ∀ e' ∈ e :: later, e.now ≤ e'.now := by
      intro e' member
      rcases List.mem_cons.mp member with rfl | member
      · exact Int.le_refl _
      · exact sorted.cons.1 e' member
    exact was.after_endedAt ordered since open' ended

/-- As long as the clock does not go back behind the submission, a step ends no earlier than it starts,
and the run starts with the first of its steps. It ends with the last of them, unless the failure of one
breaks it: then it ends with that one, while what is under way ends later. -/
theorem dates_after {w : Workflow} (built : Plan.ofWorkflow w = .ok p) {record : RunRecord}
    (fresh : record.Fresh) (stepId : Nat → Uuid) {events : List Event} (inOrder : Event.InOrder events)
    (since : ∀ e ∈ events, record.createdAt ≤ e.now) :
    let s := (start p record stepId).after events
    (∀ i first last, (s.step i).startedAt = some first → (s.step i).endedAt = some last →
        first ≤ last) ∧
      (∀ first, s.record.startedAt = some first →
        s.record.createdAt ≤ first ∧ IsLeast s.starts first) ∧
      (∀ first last, s.record.startedAt = some first → s.record.endedAt = some last → first ≤ last) ∧
      (s.record.status.isTerminal → ¬ (s.record.status = .failed ∧ s.record.policy = .failFast) →
        ∃ last, s.record.endedAt = some last ∧ IsGreatest s.ends last) ∧
      (s.record.status = .failed → s.record.policy = .failFast →
        (start p record stepId).BreaksAmid events) := by
  intro s
  have ordered := Plan.ordered built
  have start := Valid.start ordered fresh stepId
  have shaped : s.Shaped := (Shaped.start fresh stepId).after ordered start events
  obtain ⟨time, dated⟩ :=
    (Dated.start fresh stepId).after ordered start (.start fresh stepId) since inOrder
  have createdAt : s.record.createdAt = record.createdAt :=
    (congrArg RunRecord.createdAt (start.after_submitted ordered events) :)
  refine ⟨?_, ?_, ?_, ?_, ?_⟩
  · exact fun i first last started ended => (dated.finished i last ended).2 first started
  · rw [createdAt]
    exact dated.first
  · exact fun first last started ended => (dated.last last ended).2 first started
  · intro ended mild
    obtain ⟨last, there⟩ := Option.isSome_iff_exists.mp (shaped.record.endedAt.mpr ended)
    exact ⟨last, there, dated.greatest mild last there⟩
  · intro failed failFast
    rw [start.after_policy ordered] at failFast
    apply start.breaksAmid ordered (.start fresh stepId) ?_ failFast inOrder failed
    rw [show (Run.start p record stepId).record.status = .queued from fresh.status]
    decide

/-- A run breaks with one of two steps that are under way. The other one succeeds two seconds later. -/
theorem dates_after_break :
    let clock (secs : Nat) := Timestamp.epoch.after (seconds secs)
    let events : List Event :=
      [.grant (.ofNat 0) "first" (.ofNat 2) (clock 1) default,
        .grant (.ofNat 1) "second" (.ofNat 3) (clock 2) default,
        .accept (.ofNat 1) (.failed (.ofNat 3) "no" 0) (clock 3) default,
        .accept (.ofNat 0) (.succeeded (.ofNat 2) .null 0) (clock 5) default]
    let record : RunRecord := .queued .nil Workflow.uneven.reference .failFast .epoch
    let s := (start .uneven record .ofNat).after events
    Event.InOrder events ∧ (∀ e ∈ events, record.createdAt ≤ e.now) ∧
      s.record.endedAt = some (clock 3) ∧ (s.step (0 : Fin 2)).endedAt = some (clock 5) ∧
      IsLeast s.starts (clock 1) ∧
      (start .uneven record .ofNat).BreaksAmid events := by
  intro clock events record s
  have inOrder : Event.InOrder events := by
    show (events.map Event.now).Pairwise (· ≤ ·)
    decide
  have since : ∀ e ∈ events, record.createdAt ≤ e.now := by decide
  have fresh : record.Fresh :=
    RunRecord.queued_fresh .nil Workflow.uneven.reference .failFast .epoch none [] .null
  have started : s.record.startedAt = some (clock 1) := by decide +kernel
  have failed : s.record.status = .failed := by decide +kernel
  have failFast : s.record.policy = .failFast := by decide +kernel
  have run : s.record.endedAt = some (clock 3) := by decide +kernel
  have step : (s.step (0 : Fin 2)).endedAt = some (clock 5) := by decide +kernel
  obtain ⟨-, first, -, -, breaks⟩ := dates_after Plan.uneven_built fresh .ofNat inOrder since
  simp only [s] at started failed failFast run step ⊢
  exact ⟨inOrder, since, run, step, (first _ started).2, breaks failed failFast⟩

end Run

end Orchestration
