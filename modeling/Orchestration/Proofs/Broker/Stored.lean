import Orchestration.Proofs.Broker.History
import Mathlib.Data.List.Perm.Subperm

namespace Orchestration

structure PlannedRun.Sound (r : PlannedRun) : Prop where
  ordered : r.plan.Ordered
  valid : ∃ canceled, r.run.Valid canceled
  distinct : ∀ i j, (r.run.step i).id = (r.run.step j).id → i = j

namespace PlannedRun

variable {r : PlannedRun}

theorem Fresh.sound (fresh : r.Fresh) : r.Sound := by
  cases fresh with
  | start built fresh stepId distinct =>
    have ordered := Plan.ordered built
    constructor
    case ordered => exact ordered
    case valid => exact ⟨false, .start ordered fresh stepId⟩
    case distinct =>
      intro i j same
      rw [Run.start_id, Run.start_id] at same
      exact distinct i j same

theorem Sound.handle (sound : r.Sound) (e : Event) :
    PlannedRun.Sound { r with run := (r.run.handle e).2 } := by
  obtain ⟨canceled, valid⟩ := sound.valid
  constructor
  case ordered => exact sound.ordered
  case valid => exact ⟨_, valid.handle sound.ordered e⟩
  case distinct =>
    intro i j same
    rw [Run.handle_id valid.sound valid.settled, Run.handle_id valid.sound valid.settled] at same
    exact sound.distinct i j same

theorem Sound.after (sound : r.Sound) (events : List Event) :
    PlannedRun.Sound { r with run := r.run.after events } := by
  induction events generalizing r with
  | nil => exact sound
  | cons e events ih => exact ih (sound.handle e)

end PlannedRun

namespace Ledger

structure Sound (l : Ledger PlannedRun) : Prop where
  consistent : l.Consistent
  runs : ∀ id r, l.find? id = some r → r.Sound

def isQueueable (l : Ledger PlannedRun) (t : Ticket) : Bool := (l.status? t).any (·.isQueueable)

variable {l l' : Ledger PlannedRun} {id : Uuid} {r : PlannedRun} {t : Ticket}

namespace Sound

theorem distinct (sound : l.Sound) : l.keys.Nodup := sound.consistent.distinct

theorem empty : Sound .empty := ⟨.empty, fun _ _ found => nomatch found⟩

theorem insert (sound : l.Sound) (new : r.Sound) {aliases : List Uuid}
    (inserts : l.Inserts l' id r aliases) : l'.Sound := by
  constructor
  case consistent => exact sound.consistent.insert inserts
  case runs =>
    intro x r' found
    rw [inserts.find?] at found
    split at found
    · cases found
      exact new
    · exact sound.runs x r' found

theorem set (sound : l.Sound) (new : r.Sound) : (l.set id r).Sound := by
  constructor
  case consistent => exact sound.consistent.set id r
  case runs =>
    intro x r' found
    rw [find?_set] at found
    split at found
    · obtain ⟨-, -, rfl⟩ := Option.map_eq_some_iff.mp found
      exact new
    · exact sound.runs x r' found

theorem perform (sound : l.Sound) {d : Deed} (new : ∀ r, d = .enter r → r.Sound) :
    (l.perform d).2.Sound := by
  cases d with
  | enter r =>
    rcases l.perform_enter_cases r with kept | ⟨l', inserts, entered⟩
    · rw [kept]
      exact sound
    · rw [entered]
      exact sound.insert (new r rfl) inserts
  | event id e =>
    unfold Ledger.perform
    dsimp only
    split
    · exact sound
    · rename_i r found
      exact sound.set ((sound.runs id r found).handle e)

theorem event (sound : l.Sound) (run : Uuid) (e : Event) : (l.perform (.event run e)).2.Sound :=
  sound.perform (by intro _ same; cases same)

theorem after (sound : l.Sound) {deeds : List Deed} (fresh : ∀ r, .enter r ∈ deeds → r.Fresh) :
    (l.after deeds).Sound := by
  induction deeds generalizing l with
  | nil => exact sound
  | cons d deeds ih =>
    have here (r) (same : d = .enter r) : r.Sound := (fresh r (by simp [same])).sound
    exact ih (sound.perform here) fun r member => fresh r (List.mem_cons_of_mem d member)

end Sound

theorem status?_of_found (found : l.find? t.run = some r) :
    l.status? t = (r.run.indexOf? t.step).map fun i => (r.run.step i).status := by
  simp only [status?, found, Option.bind_some]

theorem status?_set (found : l.find? id = some r) {s : Run r.plan}
    (ids : ∀ i, (s.step i).id = (r.run.step i).id) (t : Ticket) :
    (l.set id { r with run := s }).status? t =
      if t.run = id then (r.run.indexOf? t.step).map fun i => (s.step i).status
      else l.status? t := by
  unfold status?
  rw [find?_set]
  split
  · simp [found, Run.indexOf?_congr ids]
  · rfl

theorem status?_of_stored (sound : l.Sound) (stored : (id, r) ∈ l.entries) {s : Step}
    (member : s ∈ r.steps) : l.status? ⟨id, s.id⟩ = some s.status := by
  have found := sound.consistent.mem_entries_iff.mp stored
  obtain ⟨i, rfl⟩ := Run.mem_steps.mp member
  have here := Run.indexOf?_self (sound.runs id r found).distinct i
  rw [status?_of_found (t := ⟨id, _⟩) found, here, Option.map_some]

theorem exists_of_status? (sound : l.Sound) {status : StepStatus} (known : l.status? t = some status) :
    ∃ r, (t.run, r) ∈ l.entries ∧ ∃ s ∈ r.steps, s.id = t.step ∧ s.status = status := by
  obtain ⟨r, found, known⟩ := Option.bind_eq_some_iff.mp known
  obtain ⟨i, here, known⟩ := Option.map_eq_some_iff.mp known
  have stored := sound.consistent.mem_entries_iff.mpr found
  have id := (Run.indexOf?_eq_some_iff.mp here).1
  exact ⟨r, stored, _, Run.mem_steps.mpr ⟨i, rfl⟩, id, known⟩

theorem isReady_of_stored (sound : l.Sound) (stored : (id, r) ∈ l.entries) {s : Step}
    (member : s ∈ r.steps) (ready : s.status = .ready) : l.isReady ⟨id, s.id⟩ := by
  rw [isReady, status?_of_stored sound stored member, ready]
  rfl

theorem exists_of_isQueueable (sound : l.Sound) (stands : l.isQueueable t) :
    ∃ r, (t.run, r) ∈ l.entries ∧
      ∃ s ∈ r.steps, s.id = t.step ∧ (s.status = .ready ∨ s.status.isTerminal) := by
  obtain ⟨status, known, stands⟩ := (Option.any_eq_true _ _).mp stands
  obtain ⟨r, stored, s, member, id, same⟩ := exists_of_status? sound known
  subst same
  exact ⟨r, stored, s, member, id, StepStatus.isQueueable_iff.mp stands⟩

/-- From `l` to `l'` the steps `named` became ready or ended at once, and no step that could stand in
the queue became one that cannot. -/
structure Releases (l l' : Ledger PlannedRun) (named : List Ticket) : Prop where
  nodup : named.Nodup
  new : ∀ t ∈ named, ¬ l.isQueueable t ∧ l'.isQueueable t
  all : ∀ t, l'.isReady t → l.isReady t ∨ t ∈ named
  kept : ∀ t, l.isQueueable t → l'.isQueueable t

theorem isQueueable_of_isReady (ready : l.isReady t) : l.isQueueable t := by
  unfold isQueueable
  rw [of_decide_eq_true ready]
  rfl

namespace Releases

theorem refl (l : Ledger PlannedRun) : l.Releases l [] :=
  ⟨.nil, nofun, fun _ ready => .inl ready, fun _ stands => stands⟩

theorem of_run (sound : l.Sound) (found : l.find? id = some r) {s : Run r.plan} {names : List Uuid}
    {woken : List (Fin r.plan.size)}
    (releases : Orchestration.Releases (¬ ·.isQueueable) (·.isQueueable) ⟨r.run, []⟩ ⟨s, names⟩ woken) :
    l.Releases (l.set id { r with run := s }) (names.map (⟨id, ·⟩)) := by
  have distinct := (sound.runs id r found).distinct
  -- With distinct ids, what holds of the places in the run holds of the tickets for them.
  have names_eq : names = woken.map fun i => (r.run.step i).id := by simpa using releases.named
  have before (t : Ticket) (here : t.run = id) :
      l.status? t = (r.run.indexOf? t.step).map fun i => (r.run.step i).status :=
    status?_of_found (here ▸ found)
  have after (t : Ticket) := status?_set found releases.ids t
  have named_iff (t : Ticket) : t ∈ names.map (⟨id, ·⟩) ↔
      t.run = id ∧ ∃ i ∈ woken, r.run.indexOf? t.step = some i := by
    rw [names_eq, List.map_map, List.mem_map]
    constructor
    · rintro ⟨i, member, rfl⟩
      exact ⟨rfl, i, member, Run.indexOf?_self distinct i⟩
    · rintro ⟨rfl, i, member, found'⟩
      exists i, member
      rw [Function.comp_apply, (Run.indexOf?_eq_some_iff.mp found').1]
  constructor
  case nodup =>
    rw [names_eq, List.map_map]
    exact releases.nodup.map fun i j same => distinct i j (congrArg Ticket.step same)
  case new =>
    intro t member
    obtain ⟨here, i, woke, found'⟩ := (named_iff t).mp member
    have new := releases.new i woke
    simp only [isQueueable, after, before t here, here, if_true, found', Option.map_some,
      Option.any_some]
    exact new
  case all =>
    intro t ready
    unfold isReady at *
    rw [after] at ready
    split at ready
    · rename_i here
      obtain ⟨i, found', woke⟩ := Option.map_eq_some_iff.mp (of_decide_eq_true ready)
      rcases releases.all i woke with ready | member
      · left
        rw [before t here, found', Option.map_some, ready]
        rfl
      · exact .inr ((named_iff t).mpr ⟨here, i, member, found'⟩)
    · exact .inl ready
  case kept =>
    intro t stands
    unfold isQueueable at *
    rw [after]
    split
    · rename_i here
      rw [before t here] at stands
      cases found' : r.run.indexOf? t.step with
      | none =>
        rw [found'] at stands
        cases stands
      | some i =>
        rw [found'] at stands
        exact releases.kept i stands
    · exact stands

theorem of_enter (sound : r.Sound) {aliases : List Uuid} (inserts : l.Inserts l' id r aliases) :
    l.Releases l' (r.run.readySteps.map (⟨id, ·⟩)) := by
  have free := inserts.free
  have found := inserts.find?
  -- No run had the id, so that all its tickets told nothing before.
  have before (t : Ticket) (here : t.run = id) : l.status? t = none := by
    simp only [status?, here, free, Option.bind_none]
  have after (t : Ticket) (here : t.run = id) :
      l'.status? t = (r.run.indexOf? t.step).map fun i => (r.run.step i).status :=
    status?_of_found (by rw [found, if_pos here])
  have elsewhere (t : Ticket) (other : t.run ≠ id) : l'.status? t = l.status? t := by
    simp only [status?, found, other, if_false]
  have named_iff (t : Ticket) : t ∈ r.run.readySteps.map (⟨id, ·⟩) ↔
      t.run = id ∧ ∃ i, r.run.indexOf? t.step = some i ∧ (r.run.step i).status = .ready := by
    simp only [Run.readySteps, List.map_map, List.mem_map, List.mem_filter, Run.mem_steps,
      decide_eq_true_eq]
    constructor
    · rintro ⟨_, ⟨⟨i, rfl⟩, ready⟩, rfl⟩
      exact ⟨rfl, i, Run.indexOf?_self sound.distinct i, ready⟩
    · rintro ⟨rfl, i, found, ready⟩
      exists _, ⟨⟨i, rfl⟩, ready⟩
      rw [Function.comp_apply, (Run.indexOf?_eq_some_iff.mp found).1]
  constructor
  case nodup =>
    have ids : r.run.stepIds.Nodup := by
      rw [Run.stepIds, Run.steps_eq_map, List.map_map]
      exact (List.nodup_finRange _).map sound.distinct
    have ready : r.run.readySteps.Nodup := ids.sublist (List.filter_sublist.map _)
    exact ready.map fun x y same => congrArg Ticket.step same
  case new =>
    intro t member
    obtain ⟨here, i, found, ready⟩ := (named_iff t).mp member
    simp [isQueueable, before t here, after t here, found, ready, StepStatus.isQueueable]
  case all =>
    intro t ready
    unfold isReady at ready
    by_cases here : t.run = id
    · rw [after t here] at ready
      exact .inr ((named_iff t).mpr ⟨here, Option.map_eq_some_iff.mp (of_decide_eq_true ready)⟩)
    · rw [elsewhere t here] at ready
      exact .inl ready
  case kept =>
    intro t stands
    unfold isQueueable at *
    by_cases here : t.run = id
    · rw [before t here] at stands
      cases stands
    · rwa [elsewhere t here]

end Releases

theorem perform_releases (sound : l.Sound) {d : Deed} (kept : d.grants = false)
    (fresh : ∀ r, d = .enter r → r.Fresh) : l.Releases (l.perform d).2 (l.perform d).1 := by
  cases d with
  | enter r =>
    rcases l.perform_enter_cases r with none | ⟨l', inserts, entered⟩
    · rw [none]
      exact .refl l
    · rw [entered]
      exact .of_enter (fresh r rfl).sound inserts
  | event id e =>
    unfold perform
    dsimp only
    split
    · exact .refl l
    · rename_i r found
      obtain ⟨canceled, valid⟩ := (sound.runs id r found).valid
      obtain ⟨woken, releases⟩ := Run.handle_releases (·.isQueueable) rfl
        (fun _ stands => stands) rfl valid.sound valid.settled kept
      exact .of_run sound found releases

end Ledger

end Orchestration
