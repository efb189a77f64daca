import Orchestration.Proofs.Run.Valid

namespace Orchestration

/-- Whether a step may stand in the queue: it is ready, or it has ended and changes no more. -/
def StepStatus.isQueueable : StepStatus → Bool
  | .ready | .succeeded | .failed | .skipped => true
  | _ => false

theorem StepStatus.isQueueable_iff {status : StepStatus} :
    status.isQueueable ↔ status = .ready ∨ status.isTerminal := by
  cases status <;> simp [isQueueable, isTerminal]

variable {p : Plan}

/-- A step that `waits` may still become ready, and one that `stands` does not wait again. -/
structure Queueing (waits stands : StepStatus → Prop) : Prop where
  pending : waits .pending
  ready : stands .ready
  apart : ∀ status, waits status → ¬ stands status

theorem Queueing.of_queueable {stands : StepStatus → Prop} (ready : stands .ready)
    (queueable : ∀ status, stands status → status.isQueueable) : Queueing (¬ stands ·) stands where
  pending stood := nomatch queueable .pending stood
  ready := ready
  apart _ waits := waits

theorem Queueing.pending_queueable : Queueing (· = .pending) (·.isQueueable) where
  pending := rfl
  ready := rfl
  apart := by
    rintro status rfl
    decide

/-- From `c` to `c'` the steps `woken` were named as ready, which had waited before, and no step that
stood in the queue became one that does not. -/
structure Releases (waits stands : StepStatus → Prop) (c c' : Released p) (woken : List (Fin p.size)) :
    Prop where
  named : c'.ready = c.ready ++ woken.map fun i => (c.run.step i).id
  nodup : woken.Nodup
  new : ∀ i ∈ woken, waits (c.run.step i).status ∧ stands (c'.run.step i).status
  all : ∀ i, (c'.run.step i).status = .ready → (c.run.step i).status = .ready ∨ i ∈ woken
  kept : ∀ i, stands (c.run.step i).status → stands (c'.run.step i).status
  waited : ∀ i, waits (c'.run.step i).status → waits (c.run.step i).status
  ids : ∀ i, (c'.run.step i).id = (c.run.step i).id

namespace Releases

variable {waits stands : StepStatus → Prop} {c c' c'' : Released p} {woken later : List (Fin p.size)}

theorem refl (c : Released p) : Releases waits stands c c [] :=
  ⟨by simp, .nil, by simp, fun _ ready => .inl ready, fun _ stands => stands, fun _ waits => waits,
    fun _ => rfl⟩

theorem congr (releases : Releases waits stands c c' woken) {s : Run p}
    (same : ∀ i, s.step i = c'.run.step i) : Releases waits stands c ⟨s, c'.ready⟩ woken := by
  obtain ⟨named, nodup, new, all, kept, waited, ids⟩ := releases
  simp only [← same] at new all kept waited ids
  exact ⟨named, nodup, new, all, kept, waited, ids⟩

theorem step (queueing : Queueing waits stands) {s : Run p} {d : Fin p.size} {t : Step}
    (changed : ∀ j, s.step j = if j = d then t else c.run.step j)
    (id : t.id = (c.run.step d).id)
    (kept : stands (c.run.step d).status → stands t.status)
    (waited : waits t.status → waits (c.run.step d).status)
    (woke : t.status = .ready → waits (c.run.step d).status) :
    ∃ woken, Releases waits stands c
      ⟨s, if t.status = .ready then c.ready ++ [t.id] else c.ready⟩ woken := by
  have each {P : Fin p.size → Step → Prop} (here : P d t)
      (elsewhere : ∀ j, j ≠ d → P j (c.run.step j)) (j : Fin p.size) : P j (s.step j) := by
    rw [changed]
    split
    · subst j
      exact here
    · exact elsewhere j ‹_›
  have kept := each (P := fun j u => stands (c.run.step j).status → stands u.status) kept
    fun _ _ stands => stands
  have waited := each (P := fun j u => waits u.status → waits (c.run.step j).status) waited
    fun _ _ waits => waits
  have ids := each (P := fun j u => u.id = (c.run.step j).id) id fun _ _ => rfl
  by_cases ready : t.status = .ready
  · have new (i) (member : i ∈ [d]) :
        waits (c.run.step i).status ∧ stands (s.step i).status := by
      rw [List.mem_singleton.mp member]
      exact ⟨woke ready, by simpa [changed, ready] using queueing.ready⟩
    have all := each (P := fun j u => u.status = .ready → (c.run.step j).status = .ready ∨ j ∈ [d])
      (fun _ => .inr (List.mem_singleton_self d)) fun _ _ ready => .inl ready
    exact ⟨[d], by simp [ready, id], List.nodup_singleton d, new, all, kept, waited, ids⟩
  · have all := each (P := fun j u => u.status = .ready → (c.run.step j).status = .ready ∨ j ∈ [])
      (fun after => absurd after ready) fun _ _ ready => .inl ready
    exact ⟨[], by simp [ready], .nil, by simp, all, kept, waited, ids⟩

theorem step_pending (queueing : Queueing waits stands) {s : Run p} {d : Fin p.size} {t : Step}
    (changed : ∀ j, s.step j = if j = d then t else c.run.step j)
    (id : t.id = (c.run.step d).id) (pending : (c.run.step d).status = .pending) :
    ∃ woken, Releases waits stands c
      ⟨s, if t.status = .ready then c.ready ++ [t.id] else c.ready⟩ woken := by
  have before : waits (c.run.step d).status := pending ▸ queueing.pending
  exact step queueing changed id (fun stands => absurd stands (queueing.apart _ before))
    (fun _ => before) (fun _ => before)

theorem trans (queueing : Queueing waits stands) (first : Releases waits stands c c' woken)
    (second : Releases waits stands c' c'' later) : Releases waits stands c c'' (woken ++ later) := by
  constructor
  case named =>
    rw [second.named, first.named, List.map_append, List.append_assoc]
    simp only [first.ids]
  case nodup =>
    apply List.nodup_append.mpr
    have disjoint (i) (named : i ∈ woken) (j) (again : j ∈ later) : i ≠ j := by
      intro same
      subst same
      exact queueing.apart _ (second.new i again).1 (first.new i named).2
    exact ⟨first.nodup, second.nodup, disjoint⟩
  case new =>
    intro i member
    rcases List.mem_append.mp member with named | named
    · exact ⟨(first.new i named).1, second.kept i (first.new i named).2⟩
    · exact ⟨first.waited i (second.new i named).1, (second.new i named).2⟩
  case all =>
    intro i ready
    rcases second.all i ready with before | named
    · exact (first.all i before).imp_right (List.mem_append_left _)
    · exact .inr (List.mem_append_right _ named)
  case kept => exact fun i stands => second.kept i (first.kept i stands)
  case waited => exact fun i after => first.waited i (second.waited i after)
  case ids => exact fun i => (second.ids i).trans (first.ids i)

theorem stop (queueing : Queueing waits stands) (skipped : stands .skipped) {s : Run p} (now : Timestamp)
    (stopped : ∀ i, s.step i = Run.stopStep now (c.run.step i)) :
    Releases waits stands c ⟨s, c.ready⟩ [] := by
  have status (i) : (s.step i).status = (c.run.step i).status ∧ (s.step i).status ≠ .ready ∨
      (s.step i).status = .skipped := by
    rw [stopped]
    unfold Run.stopStep
    split <;> simp [*]
  constructor
  case named => simp
  case nodup => exact .nil
  case new => simp
  case all =>
    intro i ready
    rcases status i with ⟨-, held⟩ | skips
    · exact absurd ready held
    · cases skips.symm.trans ready
  case kept =>
    intro i stands
    rcases status i with ⟨same, -⟩ | skips
    · rwa [same]
    · rwa [skips]
  case waited =>
    intro i after
    rcases status i with ⟨same, -⟩ | skips
    · rwa [same] at after
    · rw [skips] at after
      exact absurd skipped (queueing.apart _ after)
  case ids =>
    intro i
    rw [stopped]
    exact Step.Aside.stop.id_eq

theorem weaken (releases : Releases (· = .pending) (·.isQueueable) c c' woken) :
    Releases (¬ ·.isQueueable) (·.isQueueable) c c' woken := by
  have new (i) (member : i ∈ woken) :
      ¬ (c.run.step i).status.isQueueable ∧ (c'.run.step i).status.isQueueable := by
    obtain ⟨pending, stands⟩ := releases.new i member
    rw [pending]
    exact ⟨Bool.false_ne_true, stands⟩
  exact { releases with new, waited := fun i waits stands => waits (releases.kept i stands) }

theorem pending_le (releases : Releases (· = .pending) (·.isQueueable) c c' woken) :
    c'.run.steps.toList.countP (·.status = .pending) + woken.length ≤
      c.run.steps.toList.countP (·.status = .pending) := by
  let waiting (s : Run p) := (List.finRange p.size).filter fun i => (s.step i).status = .pending
  have count (s : Run p) : s.steps.toList.countP (·.status = .pending) = (waiting s).length := by
    rw [Run.steps_eq_map, List.countP_map, List.countP_eq_length_filter]
    rfl
  have mem_waiting (s : Run p) (i) : i ∈ waiting s ↔ (s.step i).status = .pending := by
    simp [waiting]
  have disjoint (i) (pending : i ∈ waiting c'.run) (j) (named : j ∈ woken) : i ≠ j := by
    intro same
    subst same
    have stands := (releases.new i named).2
    rw [(mem_waiting c'.run i).mp pending] at stands
    cases stands
  have nodup : (waiting c'.run ++ woken).Nodup :=
    List.nodup_append.mpr ⟨(List.nodup_finRange _).filter _, releases.nodup, disjoint⟩
  have subset : waiting c'.run ++ woken ⊆ waiting c.run := by
    intro i member
    rw [mem_waiting]
    rcases List.mem_append.mp member with pending | named
    · exact releases.waited i ((mem_waiting c'.run i).mp pending)
    · exact (releases.new i named).1
  rw [count, count, ← List.length_append]
  exact (List.subperm_of_subset nodup subset).length_le

end Releases

namespace Released

variable {waits stands : StepStatus → Prop} (queueing : Queueing waits stands)

include queueing

theorem settleFor_releases (c : Released p) (d : Fin p.size) :
    ∃ woken, Releases waits stands c (c.settleFor d) woken := by
  unfold settleFor
  dsimp only
  split
  · rename_i free
    simp only [Bool.and_eq_true, decide_eq_true_eq] at free
    have before : (c.run.step d).status = .pending := free.2
    obtain ⟨woken, woke⟩ := Releases.step_pending queueing (c := c)
      (t := { c.run.step d with status := .ready })
      (fun j => Run.step_put { c.run with waiting := c.run.waiting.set d _ } d j _) rfl before
    exists woken
    simp only [push, modifyStep, Run.modifyStep_eq_put, Run.step_put_self]
    exact woke
  · exact ⟨[], (Releases.refl c).congr fun _ => rfl⟩

theorem settle_releases (c : Released p) (i : Fin p.size) :
    ∃ woken, Releases waits stands c (c.settle i) woken := by
  unfold settle
  induction p.dependents i generalizing c with
  | nil => exact ⟨[], .refl c⟩
  | cons d rest ih =>
    obtain ⟨woken, first⟩ := settleFor_releases queueing c d
    obtain ⟨later, second⟩ := ih (c.settleFor d)
    exact ⟨_, first.trans queueing second⟩

theorem skipFor_releases (now : Timestamp) (failed : String) (c : Released p) (d : Fin p.size) :
    ∃ woken, Releases waits stands c (skipFor now failed c d) woken := by
  unfold skipFor
  split
  · rename_i pending
    let t : Step :=
      { c.run.step d with
        status := .skipped
        error := some ("dependency '" ++ failed ++ "' failed")
        endedAt := some now }
    obtain ⟨none, skipped⟩ := Releases.step_pending queueing (c := c) (t := t)
      (fun j => c.run.step_put d j t) rfl pending
    obtain ⟨woken, settled⟩ := settle_releases queueing ⟨c.run.put d t, c.ready⟩ d
    exact ⟨_, skipped.trans queueing settled⟩
  · exact ⟨[], .refl c⟩

theorem stepFailed_releases (c : Released p) (i : Fin p.size) (now : Timestamp)
    (skipped : c.run.record.policy = .failFast → stands .skipped) :
    ∃ woken, Releases waits stands c (c.stepFailed i now) woken := by
  cases policy : c.run.record.policy with
  | failFast =>
    simp only [stepFailed, policy]
    exact ⟨[], .stop queueing (skipped policy) now fun j => Run.step_stopSteps _ now j⟩
  | tolerant =>
    rw [stepFailed_of_tolerant c i now policy]
    generalize (c.run.step i).nodeId = failed
    clear policy skipped
    induction p.dependents i generalizing c with
    | nil => exact ⟨[], .refl c⟩
    | cons d rest ih =>
      obtain ⟨woken, first⟩ := skipFor_releases queueing now failed c d
      obtain ⟨later, second⟩ := ih (skipFor now failed c d)
      exact ⟨_, first.trans queueing second⟩

theorem follow_releases (c : Released p) (i : Fin p.size) (now : Timestamp)
    (skipped : Run.breaks c.run.record (c.run.step i) → stands .skipped) :
    ∃ woken, Releases waits stands c (c.follow i now) woken := by
  unfold follow
  split
  · rename_i active
    split
    · exact settle_releases queueing c i
    · rename_i failed
      exact stepFailed_releases queueing c i now fun failFast => skipped ⟨active, failFast, failed⟩
    · exact ⟨[], .refl c⟩
  · exact ⟨[], .refl c⟩

theorem act_releases (c : Released p) {i : Fin p.size} (r : RunRecord) {t : Step} (now : Timestamp)
    (id : t.id = (c.run.step i).id)
    (skipped : Run.breaks r t → stands .skipped)
    (kept : stands (c.run.step i).status → stands t.status)
    (waited : waits t.status → waits (c.run.step i).status)
    (woke : t.status = .ready → waits (c.run.step i).status) :
    ∃ woken, Releases waits stands c (c.act i r t now) woken := by
  obtain ⟨woken, changed⟩ := Releases.step queueing (c := c) (s := c.run.replace i r t)
    (fun j => Run.step_replace _ i j r t) id kept waited woke
  obtain ⟨later, follows⟩ := follow_releases queueing
    ⟨c.run.replace i r t, if t.status = .ready then c.ready ++ [t.id] else c.ready⟩ i now
    (by simpa using skipped)
  exact ⟨_, changed.trans queueing follows⟩

end Released

theorem Released.failed_releases (c : Released p) {i : Fin p.size} (r : RunRecord) {t : Step}
    (now : Timestamp) (id : t.id = (c.run.step i).id) (failed : t.status = .failed) :
    ∃ woken, Releases (· = .pending) (·.isQueueable) c (c.act i r t now) woken := by
  apply act_releases .pending_queueable c r now id (fun _ => rfl)
  · intro _
    rw [failed]
    rfl
  · exact fun waits => nomatch failed.symm.trans waits
  · exact fun ready => nomatch failed.symm.trans ready

theorem Change.not_queueable {node : Node} {r r' : RunRecord} {s t : Step} {e : Event}
    (change : Change node r s e r' t) (kept : e.grants = false) : ¬ s.status.isQueueable := by
  have held (flying : s.status.isInFlight) : ¬ s.status.isQueueable := by
    cases status : s.status <;> simp_all [StepStatus.isInFlight, StepStatus.isQueueable]
  cases change with
  | lease | reject => cases kept
  | promote _ _ _ retrying => rw [retrying]; decide
  | renew _ _ _ _ flying | abandon _ _ _ _ flying | succeed _ _ _ _ _ flying
  | fail _ _ _ _ _ flying | retry _ _ _ _ _ flying | drop _ _ _ _ flying | expire _ _ _ _ flying
  | reclaim _ _ _ _ flying => exact held flying

section Queueable

variable (stands : StepStatus → Prop) (ready : stands .ready)
  (queueable : ∀ status, stands status → status.isQueueable)

include ready queueable

theorem Releases.act {e : Event} (kept : e.grants = false) (c : Released p) {i : Fin p.size}
    {r : RunRecord} {t : Step} (change : Change (p.node i) c.run.record (c.run.step i) e r t)
    (skipped : Run.breaks r t → stands .skipped) :
    ∃ woken, Releases (¬ stands ·) stands c (c.act i r t e.now) woken := by
  have waits : ¬ stands (c.run.step i).status := fun stands =>
    change.not_queueable kept (queueable _ stands)
  exact Released.act_releases (.of_queueable ready queueable) c r e.now change.id_eq skipped
    (fun stands => absurd stands waits) (fun _ => waits) (fun _ => waits)

variable (skipped : stands .skipped)

include skipped

theorem Releases.acts {e : Event} {c c' : Released p} (acts : Acts e c c') (kept : e.grants = false) :
    ∃ woken, Releases (¬ stands ·) stands c c' woken := by
  induction acts with
  | refl => exact ⟨[], .refl c⟩
  | tail _ act ih =>
    obtain ⟨woken, first⟩ := ih
    obtain ⟨i, r, t, change, rfl⟩ := act
    obtain ⟨later, second⟩ := Releases.act stands ready queueable kept _ change fun _ => skipped
    exact ⟨_, first.trans (.of_queueable ready queueable) second⟩

namespace Run

variable {s : Run p}

theorem handle_releases (sound : s.Sound) (settled : s.nextStatus? = none) {e : Event}
    (kept : e.grants = false) :
    ∃ woken, Releases (¬ stands ·) stands ⟨s, []⟩ ⟨(s.handle e).2, (s.handle e).1.ready⟩ woken := by
  have handled := handled sound settled e
  generalize s.handle e = result at handled
  cases handled with
  | called call =>
    cases call with
    | heeded found change tells fits named =>
      obtain ⟨woken, releases⟩ :=
        Releases.act stands ready queueable kept ⟨s, []⟩ change fun _ => skipped
      exists woken
      rw [named]
      exact releases.congr fun j => step_refresh _ e.now j
    | ignored silent none =>
      rw [none]
      exact ⟨[], .refl _⟩
  | @swept now settings c found acts named =>
    obtain ⟨woken, releases⟩ := Releases.acts stands ready queueable skipped acts kept
    simp only [Outcome.ready, named]
    exact ⟨woken, releases.congr fun j => step_refresh _ now j⟩
  | @canceled now =>
    have stopped (j) : ((s.halted now).refresh now).step j = stopStep now (s.step j) := by
      rw [step_refresh, step_halted]
    exact ⟨[], .stop (.of_queueable ready queueable) skipped now stopped⟩
  | declined => exact ⟨[], .refl _⟩

end Run

end Queueable

namespace Run

variable {s : Run p}

section Grant

variable (sound : s.Sound) (worker : String) (lease : Uuid) (now : Timestamp) (settings : Scheduling)

theorem grant_missing {id : Uuid} (missing : s.indexOf? id = none) :
    s.handle (.grant id worker lease now settings) =
      (.granted (.error (.missing (.step id))), s) := by
  simp only [handle, grant, missing]

theorem grant_stale {id : Uuid} {i : Fin p.size} (found : s.indexOf? id = some i)
    (held : (s.step i).status ≠ .ready) :
    s.handle (.grant id worker lease now settings) = (.granted (.ok .stale), s) := by
  simp only [handle, grant, found, held, ne_eq, not_false_eq_true, decide_true, Bool.or_true, if_true]

include sound

theorem isActive_of_ready {i : Fin p.size} (ready : (s.step i).status = .ready) : s.isActive := by
  by_contra stopped
  have ended := (sound i).stopped (by simpa using stopped)
  rw [ready] at ended
  rcases ended with ended | flying
  · cases ended
  · cases flying

theorem grant_taken {id : Uuid} {i : Fin p.size} (found : s.indexOf? id = some i)
    (ready : (s.step i).status = .ready) {o : Outcome} {s' : Run p}
    (answer : s.handle (.grant id worker lease now settings) = (o, s')) :
    (∃ a, o = .granted (.ok (.leased a)) ∧ a.step.id = id ∧ ∀ j, (s'.step j).id = (s.step j).id ∧
        (s'.step j).status = if j = i then .dispatched else (s.step j).status) ∨
      ∃ why names woken, o = .granted (.ok (.rejected why names)) ∧ (s'.step i).status = .failed ∧
        Releases (· = .pending) (·.isQueueable) ⟨s, []⟩ ⟨s', names⟩ woken := by
  have active := isActive_of_ready sound ready
  obtain ⟨rfl, -⟩ := indexOf?_eq_some_iff.mp found
  obtain ⟨r, t, change, tells, same, -, named⟩ :=
    grant_ready sound found active ready worker lease now settings
  have id := change.id_eq
  rw [answer] at tells same named
  dsimp only at tells same named
  subst same
  cases tells with
  | leased a here dispatched held =>
    left
    have steps (j) : ((Released.act ⟨s, []⟩ i r t now).run.refresh now).step j =
        (s.replace i r t).step j := by
      rw [step_refresh, Released.run_act_of_open _ i now (by simp [dispatched]) (by simp [dispatched])]
    have status (j) : ((s.replace i r t).step j).status =
        if j = i then .dispatched else (s.step j).status := by
      rw [step_replace]
      split
      · exact dispatched
      · rfl
    simp only [steps]
    exact ⟨a, rfl, by rw [here, id], fun j => ⟨step_replace_congr Step.id id j, status j⟩⟩
  | rejected why names failed =>
    right
    have aside := Released.step_act_aside ⟨s, []⟩ i r t now i
    rw [step_replace_self] at aside
    have ended := aside.eq_of_terminal (by rw [failed]; rfl)
    obtain ⟨woken, releases⟩ := Released.failed_releases ⟨s, []⟩ r now id failed
    have names : names = _ := named
    rw [step_refresh, ended, names]
    exact ⟨why, _, woken, rfl, failed, releases.congr fun j => step_refresh _ now j⟩

end Grant

end Run

end Orchestration
