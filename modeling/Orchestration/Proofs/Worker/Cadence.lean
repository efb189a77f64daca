import Orchestration.Proofs.Run.Exclusive
import Orchestration.Proofs.Run.Stopped
import Orchestration.Proofs.Worker.Steady
import Orchestration.Settings.Basic

namespace Orchestration

theorem Settings.interval_lt_ttl {c : Settings} (sound : c.flaw? = none) :
    c.scheduling.leaseTtlSecs ≠ 0 ∧ millis c.pool.heartbeatIntervalMs.toNat < c.scheduling.leaseTtl := by
  unfold flaw? at sound
  cases flaw : c.scheduling.flaw? with
  | some flaw =>
    rw [flaw] at sound
    cases sound
  | none =>
    simp only [flaw] at sound
    constructor
    · exact Scheduling.lasting_of_flaw? flaw
    · refine Nat.not_le.mp fun late => ?_
      simp only [late, if_true] at sound
      split at sound
      · cases sound
      · split at sound <;> cases sound

/-- The events that may change, by itself, a step that `worker` holds under `lease`. -/
inductive Concerns (step lease : Uuid) (worker : String) (deadline : Timestamp) : Event → Prop
  | renewed (now : Timestamp) (settings : Scheduling) :
      Concerns step lease worker deadline (.renew step worker now settings)
  | answered (report : Report) (now : Timestamp) (settings : Scheduling)
      (quoted : report.lease = lease) :
      Concerns step lease worker deadline (.accept step report now settings)
  | expired (now : Timestamp) (settings : Scheduling) (past : deadline ≤ now) :
      Concerns step lease worker deadline (.sweep now settings)

variable {lease : Uuid} {worker : String} {deadline : Timestamp}

theorem Change.concerns {node : Node} {r r' : RunRecord} {t u : Step} {e : Event}
    (change : Change node r t e r' u) (held : t.Held lease worker deadline) :
    Concerns t.id lease worker deadline e := by
  obtain ⟨flying, l, leased, rfl, rfl, rfl⟩ := held
  cases change with
  | lease _ _ _ _ _ ready | reject _ _ _ _ _ ready =>
    rw [ready] at flying
    cases flying
  | promote _ _ _ retrying =>
    rw [retrying] at flying
    cases flying
  | renew l' now settings leased' | abandon l' now settings leased' =>
    obtain rfl : l = l' := Option.some.inj (leased.symm.trans leased')
    exact .renewed now settings
  | succeed l' report now settings leased' _ _ quoted | fail l' report now settings leased' _ _ quoted
  | retry l' report now settings leased' _ _ quoted =>
    obtain rfl : l = l' := Option.some.inj (leased.symm.trans leased')
    exact .answered report now settings quoted
  | drop l' now settings leased' _ past | expire l' now settings leased' _ past
  | reclaim l' now settings leased' _ past =>
    obtain rfl : l = l' := Option.some.inj (leased.symm.trans leased')
    exact .expired now settings past

namespace Run

variable {p : Plan} {s : Run p} {i : Fin p.size}

theorem handle_apart (sound : s.Sound) (settled : s.nextStatus? = none)
    (held : (s.step i).Held lease worker deadline) {e : Event}
    (apart : ¬ Concerns (s.step i).id lease worker deadline e) :
    ((s.handle e).2.step i).Held lease worker deadline := by
  have handled := handled sound settled e
  generalize s.handle e = result at handled
  cases handled with
  | called call =>
    cases call with
    | ignored => exact held
    | @heeded j r t o found change =>
      have aside := Released.step_act_aside ⟨s, []⟩ j r t e.now i
      have other : i ≠ j := by
        rintro rfl
        exact apart (change.concerns held)
      rw [step_replace, if_neg other] at aside
      rw [step_refresh]
      exact held.aside aside
  | @swept now settings c found acts =>
    have early : now < deadline := Int.not_le.mp fun past => apart (.expired now settings past)
    rw [step_refresh]
    exact Acts.held acts early held
  | canceled =>
    rw [step_refresh, step_halted]
    exact held.aside .stop
  | declined => exact held

theorem renew_held (sound : s.Sound) (active : s.isActive) (found : s.indexOf? (s.step i).id = some i)
    (held : (s.step i).Held lease worker deadline) {now : Timestamp} (early : now < deadline)
    (settings : Scheduling) :
    let answer := s.handle (.renew (s.step i).id worker now settings)
    (∃ l, answer.1 = .renewed (.ok (.renewed l))) ∧
      (answer.2.step i).Held lease worker (now.after (settings.ttl (p.node i))) := by
  intro answer
  obtain ⟨flying, l, leased, rfl, rfl, rfl⟩ := held
  have kept : l.abandoned = false := by
    rw [(sound i).kept l leased, active]
    rfl
  let l' : Lease := ⟨l.id, l.worker, now.after (settings.ttl (p.node i)), false⟩
  have renewed : answer = (.renewed (.ok (.renewed l')),
      s.put i { s.step i with status := .running, lease := some l' }) := by
    simp only [answer, handle, renew_eq found flying leased early, kept, Bool.false_eq_true, if_false]
    rfl
  rw [renewed, step_put_self]
  exact ⟨⟨l', rfl⟩, rfl, l', rfl, rfl, rfl, rfl⟩

theorem renew_late (found : s.indexOf? (s.step i).id = some i)
    (held : (s.step i).Held lease worker deadline) {now : Timestamp} (late : deadline ≤ now)
    (settings : Scheduling) :
    s.handle (.renew (s.step i).id worker now settings) =
      (.renewed (.error (.leaseLost (s.step i).id worker)), s) := by
  obtain ⟨-, l, leased, -, -, rfl⟩ := held
  have lost : ¬ s.heldBy i worker now := by
    rw [heldBy_iff]
    rintro ⟨-, l', leased', -, early⟩
    obtain rfl : l = l' := Option.some.inj (leased.symm.trans leased')
    exact Int.not_lt.mpr late early
  simp only [handle, renew, found, lost, Bool.not_false, if_true]

theorem Valid.isActive_of_after (ordered : p.Ordered) {canceled : Bool} (valid : s.Valid canceled)
    {events : List Event} (active : (s.after events).isActive) : s.isActive := by
  by_contra stopped
  refine valid.preserve (P := (¬ ·.isActive)) ordered stopped ?_ events active
  exact fun _ _ e valid stopped => handle_inactive valid.sound valid.settled stopped e

theorem grant_held (sound : s.Sound) {step : Uuid} (found : s.indexOf? step = some i) {now : Timestamp}
    {settings : Scheduling}
    (leased : (s.handle (.grant step worker lease now settings)).1.assignment?.isSome) :
    let s' := (s.handle (.grant step worker lease now settings)).2
    s'.isActive ∧ (s'.step i).Held lease worker (now.after (settings.ttl (p.node i))) := by
  have call := grant_call sound step worker lease now settings
  generalize s.handle (.grant step worker lease now settings) = result at call leased
  cases call with
  | ignored silent =>
    rw [Outcome.assignment?_of_not_heeds silent] at leased
    cases leased
  | @heeded j r t o found' change tells =>
    have active := change.active_eq
    cases tells with
    | rejected => cases leased
    | leased a same dispatched =>
      cases change with
      | reject => cases dispatched
      | lease _ _ _ _ goes =>
        obtain rfl : i = j := Option.some.inj (found.symm.trans found')
        rw [Event.now, refresh_act_of_inFlight now rfl]
        refine ⟨active.trans goes, ?_⟩
        dsimp only
        rw [step_replace_self]
        exact ⟨rfl, _, rfl, rfl, rfl, rfl⟩

end Run

/-- An event between two heartbeats on a step, where seconds are counted without leap seconds. Renewals
are made under the settings `c`, and the worker has not reported yet. -/
structure Between (step lease : Uuid) (c : Scheduling) (first last : Timestamp) (e : Event) : Prop where
  early : last < .latest
  after : first.nanos ≤ e.now.nanos
  before : e.now ≤ last
  settings : ∀ worker now settings, e = .renew step worker now settings → settings = c
  unanswered : ∀ report now settings, e = .accept step report now settings → report.lease ≠ lease

/-- Events from `first` on, with a heartbeat of `worker` on `step` at `last` and then every `interval`,
for as many heartbeats as one likes. -/
inductive Cadence (step lease : Uuid) (worker : String) (c : Scheduling) (interval : Nat) :
    Timestamp → Timestamp → List Event → Prop
  | rest {first last : Timestamp} {gap : List Event}
      (between : ∀ e ∈ gap, Between step lease c first last e) :
      Cadence step lease worker c interval first last gap
  | beat {first last : Timestamp} {gap events : List Event}
      (between : ∀ e ∈ gap, Between step lease c first last e) (early : last < .latest)
      (more : Cadence step lease worker c interval last (last.after interval) events) :
      Cadence step lease worker c interval first last (gap ++ .renew step worker last c :: events)

/-- Two nodes that wait for none, of which the first has a timeout shorter than the usual interval
between heartbeats. -/
def Workflow.brief : Workflow :=
  ⟨.nil, "brief", 1, "",
    [⟨"a", .function, [], 1, some 5, 0, .null⟩, ⟨"b", .function, [], 1, none, 0, .null⟩], .epoch⟩

def Plan.brief : Plan :=
  ⟨.brief, ⟨#v[[], []], #v[[], []], List.finRange 2⟩⟩

theorem Plan.brief_built : ofWorkflow .brief = .ok .brief := by rfl

namespace Run

variable {p : Plan} {s : Run p} {i : Fin p.size}

/-- Through all events `worker` holds step `i` under `lease`, and whenever it asks for it the lease is
renewed. -/
def Keeps (i : Fin p.size) (step lease : Uuid) (worker : String) : Run p → List Event → Prop
  | _, [] => True
  | s, e :: events =>
    (∃ deadline, ((s.handle e).2.step i).Held lease worker deadline) ∧
      (∀ now settings, e = .renew step worker now settings →
        ∃ l, (s.handle e).1 = .renewed (.ok (.renewed l))) ∧
      Keeps i step lease worker (s.handle e).2 events

structure Lasts (s : Run p) (i : Fin p.size) (step lease : Uuid) (worker : String) (last : Timestamp) :
    Prop where
  id : (s.step i).id = step
  distinct : ∀ i j, (s.step i).id = (s.step j).id → i = j
  held : ∃ deadline, (s.step i).Held lease worker deadline ∧ (last < .latest → last < deadline)

namespace Lasts

variable {canceled : Bool} {step : Uuid} {c : Scheduling} {interval : Nat} {first last : Timestamp}

theorem handle (lasts : s.Lasts i step lease worker last) (valid : s.Valid canceled) {e : Event}
    {next deadline : Timestamp} (held : ((s.handle e).2.step i).Held lease worker deadline)
    (beyond : next < .latest → next < deadline) : (s.handle e).2.Lasts i step lease worker next := by
  have ids := handle_id valid.sound valid.settled e
  exact ⟨(ids i).trans lasts.id, fun i j => by simpa only [ids] using lasts.distinct i j,
    deadline, held, beyond⟩

theorem beat (lasts : s.Lasts i step lease worker last) (valid : s.Valid canceled) (active : s.isActive)
    (longer : interval < c.ttl (p.node i)) (early : last < .latest) :
    let answer := s.handle (.renew step worker last c)
    (∃ l, answer.1 = .renewed (.ok (.renewed l))) ∧
      answer.2.Lasts i step lease worker (last.after interval) := by
  intro answer
  obtain ⟨deadline, held, beyond⟩ := lasts.held
  obtain ⟨renewed, held'⟩ := renew_held valid.sound active (indexOf?_self lasts.distinct i) held
    (beyond early) c
  rw [lasts.id] at renewed held'
  refine ⟨renewed, lasts.handle valid held' fun early' => ?_⟩
  have long := Scheduling.le_ttl (Nat.zero_lt_of_lt longer)
  exact Timestamp.lt_after_of_le (Int.le_refl _) longer long (Int.le_refl _) early'

theorem between (lasts : s.Lasts i step lease worker last) (valid : s.Valid canceled)
    (active : s.isActive) (longer : interval < c.ttl (p.node i)) (span : last ≤ first.after interval)
    {e : Event} (between : Between step lease c first last e) :
    (∀ now settings, e = .renew step worker now settings →
        ∃ l, (s.handle e).1 = .renewed (.ok (.renewed l))) ∧
      (s.handle e).2.Lasts i step lease worker last := by
  obtain ⟨deadline, held, beyond⟩ := lasts.held
  have alive := beyond between.early
  by_cases renews : ∃ now settings, e = .renew step worker now settings
  · obtain ⟨now, settings, rfl⟩ := renews
    obtain rfl := between.settings worker now settings rfl
    have early : now < deadline := Int.lt_of_le_of_lt between.before alive
    obtain ⟨renewed, held'⟩ := renew_held valid.sound active (indexOf?_self lasts.distinct i) held
      early settings
    rw [lasts.id] at renewed held'
    refine ⟨fun _ _ _ => renewed, lasts.handle valid held' fun early' => ?_⟩
    have long := Scheduling.le_ttl (Nat.zero_lt_of_lt longer)
    exact Timestamp.lt_after_of_le span longer long between.after early'
  · have apart : ¬ Concerns (s.step i).id lease worker deadline e := by
      rw [lasts.id]
      intro concerns
      cases concerns with
      | renewed now settings => exact renews ⟨now, settings, rfl⟩
      | answered report now settings quoted => exact between.unanswered report now settings rfl quoted
      | expired now settings past =>
        exact Int.not_lt.mpr (Int.le_trans past between.before) alive
    have held' := handle_apart valid.sound valid.settled held apart
    exact ⟨fun now settings same => absurd ⟨now, settings, same⟩ renews,
      lasts.handle valid held' fun _ => alive⟩

theorem keeps_gap (ordered : p.Ordered) (lasts : s.Lasts i step lease worker last)
    (valid : s.Valid canceled) (longer : interval < c.ttl (p.node i))
    (span : last ≤ first.after interval) {gap events : List Event}
    (gaps : ∀ e ∈ gap, Between step lease c first last e) (active : (s.after (gap ++ events)).isActive)
    (more : (s.after gap).Lasts i step lease worker last →
      (s.after gap).Keeps i step lease worker events) :
    s.Keeps i step lease worker (gap ++ events) := by
  induction gap generalizing s canceled with
  | nil => exact more lasts
  | cons e gap ih =>
    have goes := valid.isActive_of_after ordered active
    obtain ⟨renewed, lasts'⟩ := lasts.between valid goes longer span (gaps e (List.mem_cons_self ..))
    obtain ⟨deadline, held, -⟩ := lasts'.held
    refine ⟨⟨deadline, held⟩, renewed, ih lasts' (valid.handle ordered e) ?_ active more⟩
    exact fun e' member => gaps e' (List.mem_cons_of_mem e member)

theorem keeps (ordered : p.Ordered) (lasts : s.Lasts i step lease worker last)
    (valid : s.Valid canceled) (longer : interval < c.ttl (p.node i))
    (span : last ≤ first.after interval) {events : List Event}
    (cadence : Cadence step lease worker c interval first last events)
    (active : (s.after events).isActive) : s.Keeps i step lease worker events := by
  induction cadence generalizing s canceled with
  | @rest first last gap gaps =>
    rw [← List.append_nil gap] at active ⊢
    exact lasts.keeps_gap ordered valid longer span gaps active fun _ => trivial
  | @beat first last gap events gaps early more ih =>
    refine lasts.keeps_gap ordered valid longer span gaps active fun lasts => ?_
    have valid := valid.after ordered gap
    rw [after_append] at active
    have goes := valid.isActive_of_after ordered active
    obtain ⟨renewed, lasts'⟩ := lasts.beat valid goes longer early
    obtain ⟨deadline, held, -⟩ := lasts'.held
    refine ⟨⟨deadline, held⟩, fun now settings same => ?_, ?_⟩
    · cases same
      exact renewed
    · exact ih lasts' (valid.handle ordered _) (Int.le_refl _) active

theorem beat_late (lasts : s.Lasts i step lease worker last) (valid : s.Valid canceled)
    (active : s.isActive) (brief : c.ttl (p.node i) ≤ interval) (early : last < .latest) :
    ((s.handle (.renew step worker last c)).2.handle
      (.renew step worker (last.after interval) c)).1 = .renewed (.error (.leaseLost step worker)) := by
  obtain ⟨deadline, held, beyond⟩ := lasts.held
  obtain ⟨-, held'⟩ := renew_held valid.sound active (indexOf?_self lasts.distinct i) held
    (beyond early) c
  rw [lasts.id] at held'
  have late : last.after (c.ttl (p.node i)) ≤ last.after interval :=
    Timestamp.after_mono_delay (Int.le_of_lt early) brief
  let s' := (s.handle (.renew step worker last c)).2
  have ids (j) : (s'.step j).id = (s.step j).id :=
    handle_id valid.sound valid.settled (.renew step worker last c) j
  have found : s'.indexOf? (s'.step i).id = some i := by
    rw [indexOf?_congr ids, ids]
    exact indexOf?_self lasts.distinct i
  have lost := renew_late found held' late c
  rw [ids, lasts.id] at lost
  rw [lost]

end Lasts

/-- A worker that takes a step under valid settings, and renews its lease at once and then at every
heartbeat, keeps the step as long as the run goes on, unless the node has a timeout no longer than the
interval between heartbeats. With such a timeout the second heartbeat finds the lease lost. -/
theorem cadence_after {c : Settings} (sound : c.flaw? = none) {w : Workflow}
    (built : Plan.ofWorkflow w = .ok p) {record : RunRecord} (fresh : record.Fresh) (stepId : Nat → Uuid)
    (distinct : ∀ i j : Fin p.size, stepId i = stepId j → i = j) (events : List Event) (i : Fin p.size)
    (worker : String) (lease : Uuid) {now : Timestamp} (early : now < .latest) :
    let interval := millis c.pool.heartbeatIntervalMs.toNat
    let answer := ((start p record stepId).after events).handle
      (.grant (stepId i) worker lease now c.scheduling)
    answer.1.assignment?.isSome →
      ((∀ secs, (p.node i).timeoutSecs = some secs → interval < seconds secs.toNat) →
        ∀ beats, Cadence (stepId i) lease worker c.scheduling interval now now beats →
          (answer.2.after beats).isActive → answer.2.Keeps i (stepId i) lease worker beats) ∧
      ∀ secs, (p.node i).timeoutSecs = some secs → seconds secs.toNat ≤ interval →
        ((answer.2.handle (.renew (stepId i) worker now c.scheduling)).2.handle
          (.renew (stepId i) worker (now.after interval) c.scheduling)).1 =
            .renewed (.error (.leaseLost (stepId i) worker)) := by
  intro interval answer leased
  have ordered := Plan.ordered built
  have valid := valid_after ordered fresh stepId events
  have ids (j : Fin p.size) : (((start p record stepId).after events).step j).id = stepId j := by
    rw [(Valid.start ordered fresh stepId).after_id ordered, start_id]
  have apart := ids_distinct ordered fresh stepId distinct events
  have found := indexOf?_self apart i
  rw [ids] at found
  obtain ⟨active, held⟩ := grant_held valid.sound found leased
  obtain ⟨lasting, shorter⟩ := Settings.interval_lt_ttl sound
  have positive := Scheduling.ttl_pos lasting (Plan.node_sound built i).2
  have valid' : answer.2.Valid _ := valid.handle ordered _
  have lasts : answer.2.Lasts i (stepId i) lease worker now := by
    have after := handle_id valid.sound valid.settled
      (.grant (stepId i) worker lease now c.scheduling)
    refine ⟨(after i).trans (ids i), fun j k same => apart j k ?_, _, held, fun early => ?_⟩
    · rwa [after, after] at same
    · exact Timestamp.lt_after early positive
  refine ⟨fun longer beats cadence goes => ?_, fun secs given brief => ?_⟩
  · have longer : interval < c.scheduling.ttl (p.node i) := by
      unfold Scheduling.ttl
      split
      · exact longer _ ‹_›
      · exact shorter
    exact lasts.keeps ordered valid' longer (Timestamp.le_after (Int.le_of_lt early) interval) cadence goes
  · refine lasts.beat_late valid' active ?_ early
    rwa [Scheduling.ttl, given]

/-- The default settings and both nodes are accepted. Under the usual lease the second heartbeat comes in
time, and under that of the first node too late. -/
theorem cadence_after_grants :
    let c : Settings := default
    let s := start .brief (.queued .nil Workflow.brief.reference .failFast .epoch) .ofNat
    let next := Timestamp.epoch.after (millis 10000)
    let lost := s.handle (.grant (.ofNat 0) "worker" (.ofNat 2) .epoch c.scheduling)
    let kept := s.handle (.grant (.ofNat 1) "worker" (.ofNat 2) .epoch c.scheduling)
    c.flaw? = none ∧ c.scheduling.timeoutsFlaw? Workflow.brief.nodes = none ∧
      ((lost.2.handle (.renew (.ofNat 0) "worker" .epoch c.scheduling)).2.handle
        (.renew (.ofNat 0) "worker" next c.scheduling)).1 =
          .renewed (.error (.leaseLost (.ofNat 0) "worker")) ∧
      Keeps (p := .brief) (1 : Fin 2) (.ofNat 1) (.ofNat 2) "worker" kept.2
        [.renew (.ofNat 1) "worker" .epoch c.scheduling, .sweep next c.scheduling,
          .renew (.ofNat 1) "worker" next c.scheduling] := by
  intro c s next lost kept
  have sound : c.flaw? = none := by decide
  have fresh : (RunRecord.queued .nil Workflow.brief.reference .failFast .epoch).Fresh :=
    RunRecord.queued_fresh .nil Workflow.brief.reference .failFast .epoch none [] .null
  have first := cadence_after sound Plan.brief_built fresh .ofNat (by decide +kernel) [] (0 : Fin 2)
    "worker" (.ofNat 2) (by decide : Timestamp.epoch < .latest) (by decide +kernel)
  have second := cadence_after sound Plan.brief_built fresh .ofNat (by decide +kernel) [] (1 : Fin 2)
    "worker" (.ofNat 2) (by decide : Timestamp.epoch < .latest) (by decide +kernel)
  have swept : ∀ e ∈ [Event.sweep next c.scheduling],
      Between (.ofNat 1) (.ofNat 2) c.scheduling .epoch next e := by
    intro e member
    rw [List.mem_singleton.mp member]
    constructor
    case settings => exact fun _ _ _ renews => nomatch renews
    case unanswered => exact fun _ _ _ reports => nomatch reports
    all_goals decide +kernel
  have cadence : Cadence (.ofNat 1) (.ofNat 2) "worker" c.scheduling (millis 10000) .epoch .epoch
      ([] ++ .renew (.ofNat 1) "worker" .epoch c.scheduling :: ([.sweep next c.scheduling] ++
        .renew (.ofNat 1) "worker" next c.scheduling :: [])) :=
    .beat (by simp) (by decide +kernel) (.beat swept (by decide +kernel) (.rest (by simp)))
  refine ⟨sound, by decide, first.2 5 rfl (by decide), second.1 ?_ _ cadence (by decide +kernel)⟩
  exact fun secs given => nomatch given

end Run

end Orchestration
