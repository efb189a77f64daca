import Orchestration.Proofs.Run.Releases

namespace Orchestration

variable {p : Plan}

def Workflow.uneven : Workflow :=
  ⟨.nil, "uneven", 1, "",
    [⟨"a", .function, [], 1, none, 0, .null⟩, ⟨"b", .function, [], 0, none, 0, .null⟩], .epoch⟩

def Plan.uneven : Plan :=
  ⟨.uneven, ⟨#v[[], []], #v[[], []], List.finRange 2⟩⟩

theorem Plan.uneven_built : ofWorkflow .uneven = .ok .uneven := by rfl

namespace Run

/-- `names` lists, without repetition, the steps that are ready in `s'` and were not in `s`. -/
def Wakes (s s' : Run p) (names : List Uuid) : Prop :=
  ∃ woken : List (Fin p.size), woken.Nodup ∧ names = woken.map (fun i => (s.step i).id) ∧
    ∀ i, i ∈ woken ↔ (s'.step i).status = .ready ∧ (s.step i).status ≠ .ready

/-- No step is ready in `s'`, and those that `names` lists, without repetition, were skipped. -/
def Overtaken (s s' : Run p) (names : List Uuid) : Prop :=
  (∀ i, (s'.step i).status ≠ .ready) ∧
    ∃ woken : List (Fin p.size), woken.Nodup ∧ names = woken.map (fun i => (s.step i).id) ∧
      ∀ i ∈ woken, (s.step i).status ≠ .ready ∧ (s'.step i).status = .skipped

theorem Wakes.none {s s' : Run p}
    (none : ∀ i, (s'.step i).status = .ready → (s.step i).status = .ready) : s.Wakes s' [] := by
  refine ⟨[], .nil, rfl, fun i => iff_of_false List.not_mem_nil ?_⟩
  exact fun ⟨after, before⟩ => before (none i after)

theorem Wakes.exists_ready {s s' : Run p} {names : List Uuid} (wakes : s.Wakes s' names)
    (named : names ≠ []) : ∃ i, (s'.step i).status = .ready := by
  obtain ⟨woken, -, same, all⟩ := wakes
  have some : woken ≠ [] := by
    rintro rfl
    exact named same
  exact ⟨woken.head some, ((all _).mp (List.head_mem some)).1⟩

theorem stopStep_not_ready (now : Timestamp) (t : Step) : (stopStep now t).status ≠ .ready := by
  unfold stopStep
  split <;> simp [*]

theorem Sound.not_ready {s : Run p} (sound : s.Sound) (stopped : s.isActive = false) (i : Fin p.size) :
    (s.step i).status ≠ .ready := by
  intro ready
  rw [isActive_of_ready sound ready] at stopped
  cases stopped

end Run

theorem Step.Aside.not_ready {s t : Step} {now : Timestamp} (aside : s.Aside now t)
    (waits : s.status ≠ .pending) (held : s.status ≠ .ready) : t.status ≠ .ready := by
  cases aside with
  | same => exact held
  | wake pending => exact absurd pending waits
  | skip => simp
  | stop => exact Run.stopStep_not_ready now s

theorem Change.not_pending {node : Node} {r r' : RunRecord} {s t : Step} {e : Event}
    (change : Change node r s e r' t) : t.status ≠ .pending := by
  have again (u : Step) (now : Timestamp) (settings : Scheduling) :
      (u.again now settings).status ≠ .pending := by
    rcases u.again_status now settings with ready | retrying
    · simp [ready]
    · simp [retrying]
  cases change with
  | retry | reclaim => exact again _ _ _
  | _ => simp

theorem Change.not_ready {node : Node} {r r' : RunRecord} {s t : Step} {e : Event}
    (change : Change node r s e r' t) (woke : t.status = .ready) : s.status ≠ .ready := by
  cases kept : e.grants with
  | false =>
    intro ready
    apply change.not_queueable kept
    rw [ready]
    rfl
  | true =>
    cases change with
    | lease | reject => cases woke
    | _ => cases kept

theorem Acts.status_of_stopped {e : Event} {c c' : Released p} (acts : Acts e c c')
    (stopped : ¬ c.run.isActive) : c'.run.record.status = c.run.record.status := by
  refine acts.preserve (P := fun s => s.record.status = c.run.record.status) rfl ?_ ?_ ?_
  · intro s i r t same change _
    rcases change.begins with ⟨active, -⟩ | ⟨kept, -⟩
    · rw [same] at active
      exact absurd active stopped
    · exact kept.trans same
  · exact fun s s' same ripple => by rw [ripple.record, same]
  · intro s i r t why same change breaks
    have active := change.active_eq.symm.trans breaks.1
    rw [same] at active
    exact absurd active stopped

theorem StepStatus.queueable_of_ready (status : StepStatus) (ready : status = .ready) :
    status.isQueueable := by
  rw [ready]
  rfl

theorem Queueing.only_ready : Queueing (¬ · = .ready) (· = .ready) :=
  .of_queueable rfl StepStatus.queueable_of_ready

theorem Releases.wakes {s : Run p} {c : Released p} {woken : List (Fin p.size)}
    (releases : Releases (¬ · = .ready) (· = .ready) ⟨s, []⟩ c woken) : s.Wakes c.run c.ready := by
  refine ⟨woken, releases.nodup, releases.named, fun i => ⟨fun member => ?_, fun ⟨after, before⟩ => ?_⟩⟩
  · exact (releases.new i member).symm
  · exact (releases.all i after).resolve_left before

namespace Run

variable {s : Run p}

theorem Wakes.of_replace {s' : Run p} {i : Fin p.size} {r : RunRecord} {t : Step} {names : List Uuid}
    (wakes : (s.replace i r t).Wakes s' names) (id : t.id = (s.step i).id)
    (after : (s'.step i).status ≠ .ready) : s.Wakes s' names := by
  obtain ⟨woken, nodup, named, all⟩ := wakes
  refine ⟨woken, nodup, ?_, fun j => ?_⟩
  · simp only [named, step_replace_congr Step.id id]
  · rw [all, step_replace]
    split
    · subst j
      exact iff_of_false (fun both => after both.1) (fun both => after both.1)
    · rfl

theorem act_of_breaks (c : Released p) (i : Fin p.size) {r : RunRecord} {t : Step} (now : Timestamp)
    (breaks : breaks r t) :
    (c.act i r t now).ready = c.ready ∧ ∀ j, ((c.act i r t now).run.step j).status ≠ .ready := by
  obtain ⟨active, failFast, failed⟩ := breaks
  rw [Released.act_of_failed c i now active failed]
  constructor
  · simp [Released.stepFailed, failFast]
  · intro j
    obtain ⟨why, same⟩ := Released.stepFailed_of_failFast ⟨c.run.replace i r t, c.ready⟩ i now failFast
    rw [same, step_collapse]
    exact stopStep_not_ready now _

theorem act_wakes {i : Fin p.size} {r : RunRecord} {t : Step} {e : Event}
    (change : Change (p.node i) s.record (s.step i) e r t) :
    s.Wakes (Released.act ⟨s, []⟩ i r t e.now).run (Released.act ⟨s, []⟩ i r t e.now).ready := by
  by_cases breaks : breaks r t
  · obtain ⟨named, held⟩ := act_of_breaks ⟨s, []⟩ i e.now breaks
    rw [named]
    exact .none fun j ready => absurd ready (held j)
  by_cases woke : t.status = .ready
  · rw [Released.act_of_open _ i e.now (by simp [woke]) (by simp [woke]), if_pos woke]
    refine ⟨[i], List.nodup_singleton i, by simp [change.id_eq], fun j => ?_⟩
    rw [List.mem_singleton, step_replace]
    split
    · subst j
      exact iff_of_true rfl ⟨woke, change.not_ready woke⟩
    · exact iff_of_false ‹_› fun both => both.2 both.1
  · have aside := Released.step_act_aside ⟨s, []⟩ i r t e.now i
    rw [step_replace_self] at aside
    obtain ⟨woken, releases⟩ := Released.follow_releases .only_ready ⟨s.replace i r t, []⟩ i e.now
      (by simpa using fun breaks' => absurd breaks' breaks)
    have wakes := releases.wakes
    have same : Released.act ⟨s, []⟩ i r t e.now = Released.follow ⟨s.replace i r t, []⟩ i e.now := by
      rw [Released.act, if_neg woke]
    rw [← same] at wakes
    exact wakes.of_replace change.id_eq (aside.not_ready change.not_pending woke)

theorem acts_wake {now : Timestamp} {settings : Scheduling} {c c' : Released p}
    (acts : Acts (.sweep now settings) c c') :
    (∃ woken, Releases (¬ · = .ready) (· = .ready) c c' woken) ∨
      c.run.isActive ∧ c.run.record.policy = .failFast ∧ c'.run.record.status = .failed := by
  induction acts with
  | refl => exact .inl ⟨[], .refl c⟩
  | @tail c' c'' acts act ih =>
    rcases ih with ⟨woken, first⟩ | ⟨active, failFast, failed⟩
    · obtain ⟨i, r, t, change, rfl⟩ := act
      by_cases breaks : breaks r t
      · have active := Acts.active_of acts (change.active_eq.symm.trans breaks.1)
        have failFast := breaks.2.1
        rw [change.policy_eq, Acts.policy_eq acts] at failFast
        rcases c'.act_cases i r t now with ⟨mild, -⟩ | ⟨-, why, same⟩
        · exact absurd breaks mild
        · exact .inr ⟨active, failFast, by rw [Event.now, same]; rfl⟩
      · obtain ⟨later, second⟩ := Releases.act (· = .ready) rfl StepStatus.queueable_of_ready rfl c'
          change fun breaks' => absurd breaks' breaks
        exact .inl ⟨_, first.trans .only_ready second⟩
    · have stopped : ¬ c'.run.isActive := by simp [isActive, failed, RunStatus.isActive]
      exact .inr ⟨active, failFast, (Acts.status_of_stopped (.single act) stopped).trans failed⟩

/-- An event names what it made ready, unless it is a sweep that fails the run. -/
theorem handle_wakes (sound : s.Sound) (settled : s.nextStatus? = none) (e : Event) :
    s.Wakes (s.handle e).2 (s.handle e).1.ready ∨
      (∃ now settings, e = .sweep now settings) ∧ s.isActive ∧ s.record.policy = .failFast ∧
        (s.handle e).2.record.status = .failed := by
  have handled := handled sound settled e
  generalize s.handle e = result at handled
  cases handled with
  | called call =>
    left
    cases call with
    | heeded found change tells fits named =>
      have wakes := act_wakes change
      rw [named]
      simpa only [Wakes, step_refresh] using wakes
    | ignored silent none =>
      rw [none]
      exact .none fun _ ready => ready
  | @swept now settings c found acts named =>
    simp only [Outcome.ready, named]
    rcases acts_wake acts with ⟨woken, releases⟩ | ⟨active, failFast, failed⟩
    · exact .inl (by simpa only [Wakes, step_refresh] using releases.wakes)
    · refine .inr ⟨⟨now, settings, rfl⟩, active, failFast, ?_⟩
      rwa [refresh_eq_self (nextStatus?_eq_none_iff.mpr (.inl (by rw [failed]; rfl)))]
  | canceled =>
    refine .inl (.none fun i ready => ?_)
    rw [step_refresh, step_halted] at ready
    exact absurd ready (stopStep_not_ready _ _)
  | declined => exact .inl (.none fun _ ready => ready)

theorem handle_overtaken (sound : s.Sound) (settled : s.nextStatus? = none) {e : Event}
    (kept : e.grants = false) (stops : (s.handle e).2.isActive = false) :
    s.Overtaken (s.handle e).2 (s.handle e).1.ready := by
  have held (i) := (sound.handle settled e).not_ready stops i
  obtain ⟨woken, releases⟩ := handle_releases (fun status => status = .ready ∨ status = .skipped)
    (.inl rfl) (by rintro status (rfl | rfl) <;> rfl) (.inr rfl) sound settled kept
  refine ⟨held, woken, releases.nodup, releases.named, fun i member => ?_⟩
  obtain ⟨before, after⟩ := releases.new i member
  exact ⟨fun ready => before (.inl ready), after.resolve_left (held i)⟩

/-- After any events an event names exactly the steps that it makes ready, each once. Only a sweep that
fails the run may name steps that it skips in the end. -/
theorem wakes_after {w : Workflow} (built : Plan.ofWorkflow w = .ok p) {record : RunRecord}
    (fresh : record.Fresh) (stepId : Nat → Uuid) (events : List Event) (e : Event) :
    let s := (start p record stepId).after events
    let s' := (s.handle e).2
    let names := (s.handle e).1.ready
    s.Wakes s' names ∨
      (∃ now settings, e = .sweep now settings) ∧ s.isActive ∧ record.policy = .failFast ∧
        s'.record.status = .failed ∧ s.Overtaken s' names := by
  intro s s' names
  have ordered := Plan.ordered built
  have valid := valid_after ordered fresh stepId events
  have policy : s.record.policy = record.policy :=
    (Valid.start ordered fresh stepId).after_policy ordered events
  rcases handle_wakes valid.sound valid.settled e with wakes | ⟨sweeps, active, failFast, failed⟩
  · exact .inl wakes
  · obtain ⟨now, settings, rfl⟩ := sweeps
    have overtaken := handle_overtaken valid.sound valid.settled rfl (congrArg RunStatus.isActive failed)
    exact .inr ⟨⟨now, settings, rfl⟩, active, policy.symm.trans failFast, failed, overtaken⟩

/-- Both leases have expired at the sweep. The first step is made ready for another attempt, and then
the second, which has none left, fails the run. -/
theorem wakes_after_collapse :
    let record := RunRecord.queued .nil Workflow.uneven.reference .failFast .epoch
    let events : List Event :=
      [.grant (.ofNat 0) "first" (.ofNat 2) .epoch default,
        .grant (.ofNat 1) "second" (.ofNat 3) .epoch default]
    let s := (start .uneven record .ofNat).after events
    let answer := s.handle (.sweep (Timestamp.epoch.after (seconds 1800)) default)
    answer.1.ready = [.ofNat 0] ∧ ¬ s.Wakes answer.2 answer.1.ready ∧
      s.Overtaken answer.2 answer.1.ready := by
  intro record events s answer
  have fresh : record.Fresh :=
    RunRecord.queued_fresh .nil Workflow.uneven.reference .failFast .epoch none [] .null
  have named : answer.1.ready = [.ofNat 0] := by decide +kernel
  have none : ∀ i : Fin 2, (answer.2.step i).status ≠ .ready := by decide +kernel
  have missed : ¬ s.Wakes answer.2 answer.1.ready := by
    intro wakes
    obtain ⟨i, ready⟩ := wakes.exists_ready (by rw [named]; simp)
    exact none i ready
  have wakes := wakes_after Plan.uneven_built fresh .ofNat events
    (.sweep (Timestamp.epoch.after (seconds 1800)) default)
  exact ⟨named, missed, (wakes.resolve_left missed).2.2.2.2⟩

end Run

end Orchestration
