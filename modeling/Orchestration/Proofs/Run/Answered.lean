import Orchestration.Proofs.Run.Valid

namespace Orchestration

def applies (lease : Uuid) : Event × Outcome → Bool
  | (.accept _ report _ _, .accepted (.ok (.applied ..))) => report.lease = lease
  | _ => false

theorem applies_iff {lease : Uuid} {e : Event} {o : Outcome} :
    applies lease (e, o) ↔ ∃ step report now settings status ready,
      e = .accept step report now settings ∧ o = .accepted (.ok (.applied status ready)) ∧
        report.lease = lease := by
  constructor
  · intro applied
    unfold applies at applied
    split at applied
    · rename_i same
      cases same
      exact ⟨_, _, _, _, _, _, rfl, rfl, of_decide_eq_true applied⟩
    · cases applied
  · rintro ⟨step, report, now, settings, status, ready, rfl, rfl, rfl⟩
    simp [applies]

def Log.leases (log : Log) : List Uuid := log.assignments.map (·.lease.id)

def Log.latest? (log : Log) (step : Uuid) : Option Assignment :=
  log.assignments.reverse.find? (·.step.id = step)

theorem Outcome.assignment?_of_not_grants {p : Plan} (s : Run p) {e : Event} (kept : e.grants = false) :
    (s.handle e).1.assignment? = none := by
  cases e with
  | grant => cases kept
  | _ => rfl

namespace Log

theorem assignments_append (first second : Log) :
    assignments (first ++ second) = first.assignments ++ second.assignments := List.filterMap_append

theorem leases_append (first second : Log) : leases (first ++ second) = first.leases ++ second.leases := by
  rw [leases, assignments_append, List.map_append]
  rfl

theorem assignments_single (e : Event) (o : Outcome) : assignments [(e, o)] = o.assignment?.toList := by
  unfold assignments
  cases given : o.assignment? <;> simp [given]

theorem latest?_of_leased {log : Log} {e : Event} {o : Outcome} {a : Assignment}
    (leased : o.assignment? = some a) : latest? (log ++ [(e, o)]) a.step.id = some a := by
  rw [latest?, assignments_append, assignments_single, leased]
  simp

theorem latest?_of_other {log : Log} {e : Event} {o : Outcome} {step : Uuid}
    (other : ∀ a, o.assignment? = some a → a.step.id ≠ step) :
    latest? (log ++ [(e, o)]) step = log.latest? step := by
  rw [latest?, assignments_append, assignments_single]
  cases given : o.assignment? with
  | none => simp [latest?]
  | some a => simp [latest?, other a given]

theorem mem_of_latest? {log : Log} {step : Uuid} {a : Assignment} (latest : log.latest? step = some a) :
    a ∈ log.assignments ∧ a.step.id = step := by
  have member := List.mem_of_find?_eq_some latest
  have same := List.find?_some latest
  exact ⟨List.mem_reverse.mp member, of_decide_eq_true same⟩

end Log

namespace Change

variable {node : Node} {r r' : RunRecord} {s t : Step} {e : Event}

theorem lease_id (change : Change node r s e r' t) (kept : e.grants = false) {l : Lease}
    (held : t.lease = some l) : ∃ l', s.lease = some l' ∧ l'.id = l.id := by
  cases change with
  | lease | reject => cases kept
  | renew l' now settings leased =>
    obtain rfl := Option.some.inj held
    exact ⟨l', leased, rfl⟩
  | retry | reclaim =>
    rw [Step.again_lease] at held
    cases held
  | promote => exact ⟨l, held, rfl⟩
  | abandon | succeed | fail | drop | expire => cases held

theorem quotes {step : Uuid} {report : Report} {now : Timestamp} {settings : Scheduling}
    (change : Change node r s (.accept step report now settings) r' t) :
    s.id = step ∧ s.status.isInFlight ∧
      ∃ l, s.lease = some l ∧ l.id = report.lease ∧ now < l.expiresAt := by
  cases change with
  | succeed l _ _ _ held flying alive quoted | fail l _ _ _ held flying alive quoted
  | retry l _ _ _ held flying alive quoted => exact ⟨rfl, flying, l, held, quoted.symm, alive⟩

end Change

theorem Step.Aside.lease_id {s t : Step} {now : Timestamp} (aside : s.Aside now t) {l : Lease}
    (held : t.lease = some l) : ∃ l', s.lease = some l' ∧ l'.id = l.id := by
  cases aside with
  | same | wake | skip => exact ⟨l, held, rfl⟩
  | stop =>
    unfold Run.stopStep at held
    split at held
    all_goals try exact ⟨l, held, rfl⟩
    all_goals
      obtain ⟨l', leased, rfl⟩ := Option.map_eq_some_iff.mp held
      exact ⟨l', leased, rfl⟩

theorem Acts.lease_id {p : Plan} {e : Event} {c c' : Released p} (acts : Acts e c c')
    (kept : e.grants = false) {i : Fin p.size} {l : Lease} (held : (c'.run.step i).lease = some l) :
    ∃ l', (c.run.step i).lease = some l' ∧ l'.id = l.id := by
  induction acts generalizing l with
  | refl => exact ⟨l, held, rfl⟩
  | @tail c c' _ act ih =>
    obtain ⟨j, r, t, change, rfl⟩ := act
    obtain ⟨l₁, leased, same⟩ := (Released.step_act_aside c j r t e.now i).lease_id held
    rw [← same]
    rw [Run.step_replace] at leased
    split at leased
    · subst i
      obtain ⟨l₂, leased, same⟩ := change.lease_id kept leased
      rw [← same]
      exact ih leased
    · exact ih leased

namespace Run

variable {p : Plan} {s : Run p} {i : Fin p.size}

theorem grant_lease (sound : s.Sound) {step : Uuid} {worker : String} {lease : Uuid} {now : Timestamp}
    {settings : Scheduling} {l : Lease} :
    let result := s.handle (.grant step worker lease now settings)
    (result.2.step i).lease = some l →
      (s.indexOf? (s.step i).id = some i ∧
          ∃ a, result.1.assignment? = some a ∧ a.step.id = (s.step i).id ∧ a.lease.id = l.id) ∨
        ((∃ l', (s.step i).lease = some l' ∧ l'.id = l.id) ∧
          (s.indexOf? (s.step i).id = some i →
            ∀ a, result.1.assignment? = some a → a.step.id ≠ (s.step i).id)) := by
  intro result held
  have call : s.Call _ result := grant_call sound step worker lease now settings
  generalize result = result at call held
  cases call with
  | ignored silent =>
    refine .inr ⟨⟨l, held, rfl⟩, fun _ a given => ?_⟩
    rw [Outcome.assignment?_of_not_heeds silent] at given
    cases given
  | @heeded j r t o found change tells =>
    rw [step_refresh] at held
    obtain ⟨l', leased, same⟩ := (Released.step_act_aside ⟨s, []⟩ j r t now i).lease_id held
    rw [← same]
    -- An assignment is of the step that the call changed, and carries the lease it was given.
    have told : ∀ a, o.assignment? = some a → a.step.id = (s.step j).id ∧ t.lease = some a.lease := by
      intro a given
      cases tells with
      | leased a' here _ kept =>
        obtain rfl := Option.some.inj given
        exact ⟨by rw [here, change.id_eq], kept⟩
      | rejected => cases given
    by_cases here : i = j
    · subst here
      rw [step_replace_self] at leased
      have free : (s.step i).lease = none := by
        cases change with
        | lease _ _ _ _ _ ready | reject _ _ _ _ _ ready =>
          exact (sound i).unleased (by rw [ready]; rfl)
      cases tells with
      | leased a' =>
        obtain ⟨id, kept⟩ := told a' rfl
        rw [kept] at leased
        obtain rfl := Option.some.inj leased
        exact .inl ⟨found, a', rfl, id, rfl⟩
      | rejected _ _ failed =>
        cases change with
        | lease => cases failed
        | reject =>
          rw [free] at leased
          cases leased
    · rw [step_replace, if_neg here] at leased
      refine .inr ⟨⟨l', leased, rfl⟩, fun found' a given id => here ?_⟩
      rw [(told a given).1] at id
      rw [← id, found] at found'
      exact (Option.some.inj found').symm

theorem handle_lease (sound : s.Sound) (settled : s.nextStatus? = none) (e : Event) {l : Lease}
    (held : ((s.handle e).2.step i).lease = some l) :
    (s.indexOf? (s.step i).id = some i ∧
        ∃ a, (s.handle e).1.assignment? = some a ∧ a.step.id = (s.step i).id ∧ a.lease.id = l.id) ∨
      ((∃ l', (s.step i).lease = some l' ∧ l'.id = l.id) ∧
        (s.indexOf? (s.step i).id = some i →
          ∀ a, (s.handle e).1.assignment? = some a → a.step.id ≠ (s.step i).id)) := by
  cases kept : e.grants with
  | true =>
    cases e with
    | grant => exact grant_lease sound held
    | _ => cases kept
  | false =>
    refine .inr ⟨?_, fun _ a given => ?_⟩
    · rcases handle_cases sound settled e with ⟨c, acts, same, -⟩ | ⟨-, same, -⟩
      · rw [same, step_refresh] at held
        exact Acts.lease_id acts kept held
      · rw [same, step_refresh, step_halted] at held
        have aside : (s.step i).Aside e.now (stopStep e.now (s.step i)) := .stop
        exact aside.lease_id held
    · rw [Outcome.assignment?_of_not_grants s kept] at given
      cases given

/-- Every lease that a step holds is the one that was granted last for the step. -/
def Granted (s : Run p) (log : Log) : Prop :=
  ∀ i l, (s.step i).lease = some l → s.indexOf? (s.step i).id = some i ∧
    ∃ a, log.latest? (s.step i).id = some a ∧ a.lease.id = l.id

theorem start_granted (record : RunRecord) (stepId : Nat → Uuid) :
    (start p record stepId).Granted [] := by
  intro i l held
  have free : ((start p record stepId).step i).lease = none := by
    simp only [start, step, Fin.getElem_fin, Vector.getElem_ofFn]
    split <;> rfl
  rw [free] at held
  cases held

theorem Granted.handle {log : Log} (granted : s.Granted log) (sound : s.Sound)
    (settled : s.nextStatus? = none) (e : Event) :
    (s.handle e).2.Granted (log ++ [(e, (s.handle e).1)]) := by
  intro i l held
  have ids := handle_id sound settled e
  rw [indexOf?_congr ids, ids]
  rcases handle_lease sound settled e held with ⟨found, a, given, here, same⟩ | ⟨⟨l', leased, same⟩, other⟩
  · refine ⟨found, a, ?_, same⟩
    rw [← here]
    exact Log.latest?_of_leased given
  · obtain ⟨found, a, latest, granted⟩ := granted i l' leased
    refine ⟨found, a, ?_, granted.trans same⟩
    rwa [Log.latest?_of_other (other found)]

theorem Granted.after {log : Log} (ordered : p.Ordered) {canceled : Bool} (valid : s.Valid canceled)
    (granted : s.Granted log) (events : List Event) :
    (s.after events).Granted (log ++ s.log events) := by
  induction events generalizing s canceled log with
  | nil => simpa [Run.log] using granted
  | cons e events ih =>
    have next := ih (valid.handle ordered e) (granted.handle valid.sound valid.settled e)
    rwa [List.append_assoc] at next

theorem Granted.holder_eq {log : Log} (granted : s.Granted log) (distinct : log.leases.Nodup)
    {j : Fin p.size} {l l' : Lease} (held : (s.step i).lease = some l)
    (held' : (s.step j).lease = some l') (same : l.id = l'.id) : i = j := by
  obtain ⟨found, a, latest, id⟩ := granted i l held
  obtain ⟨found', a', latest', id'⟩ := granted j l' held'
  obtain ⟨member, step⟩ := Log.mem_of_latest? latest
  obtain ⟨member', step'⟩ := Log.mem_of_latest? latest'
  have one : a = a' := by
    refine List.inj_on_of_nodup_map distinct member member' ?_
    rw [id, id', same]
  subst one
  rw [← step, step', found'] at found
  exact (Option.some.inj found).symm

def Spent (s : Run p) (lease : Uuid) : Prop := ∀ i l, (s.step i).lease = some l → l.id ≠ lease

theorem Spent.handle {lease : Uuid} (spent : s.Spent lease) (sound : s.Sound)
    (settled : s.nextStatus? = none) (e : Event)
    (new : ∀ a, (s.handle e).1.assignment? = some a → a.lease.id ≠ lease) :
    (s.handle e).2.Spent lease := by
  intro i l held
  rcases handle_lease sound settled e held with ⟨-, a, given, -, same⟩ | ⟨⟨l', leased, same⟩, -⟩
  · rw [← same]
    exact new a given
  · rw [← same]
    exact spent i l' leased

theorem accept_applied (sound : s.Sound) {step : Uuid} {report : Report} {now : Timestamp}
    {settings : Scheduling} {status : StepStatus} {ready : List Uuid} :
    let result := s.handle (.accept step report now settings)
    result.1 = .accepted (.ok (.applied status ready)) →
      ∃ i, s.indexOf? step = some i ∧ s.accepts i report.lease now ∧ (result.2.step i).lease = none := by
  intro result applied
  have call : s.Call _ result := accept_call sound step report now settings
  generalize result = result at call applied
  cases call with
  | ignored silent =>
    simp only at applied
    rw [applied] at silent
    cases silent
  | @heeded i r t o found change tells =>
    obtain ⟨here, flying, holds⟩ := change.quotes
    refine ⟨i, by rw [← here, found], accepts_iff.mpr ⟨flying, holds⟩, ?_⟩
    have aside := Released.step_act_aside ⟨s, []⟩ i r t now i
    rw [step_replace_self] at aside
    rw [step_refresh, Option.eq_none_iff_forall_ne_some]
    intro l held
    obtain ⟨l', leased, -⟩ := aside.lease_id held
    rw [change.returned] at leased
    cases leased

theorem accept_refused {step : Uuid} {report : Report} {now : Timestamp} {settings : Scheduling}
    (found : s.indexOf? step = some i) (refused : ¬ s.accepts i report.lease now) :
    let result := s.handle (.accept step report now settings)
    ∃ status, (result.1 = .accepted (.ok (.duplicate status)) ∨
      result.1 = .accepted (.ok (.stale status))) ∧ result.2 = s := by
  refine ⟨(s.step i).status, ?_⟩
  by_cases ended : (s.step i).status.isTerminal
  · simp [handle, accept, found, ended]
  · simp [handle, accept, found, ended, refused]

theorem Spent.refused {lease : Uuid} (spent : s.Spent lease) (now : Timestamp) :
    ¬ s.accepts i lease now := by
  intro accepted
  obtain ⟨-, l, leased, quoted, -⟩ := accepts_iff.mp accepted
  exact spent i l leased quoted

theorem spent_of_applied {log : Log} (granted : s.Granted log) (distinct : log.leases.Nodup)
    (sound : s.Sound) (settled : s.nextStatus? = none) {e : Event} {lease : Uuid}
    (applied : applies lease (e, (s.handle e).1)) :
    (s.handle e).2.Spent lease ∧ lease ∈ log.leases := by
  obtain ⟨step, report, now, settings, status, ready, rfl, outcome, rfl⟩ := applies_iff.mp applied
  obtain ⟨i, -, accepted, returned⟩ := accept_applied sound outcome
  obtain ⟨-, l, leased, quoted, -⟩ := accepts_iff.mp accepted
  constructor
  · intro j l' held same
    rcases handle_lease sound settled _ held with ⟨-, a, given, -⟩ | ⟨⟨l₁, leased', id⟩, -⟩
    · cases given
    · have here : i = j := granted.holder_eq distinct leased leased' (by rw [quoted, id, same])
      subst here
      rw [returned] at held
      cases held
  · obtain ⟨-, a, latest, id⟩ := granted i l leased
    exact List.mem_map.mpr ⟨a, (Log.mem_of_latest? latest).1, id.trans quoted⟩

theorem Spent.not_applies {lease : Uuid} (spent : s.Spent lease) (sound : s.Sound) (e : Event) :
    ¬ applies lease (e, (s.handle e).1) := by
  intro applied
  obtain ⟨step, report, now, settings, status, ready, rfl, outcome, rfl⟩ := applies_iff.mp applied
  obtain ⟨i, -, accepted, -⟩ := accept_applied sound outcome
  exact spent.refused now accepted

section After

variable {canceled : Bool} (ordered : p.Ordered) (valid : s.Valid canceled)

include ordered valid

theorem Spent.after {lease : Uuid} (spent : s.Spent lease) (events : List Event)
    (new : lease ∉ (s.log events).leases) :
    (s.after events).Spent lease ∧ (s.log events).countP (applies lease) = 0 := by
  induction events generalizing s canceled with
  | nil => exact ⟨spent, rfl⟩
  | cons e events ih =>
    rw [log_cons, Log.leases_append, List.mem_append, not_or] at new
    have first : ∀ a, (s.handle e).1.assignment? = some a → a.lease.id ≠ lease := by
      intro a given same
      refine new.1 (List.mem_map.mpr ⟨a, ?_, same⟩)
      rw [Log.assignments_single, given]
      exact List.mem_singleton.mpr rfl
    obtain ⟨spent', none⟩ := ih (valid.handle ordered e)
      (spent.handle valid.sound valid.settled e first) new.2
    refine ⟨spent', ?_⟩
    rw [log_cons, List.countP_append, none, List.countP_singleton,
      if_neg (spent.not_applies valid.sound e)]

theorem Granted.applied_once {log : Log} (granted : s.Granted log) (events : List Event)
    (distinct : (log ++ s.log events).leases.Nodup) (lease : Uuid) :
    (s.log events).countP (applies lease) ≤ 1 := by
  induction events generalizing s canceled log with
  | nil => exact Nat.zero_le 1
  | cons e events ih =>
    have next := valid.handle ordered e
    rw [log_cons, ← List.append_assoc] at distinct
    rw [log_cons, List.countP_append, List.countP_singleton]
    split
    · rename_i applied
      rw [List.append_assoc, Log.leases_append] at distinct
      obtain ⟨before, -, apart⟩ := List.nodup_append.mp distinct
      obtain ⟨spent, member⟩ := spent_of_applied granted before valid.sound valid.settled applied
      have new : lease ∉ ((s.handle e).2.log events).leases := by
        intro again
        refine apart lease member lease ?_ rfl
        rw [Log.leases_append]
        exact List.mem_append_right _ again
      have none := (spent.after ordered next events new).2
      omega
    · rw [Nat.zero_add]
      exact ih next (granted.handle valid.sound valid.settled e) distinct

end After

/-- After any events a report is applied only under the lease that its step holds, which is the last one
granted for it, and before the lease expires. If no id is granted twice, each lease has at most one
report applied, and every later one that quotes it for the step changes nothing. -/
theorem answered_once_after {w : Workflow} (built : Plan.ofWorkflow w = .ok p) {record : RunRecord}
    (fresh : record.Fresh) (stepId : Nat → Uuid) (events : List Event) :
    let begun := start p record stepId
    let s := begun.after events
    let log := begun.log events
    (∀ step report now settings status ready,
      (s.handle (.accept step report now settings)).1 = .accepted (.ok (.applied status ready)) →
        ∃ i l a, s.indexOf? step = some i ∧ (s.step i).lease = some l ∧ l.id = report.lease ∧
          now < l.expiresAt ∧ log.latest? step = some a ∧ a.lease.id = l.id) ∧
      (log.leases.Nodup →
        (∀ lease, log.countP (applies lease) ≤ 1) ∧
          ∀ earlier later step report now settings status ready,
            events = earlier ++ .accept step report now settings :: later →
            ((begun.after earlier).handle (.accept step report now settings)).1 =
              .accepted (.ok (.applied status ready)) →
            ∀ report' now' settings', report'.lease = report.lease →
              let result := s.handle (.accept step report' now' settings')
              ∃ status', (result.1 = .accepted (.ok (.duplicate status')) ∨
                result.1 = .accepted (.ok (.stale status'))) ∧ result.2 = s) := by
  intro begun s log
  have ordered := Plan.ordered built
  have start := Valid.start ordered fresh stepId
  have valid : s.Valid log.canceled := valid_after ordered fresh stepId events
  have granted (events : List Event) : (begun.after events).Granted (begun.log events) :=
    (start_granted record stepId).after ordered start events
  refine ⟨?_, fun distinct => ⟨?_, ?_⟩⟩
  · intro step report now settings status ready applied
    obtain ⟨i, found, accepted, -⟩ := accept_applied valid.sound applied
    obtain ⟨-, l, leased, quoted, alive⟩ := accepts_iff.mp accepted
    obtain ⟨-, a, latest, id⟩ := granted events i l leased
    have here : (s.step i).id = step := (indexOf?_eq_some_iff.mp found).1
    rw [here] at latest
    exact ⟨i, l, a, found, leased, quoted, alive, latest, id⟩
  · exact (start_granted record stepId).applied_once ordered start events distinct
  · intro earlier later step report now settings status ready split applied report' now' settings' same
    have valid' := start.after ordered earlier
    have next := valid'.handle ordered (.accept step report now settings)
    have logs : log = begun.log earlier ++
        (begun.after earlier).log (.accept step report now settings :: later) := by
      rw [← log_append, ← split]
    have state : s = ((begun.after earlier).handle (.accept step report now settings)).2.after later := by
      rw [← after_cons, ← after_append, ← split]
    rw [logs, log_cons, Log.leases_append, Log.leases_append] at distinct
    obtain ⟨before, rest, apart⟩ := List.nodup_append.mp distinct
    obtain ⟨spent, member⟩ := spent_of_applied (granted earlier) before valid'.sound valid'.settled
      (applies_iff.mpr ⟨_, _, _, _, _, _, rfl, applied, rfl⟩)
    have new : report.lease ∉ (((begun.after earlier).handle
        (.accept step report now settings)).2.log later).leases :=
      fun again => apart _ member _ (List.mem_append_right _ again) rfl
    obtain ⟨spent', -⟩ := spent.after ordered next later new
    obtain ⟨i, found, -⟩ := accept_applied valid'.sound applied
    have found' : s.indexOf? step = some i := by
      rw [← found, state]
      refine indexOf?_congr (fun j => ?_) step
      rw [next.after_id ordered later]
      exact handle_id valid'.sound valid'.settled _ j
    rw [← state, ← same] at spent'
    exact accept_refused found' (spent'.refused now')

theorem answered_once_after_retry :
    let report := Report.failed (.ofNat 2) "no" 0
    let events : List Event :=
      [.grant (.ofNat 0) "first" (.ofNat 2) .epoch default, .accept (.ofNat 0) report .epoch default,
        .grant (.ofNat 0) "second" (.ofNat 3) .epoch default]
    let s := (pair .failFast).after events
    ((pair .failFast).log events).countP (applies (.ofNat 2)) = 1 ∧
      ∃ status, ((s.handle (.accept (.ofNat 0) report .epoch default)).1 =
          .accepted (.ok (.duplicate status)) ∨
        (s.handle (.accept (.ofNat 0) report .epoch default)).1 = .accepted (.ok (.stale status))) ∧
        (s.handle (.accept (.ofNat 0) report .epoch default)).2 = s := by
  intro report events s
  have fresh := RunRecord.queued_fresh .nil Workflow.pair.reference .failFast .epoch none [] .null
  have distinct : ((pair .failFast).log events).leases.Nodup := by decide +kernel
  have once := (answered_once_after Plan.pair_built fresh .ofNat events).2 distinct
  refine ⟨by decide +kernel, ?_⟩
  exact once.2 [.grant (.ofNat 0) "first" (.ofNat 2) .epoch default] _ _ _ _ _ .ready [.ofNat 0] rfl
    (by rfl) report .epoch default rfl

end Run

end Orchestration
