import Orchestration.Proofs.Run.Sweep
import Orchestration.Proofs.Run.Valid

namespace Orchestration

/-- Until when a step is leased after what `log` tells of it, if it was leased until `granted`. -/
def Log.deadline (step : Uuid) (granted : Timestamp) (log : Log) : Timestamp :=
  log.foldl
    (fun deadline entry => match entry with
      | (.renew id _ _ _, .renewed (.ok (.renewed l))) => if id = step then l.expiresAt else deadline
      | _ => deadline)
    granted

/-- How a leased step may come free: its worker reports a failure in time that allows for another
attempt, or a sweep finds that the lease has expired. -/
inductive Frees (step lease : Uuid) (deadline : Timestamp) : Event × Outcome → Prop
  | answered (report : Report) (now : Timestamp) (settings : Scheduling) (status : StepStatus)
      (ready : List Uuid) (quoted : report.lease = lease) (failed : report.verdict = .failed)
      (retryable : report.retryable) (inTime : now < deadline) :
      Frees step lease deadline
        (.accept step report now settings, .accepted (.ok (.applied status ready)))
  | expired (now : Timestamp) (settings : Scheduling) (found : Sweep) (past : deadline ≤ now) :
      Frees step lease deadline (.sweep now settings, .swept found)

def Step.Held (lease : Uuid) (worker : String) (deadline : Timestamp) (t : Step) : Prop :=
  t.status.isInFlight ∧
    ∃ l, t.lease = some l ∧ l.id = lease ∧ l.worker = worker ∧ l.expiresAt = deadline

variable {lease : Uuid} {worker : String} {deadline : Timestamp}

theorem Step.Held.aside {s t : Step} {now : Timestamp} (held : s.Held lease worker deadline)
    (aside : s.Aside now t) : t.Held lease worker deadline := by
  obtain ⟨flying, l, leased, same⟩ := held
  rcases aside.lease_of_inFlight leased flying with kept | left
  · exact ⟨aside.flying flying, l, kept, same⟩
  · exact ⟨aside.flying flying, _, left, same⟩

theorem Log.deadline_of_silent {step : Uuid} {e : Event} {o : Outcome} (silent : o.heeds = false) :
    Log.deadline step deadline [(e, o)] = deadline := by
  unfold Log.deadline
  simp only [List.foldl_cons, List.foldl_nil]
  split
  · rename_i same
    cases same
    cases silent
  · rfl

theorem Log.deadline_of_other {step : Uuid} {e : Event} {o : Outcome}
    (other : ∀ worker now settings, e ≠ .renew step worker now settings) :
    Log.deadline step deadline [(e, o)] = deadline := by
  unfold Log.deadline
  simp only [List.foldl_cons, List.foldl_nil]
  split
  · rename_i same
    cases same
    rw [if_neg]
    intro here
    subst here
    exact other _ _ _ rfl
  · rfl

namespace Run

variable {p : Plan} {s : Run p} {i : Fin p.size}

theorem held_of_change {node : Node} {r r' : RunRecord} {t u : Step} {e : Event} {o : Outcome}
    (change : Change node r t e r' u) (tells : o.Tells u e) (held : t.Held lease worker deadline) :
    u.Held lease worker (Log.deadline t.id deadline [(e, o)]) ∨ u.status.isTerminal ∨
      (¬ u.status.isInFlight ∧ Frees t.id lease deadline (e, o)) := by
  obtain ⟨flying, l, leased, rfl, rfl, rfl⟩ := held
  cases change with
  | lease _ _ _ _ _ ready | reject _ _ _ _ _ ready =>
    rw [ready] at flying
    cases flying
  | renew l' now settings leased' =>
    obtain rfl : l = l' := Option.some.inj (leased.symm.trans leased')
    cases tells with
    | renewed l'' kept =>
      refine .inl ⟨rfl, l'', kept, ?_⟩
      obtain rfl := Option.some.inj kept
      simp [Log.deadline]
    | abandoned _ skipped => cases skipped
  | abandon | succeed | fail => exact .inr (.inl rfl)
  | retry l' report now settings leased' _ alive quoted verdict _ retryable =>
    obtain rfl : l = l' := Option.some.inj (leased.symm.trans leased')
    cases tells with
    | applied status ready =>
      refine .inr (.inr ⟨?_, .answered report now settings status ready quoted verdict retryable alive⟩)
      rcases Step.again_status _ now settings with ready | retrying
      · rw [ready]; decide
      · rw [retrying]; decide
  | _ => cases tells

theorem Call.held {e : Event} {result : Outcome × Run p} (call : s.Call e result)
    (distinct : ∀ i j, (s.step i).id = (s.step j).id → i = j)
    (held : (s.step i).Held lease worker deadline) :
    (result.2.step i).Held lease worker (Log.deadline (s.step i).id deadline [(e, result.1)]) ∨
      (result.2.step i).status.isTerminal ∨
      (¬ (result.2.step i).status.isInFlight ∧ Frees (s.step i).id lease deadline (e, result.1)) := by
  cases call with
  | ignored silent =>
    rw [Log.deadline_of_silent silent]
    exact .inl held
  | @heeded j r t o found change tells =>
    have aside := Released.step_act_aside ⟨s, []⟩ j r t e.now i
    simp only [step_refresh]
    by_cases same : i = j
    · subst same
      rw [step_replace_self] at aside
      rcases held_of_change change tells held with held | ended | ⟨grounded, frees⟩
      · exact .inl (held.aside aside)
      · exact .inr (.inl (by rwa [aside.eq_of_terminal ended]))
      · exact .inr (.inr ⟨aside.grounded grounded, frees⟩)
    · rw [step_replace, if_neg same] at aside
      rw [Log.deadline_of_other]
      · exact .inl (held.aside aside)
      · intro worker now settings renews
        subst renews
        exact same (distinct i j change.id_of_renew.symm)

theorem Acts.held {now : Timestamp} {settings : Scheduling} {c c' : Released p}
    (acts : Acts (.sweep now settings) c c') (early : now < deadline)
    (held : (c.run.step i).Held lease worker deadline) :
    (c'.run.step i).Held lease worker deadline := by
  induction acts with
  | refl => exact held
  | @tail c c' _ act ih =>
    obtain ⟨j, r, t, change, rfl⟩ := act
    have aside := Released.step_act_aside c j r t now i
    by_cases same : i = j
    · subst same
      obtain ⟨flying, l, leased, rfl, rfl, rfl⟩ := ih
      cases change with
      | drop l' _ _ leased' _ past | expire l' _ _ leased' _ past | reclaim l' _ _ leased' _ past =>
        obtain rfl : l = l' := Option.some.inj (leased.symm.trans leased')
        exact absurd early (Int.not_lt.mpr past)
      | promote _ _ _ retrying =>
        rw [retrying] at flying
        cases flying
    · rw [step_replace, if_neg same] at aside
      exact ih.aside aside

theorem handle_held (sound : s.Sound) (settled : s.nextStatus? = none)
    (distinct : ∀ i j, (s.step i).id = (s.step j).id → i = j)
    (held : (s.step i).Held lease worker deadline) (e : Event) :
    ((s.handle e).2.step i).Held lease worker
        (Log.deadline (s.step i).id deadline [(e, (s.handle e).1)]) ∨
      ((s.handle e).2.step i).status.isTerminal ∨
      (¬ ((s.handle e).2.step i).status.isInFlight ∧
        Frees (s.step i).id lease deadline (e, (s.handle e).1)) := by
  cases e with
  | grant => exact (grant_call sound ..).held distinct held
  | renew => exact (renew_call ..).held distinct held
  | accept => exact (accept_call sound ..).held distinct held
  | sweep now settings =>
    by_cases past : deadline ≤ now
    · obtain ⟨flying, l, leased, -, -, rfl⟩ := held
      have expired : s.leaseExpired now i := leaseExpired_iff.mpr ⟨flying, l, leased, past⟩
      exact .inr (.inr ⟨sweep_expired settings expired, .expired now settings _ past⟩)
    · obtain ⟨c, acts, same, -⟩ := sweep_acts settled now settings
      refine .inl ?_
      rw [Log.deadline_of_other (by simp)]
      simp only [handle, same, step_refresh]
      exact Acts.held acts (Int.not_le.mp past) held
  | cancel now =>
    refine .inl ?_
    rw [Log.deadline_of_other (by simp)]
    simp only [handle, cancel_eq]
    split
    · rw [step_refresh, step_halted]
      exact held.aside .stop
    · exact held

theorem handle_leased (sound : s.Sound) {e : Event} {a : Assignment}
    (leased : (s.handle e).1.assignment? = some a) :
    ∃ i, (s.step i).status = .ready ∧ (s.step i).id = a.step.id ∧
      ((s.handle e).2.step i).Held a.lease.id a.lease.worker a.lease.expiresAt := by
  cases e with
  | grant step worker lease now settings =>
    have call := grant_call sound step worker lease now settings
    generalize s.handle (.grant step worker lease now settings) = result at call leased
    cases call with
    | ignored silent =>
      rw [Outcome.assignment?_of_not_heeds silent] at leased
      cases leased
    | @heeded i r t o found change tells =>
      cases tells with
      | rejected => cases leased
      | leased a' same dispatched held =>
        obtain rfl : a' = a := Option.some.inj leased
        have aside := Released.step_act_aside ⟨s, []⟩ i r t now i
        rw [step_replace_self] at aside
        refine ⟨i, ?_, ?_, ?_⟩
        · cases change with
          | lease _ _ _ _ _ ready | reject _ _ _ _ _ ready => exact ready
        · rw [same, change.id_eq]
        · rw [step_refresh]
          refine Step.Held.aside ⟨?_, _, held, rfl, rfl, rfl⟩ aside
          rw [dispatched]
          rfl
  | renew | accept | sweep | cancel => cases leased

theorem Valid.freed (ordered : p.Ordered) {canceled : Bool} (valid : s.Valid canceled)
    (distinct : ∀ i j, (s.step i).id = (s.step j).id → i = j)
    (held : (s.step i).Held lease worker deadline) (events : List Event)
    (ready : ((s.after events).step i).status = .ready) :
    ∃ earlier e later, events = earlier ++ e :: later ∧
      Frees (s.step i).id lease (Log.deadline (s.step i).id deadline (s.log earlier))
        (e, ((s.after earlier).handle e).1) := by
  induction events generalizing s canceled deadline with
  | nil =>
    obtain ⟨flying, -⟩ := held
    rw [after_nil] at ready
    rw [ready] at flying
    cases flying
  | cons e events ih =>
    have next := valid.handle ordered e
    have ids := handle_id valid.sound valid.settled e
    rcases handle_held valid.sound valid.settled distinct held e with held' | ended | ⟨-, frees⟩
    · obtain ⟨earlier, e', later, split, frees⟩ :=
        ih next (by simpa only [ids] using distinct) held' ready
      rw [ids] at frees
      exact ⟨e :: earlier, e', later, by rw [split]; rfl, frees⟩
    · rw [after_cons, next.after_terminal ordered events ended] at ready
      rw [ready] at ended
      cases ended
    · exact ⟨[], e, events, rfl, frees⟩

/-- After any events a step that a worker holds stays with it under the same lease until the step ends
for good or comes free. Between two leases of a step the first one came free, by a failure reported in
time or by a sweep past the deadline of its grant or last renewal. -/
theorem exclusive_after {w : Workflow} (built : Plan.ofWorkflow w = .ok p) {record : RunRecord}
    (fresh : record.Fresh) (stepId : Nat → Uuid)
    (distinct : ∀ i j : Fin p.size, stepId i = stepId j → i = j) (events : List Event) :
    let s := (start p record stepId).after events
    (∀ i lease worker deadline e, (s.step i).Held lease worker deadline →
      ((s.handle e).2.step i).Held lease worker
          (Log.deadline (s.step i).id deadline [(e, (s.handle e).1)]) ∨
        (∀ later, (((s.handle e).2.after later).step i).status.isTerminal) ∨
        (¬ ((s.handle e).2.step i).status.isInFlight ∧
          Frees (s.step i).id lease deadline (e, (s.handle e).1))) ∧
      ∀ first between second a b, (s.handle first).1.assignment? = some a →
        (((s.handle first).2.after between).handle second).1.assignment? = some b →
        b.step.id = a.step.id →
        ∃ earlier e later, between = earlier ++ e :: later ∧
          Frees a.step.id a.lease.id
            (Log.deadline a.step.id a.lease.expiresAt ((s.handle first).2.log earlier))
            (e, (((s.handle first).2.after earlier).handle e).1) := by
  intro s
  have ordered := Plan.ordered built
  have valid := valid_after ordered fresh stepId events
  have distinct := ids_distinct ordered fresh stepId distinct events
  constructor
  · intro i lease worker deadline e held
    rcases handle_held valid.sound valid.settled distinct held e with held | ended | frees
    · exact .inl held
    · refine .inr (.inl fun later => ?_)
      rwa [(valid.handle ordered e).after_terminal ordered later ended]
    · exact .inr (.inr frees)
  · intro first between second a b leased again same
    have next := valid.handle ordered first
    have ids (i) : ((s.handle first).2.step i).id = (s.step i).id :=
      handle_id valid.sound valid.settled first i
    obtain ⟨i, -, id, held⟩ := handle_leased valid.sound leased
    obtain ⟨j, ready, id', -⟩ := handle_leased (next.after ordered between).sound again
    obtain rfl : j = i := by
      refine distinct j i ?_
      rw [id, ← same, ← id', next.after_id ordered between, ids]
    have freed := next.freed ordered (fun i j same => distinct i j (by rwa [ids, ids] at same)) held
      between ready
    rwa [ids, id] at freed

theorem exclusive_after_failure :
    let first : Event := .grant (.ofNat 0) "first" (.ofNat 2) .epoch default
    let between : List Event := [.accept (.ofNat 0) (.failed (.ofNat 2) "no" 0) .epoch default]
    ∃ a, ((pair .failFast).handle first).1.assignment? = some a ∧
      ∃ earlier e later, between = earlier ++ e :: later ∧
        Frees a.step.id a.lease.id
          (Log.deadline a.step.id a.lease.expiresAt (((pair .failFast).handle first).2.log earlier))
          (e, ((((pair .failFast).handle first).2.after earlier).handle e).1) := by
  intro first between
  have fresh := RunRecord.queued_fresh .nil Workflow.pair.reference .failFast .epoch none [] .null
  have exclusive := exclusive_after Plan.pair_built fresh .ofNat (by decide +kernel) []
  let second : Event := .grant (.ofNat 0) "second" (.ofNat 3) .epoch default
  obtain ⟨a, leased⟩ := Option.isSome_iff_exists.mp
    (show ((pair .failFast).handle first).1.assignment?.isSome by decide +kernel)
  obtain ⟨b, again⟩ := Option.isSome_iff_exists.mp
    (show ((((pair .failFast).handle first).2.after between).handle second).1.assignment?.isSome by
      decide +kernel)
  refine ⟨a, leased, exclusive.2 first between second a b leased again ?_⟩
  have id : ((pair .failFast).handle first).1.assignment?.map (·.step.id) = some (.ofNat 0) := by
    decide +kernel
  have id' : ((((pair .failFast).handle first).2.after between).handle second).1.assignment?.map
      (·.step.id) = some (.ofNat 0) := by
    decide +kernel
  rw [leased] at id
  rw [again] at id'
  exact (Option.some.inj id').trans (Option.some.inj id).symm

end Run

end Orchestration
