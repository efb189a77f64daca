import Orchestration.Proofs.Run.Acts

namespace Orchestration

/-- What the answer to a call tells of the step that it changed to `t`. -/
inductive Outcome.Tells (t : Step) : Event → Outcome → Prop
  | leased {step : Uuid} {worker : String} {lease : Uuid} {now : Timestamp} {settings : Scheduling}
      (a : Assignment) (same : a.step = t) (dispatched : t.status = .dispatched)
      (held : t.lease = some a.lease) :
      Tells t (.grant step worker lease now settings) (.granted (.ok (.leased a)))
  | rejected {step : Uuid} {worker : String} {lease : Uuid} {now : Timestamp} {settings : Scheduling}
      (why : Refusal) (ready : List Uuid) (failed : t.status = .failed) :
      Tells t (.grant step worker lease now settings) (.granted (.ok (.rejected why ready)))
  | renewed {step : Uuid} {worker : String} {now : Timestamp} {settings : Scheduling} (l : Lease)
      (held : t.lease = some l) :
      Tells t (.renew step worker now settings) (.renewed (.ok (.renewed l)))
  | abandoned {step : Uuid} {worker : String} {now : Timestamp} {settings : Scheduling}
      (status : RunStatus) (skipped : t.status = .skipped) :
      Tells t (.renew step worker now settings) (.renewed (.ok (.abandoned status)))
  | applied {step : Uuid} {report : Report} {now : Timestamp} {settings : Scheduling}
      (status : StepStatus) (ready : List Uuid) (returned : t.lease = none) :
      Tells t (.accept step report now settings) (.accepted (.ok (.applied status ready)))

theorem Outcome.assignment?_of_not_heeds {o : Outcome} (silent : o.heeds = false) :
    o.assignment? = none := by
  unfold assignment?
  split
  · cases silent
  · rfl

namespace Run

variable {p : Plan} {s : Run p}

/-- How a call about one step goes: it is heeded by one act, or nothing comes of it. -/
inductive Call (s : Run p) (e : Event) : Outcome × Run p → Prop
  | heeded {i : Fin p.size} {r : RunRecord} {t : Step} {o : Outcome}
      (found : s.indexOf? (s.step i).id = some i)
      (change : Change (p.node i) s.record (s.step i) e r t) (tells : o.Tells t e)
      (fits : o.assignment?.isSome → s.record.overBudget? s.reserved (p.node i) = none)
      (named : o.ready = (Released.act ⟨s, []⟩ i r t e.now).ready) :
      Call s e (o, (Released.act ⟨s, []⟩ i r t e.now).run.refresh e.now)
  | ignored {o : Outcome} (silent : o.heeds = false) (none : o.ready = []) : Call s e (o, s)

theorem grant_ready (sound : s.Sound) {i : Fin p.size} (found : s.indexOf? (s.step i).id = some i)
    (active : s.isActive) (ready : (s.step i).status = .ready) (worker : String) (leaseId : Uuid)
    (now : Timestamp) (settings : Scheduling) :
    let e : Event := .grant (s.step i).id worker leaseId now settings
    ∃ r t, Change (p.node i) s.record (s.step i) e r t ∧ (s.handle e).1.Tells t e ∧
      (s.handle e).2 = (Released.act ⟨s, []⟩ i r t now).run.refresh now ∧
      ((s.handle e).1.assignment?.isSome ↔ s.record.overBudget? s.reserved (p.node i) = none) ∧
      (s.handle e).1.ready = (Released.act ⟨s, []⟩ i r t now).ready := by
  intro e
  cases budget : s.record.overBudget? s.reserved (p.node i) with
  | some why =>
    have answer : s.handle e = (.granted (.ok (s.reject i why now).1), (s.reject i why now).2) := by
      simp only [e, handle, grant, found, active, ready, budget]
      rfl
    rw [answer, reject_eq why now active]
    exact ⟨_, _, .reject worker leaseId now settings active ready why, .rejected why _ rfl, rfl,
      by simp [Outcome.assignment?], rfl⟩
  | none =>
    have answer : s.handle e = (.granted (.ok (s.lease i worker leaseId now settings).1),
        (s.lease i worker leaseId now settings).2) := by
      simp only [e, handle, grant, found, active, ready, budget]
      rfl
    rw [answer, lease_eq worker leaseId now settings ((sound i).unleased (by rw [ready]; rfl))]
    refine ⟨_, _, .lease worker leaseId now settings active ready (s.inputFor i),
      .leased _ rfl rfl rfl, rfl, by simp [Outcome.assignment?], ?_⟩
    rw [Released.ready_act_of_open ⟨s, []⟩ i now (by simp) (by simp) (by simp)]
    rfl

theorem grant_call (sound : s.Sound) (stepId : Uuid) (worker : String) (leaseId : Uuid)
    (now : Timestamp) (settings : Scheduling) :
    s.Call (.grant stepId worker leaseId now settings)
      (s.handle (.grant stepId worker leaseId now settings)) := by
  cases found : s.indexOf? stepId with
  | none =>
    simp only [handle, grant, found]
    exact .ignored rfl rfl
  | some i =>
    obtain ⟨rfl, -⟩ := indexOf?_eq_some_iff.mp found
    by_cases free : s.isActive ∧ (s.step i).status = .ready
    · obtain ⟨r, t, change, tells, same, fits, named⟩ :=
        grant_ready sound found free.1 free.2 worker leaseId now settings
      have heeded := Call.heeded found change tells fits.mp named
      rwa [Event.now, ← same] at heeded
    · have stale : (!s.isActive || decide ((s.step i).status ≠ .ready)) = true := by
        by_cases active : s.isActive <;> simp_all
      simp only [handle, grant, found, stale, if_true]
      exact .ignored rfl rfl

theorem heldBy_iff {s : Run p} {i : Fin p.size} {worker : String} {now : Timestamp} :
    s.heldBy i worker now ↔ (s.step i).status.isInFlight ∧
      ∃ l, (s.step i).lease = some l ∧ l.worker = worker ∧ now < l.expiresAt := by
  simp [heldBy, Option.any_eq_true]

theorem accepts_iff {s : Run p} {i : Fin p.size} {lease : Uuid} {now : Timestamp} :
    s.accepts i lease now ↔ (s.step i).status.isInFlight ∧
      ∃ l, (s.step i).lease = some l ∧ l.id = lease ∧ now < l.expiresAt := by
  simp [accepts, Option.any_eq_true]

theorem renew_eq {id : Uuid} {i : Fin p.size} {l : Lease} {now : Timestamp}
    (found : s.indexOf? id = some i) (flying : (s.step i).status.isInFlight)
    (leased : (s.step i).lease = some l) (alive : now < l.expiresAt) (settings : Scheduling) :
    s.renew id l.worker now settings =
      if l.abandoned then
        let left := ((s.releaseLease i).put i
          { s.step i with status := .skipped, lease := none, endedAt := some now }).refresh now
        (.ok (.abandoned left.record.status), left)
      else
        let l' : Lease := { l with expiresAt := now.after (settings.ttl (p.node i)) }
        (.ok (.renewed l'), s.put i { s.step i with status := .running, lease := some l' }) := by
  have held : s.heldBy i l.worker now := heldBy_iff.mpr ⟨flying, l, leased, rfl, alive⟩
  have running : (if (s.step i).status = .dispatched then { s.step i with status := .running }
      else s.step i) = { s.step i with status := .running } := by
    split
    · rfl
    · have status : (s.step i).status = .running := by
        cases status : (s.step i).status <;> simp_all [StepStatus.isInFlight]
      rw [← status]
  simp only [renew, found, held, modifyStep_eq_put, step_releaseLease, running, step_put_self,
    Bool.not_true, Bool.false_eq_true, if_false, put_put]
  simp only [leased, Option.any_some]

theorem renew_call (stepId : Uuid) (worker : String) (now : Timestamp) (settings : Scheduling) :
    s.Call (.renew stepId worker now settings) (s.handle (.renew stepId worker now settings)) := by
  cases found : s.indexOf? stepId with
  | none =>
    simp only [handle, renew, found]
    exact .ignored rfl rfl
  | some i =>
    obtain ⟨rfl, -⟩ := indexOf?_eq_some_iff.mp found
    by_cases held : s.heldBy i worker now
    · obtain ⟨flying, ⟨id, holder, expiresAt, abandoned⟩, leased, rfl, alive⟩ := heldBy_iff.mp held
      have same := renew_eq found flying leased alive settings
      cases abandoned with
      | true =>
        let t : Step := { s.step i with status := .skipped, lease := none, endedAt := some now }
        have answer : s.handle (.renew (s.step i).id holder now settings) =
            (.renewed (.ok (.abandoned ((s.replace i s.record t).refresh now).record.status)),
              (s.replace i s.record t).refresh now) := by
          simp only [handle, same, if_true, ← returned_eq_replace (t := t) leased rfl]
          rfl
        rw [answer, ← Released.run_act_of_open ⟨s, []⟩ i now (by simp [t]) (by simp [t])]
        refine .heeded found (.abandon _ now settings leased flying alive rfl) (.abandoned _ rfl)
          (by simp [Outcome.assignment?]) ?_
        exact (Released.ready_act_of_open ⟨s, []⟩ i now (by simp [t]) (by simp [t])
          (by simp [t])).symm
      | false =>
        let l : Lease := ⟨id, holder, now.after (settings.ttl (p.node i)), false⟩
        let t : Step := { s.step i with status := .running, lease := some l }
        have kept : s.put i t = s.replace i s.record t := by
          simp only [replace, reservedWith, leased, t]
          rfl
        -- The step is still under way, so that no refresh follows.
        have flying' : ((s.replace i s.record t).step i).status.isInFlight := by
          rw [step_replace_self]
          rfl
        have answer : s.handle (.renew (s.step i).id holder now settings) =
            (.renewed (.ok (.renewed l)), (s.replace i s.record t).refresh now) := by
          rw [refresh_eq_self (nextStatus?_of_inFlight i flying'), ← kept]
          simp only [handle, same]
          rfl
        rw [answer, ← Released.run_act_of_open ⟨s, []⟩ i now (by simp [t]) (by simp [t])]
        refine .heeded found (.renew _ now settings leased flying alive rfl) (.renewed _ rfl)
          (by simp [Outcome.assignment?]) ?_
        exact (Released.ready_act_of_open ⟨s, []⟩ i now (by simp [t]) (by simp [t])
          (by simp [t])).symm
    · simp only [handle, renew, found, held]
      exact .ignored rfl rfl

theorem accept_call (sound : s.Sound) (stepId : Uuid) (report : Report) (now : Timestamp)
    (settings : Scheduling) :
    s.Call (.accept stepId report now settings) (s.handle (.accept stepId report now settings)) := by
  cases found : s.indexOf? stepId with
  | none =>
    simp only [handle, accept, found]
    exact .ignored rfl rfl
  | some i =>
    obtain ⟨rfl, -⟩ := indexOf?_eq_some_iff.mp found
    by_cases accepted : s.accepts i report.lease now
    · obtain ⟨flying, l, leased, quoted, alive⟩ := accepts_iff.mp accepted
      obtain ⟨r, t, change, same⟩ :=
        conclude_eq sound report now settings leased flying alive quoted.symm
      have waits := StepStatus.not_isTerminal_of_isInFlight flying
      have answer : s.handle (.accept (s.step i).id report now settings) =
          (.accepted (.ok (s.apply i report now settings).1),
            (s.apply i report now settings).2) := by
        simp only [handle, accept, found, waits, accepted]
        rfl
      rw [answer]
      simp only [apply, same]
      exact .heeded found change (.applied _ _ change.returned) (by simp [Outcome.assignment?]) rfl
    · simp only [handle, accept, found, accepted]
      split <;> exact .ignored rfl rfl

theorem renew_heeds {id : Uuid} {i : Fin p.size} {worker : String} {now : Timestamp}
    (found : s.indexOf? id = some i) (held : s.heldBy i worker now) (settings : Scheduling) :
    (s.handle (.renew id worker now settings)).1.heeds := by
  obtain ⟨flying, l, leased, rfl, alive⟩ := heldBy_iff.mp held
  simp only [handle, renew_eq found flying leased alive]
  split <;> rfl

theorem accept_heeds {id : Uuid} {i : Fin p.size} {report : Report} {now : Timestamp}
    (found : s.indexOf? id = some i) (accepted : s.accepts i report.lease now) (settings : Scheduling) :
    (s.handle (.accept id report now settings)).1.heeds := by
  have waits := StepStatus.not_isTerminal_of_isInFlight (accepts_iff.mp accepted).1
  simp only [handle, accept, found, waits, accepted, Bool.not_true, Bool.false_eq_true, if_false]
  rfl

/-- All that an event can do: it calls for one step, sweeps in a series of acts, or cancels the run. -/
inductive Handled (s : Run p) : Event → Outcome × Run p → Prop
  | called {e : Event} {result : Outcome × Run p} (call : s.Call e result) (kept : result.1.stops = false) :
      Handled s e result
  | swept {now : Timestamp} {settings : Scheduling} {c : Released p} {found : Sweep}
      (acts : Acts (.sweep now settings) ⟨s, []⟩ c) (named : found.ready = c.ready) :
      Handled s (.sweep now settings) (.swept found, c.run.refresh now)
  | canceled {now : Timestamp} (active : s.isActive) :
      Handled s (.cancel now) (.canceled true, (s.halted now).refresh now)
  | declined {now : Timestamp} (stopped : ¬ s.isActive) : Handled s (.cancel now) (.canceled false, s)

theorem handled (sound : s.Sound) (settled : s.nextStatus? = none) (e : Event) :
    s.Handled e (s.handle e) := by
  cases e with
  | grant => exact .called (grant_call sound ..) rfl
  | renew => exact .called (renew_call ..) rfl
  | accept => exact .called (accept_call sound ..) rfl
  | sweep now settings =>
    obtain ⟨c, acts, same, named⟩ := sweep_acts settled now settings
    simp only [handle, same]
    exact .swept acts named
  | cancel now =>
    simp only [handle, cancel_eq]
    by_cases active : s.isActive
    · rw [if_pos active]
      exact .canceled active
    · rw [if_neg active]
      exact .declined active

/-- What an event does to a run: it is a series of acts, after which the status is found anew, or it
cancels a run that goes on. -/
theorem handle_cases (sound : s.Sound) (settled : s.nextStatus? = none) (e : Event) :
    (∃ c, Acts e ⟨s, []⟩ c ∧ (s.handle e).2 = c.run.refresh e.now ∧ (s.handle e).1.stops = false) ∨
      (s.isActive ∧ (s.handle e).2 = (s.halted e.now).refresh e.now ∧
        (s.handle e).1.stops = true) := by
  have handled := handled sound settled e
  generalize s.handle e = result at handled
  cases handled with
  | called call kept =>
    left
    cases call with
    | heeded found change => exact ⟨_, .single ⟨_, _, _, change, rfl⟩, rfl, kept⟩
    | ignored => exact ⟨_, .refl, (refresh_eq_self settled e.now).symm, kept⟩
  | swept acts => exact .inl ⟨_, acts, rfl, rfl⟩
  | canceled active => exact .inr ⟨active, rfl, rfl⟩
  | declined => exact .inl ⟨_, .refl, (refresh_eq_self settled _).symm, rfl⟩

end Run

end Orchestration
