import Orchestration.Proofs.Checked.Agreement

namespace Orchestration.Checked

open Orchestration.Run (modifyStep_eq_put pay_eq_replace put_put replace_put step_put_self
  step_replace_self)

variable {p : Orchestration.Plan} {stepId : Nat → Uuid} {i : Fin p.size}

namespace Run

variable {s : Orchestration.Run p}

theorem lookup_of (ids : ∀ i, (s.step i).id = stepId i) (wanted : Uuid) :
    (Plan.of p stepId).index.lookup wanted = (s.indexOf? wanted).map (·.val) := by
  show ((List.finRange p.size).map fun i : Fin p.size => (stepId i, i.val)).lookup wanted = _
  unfold Orchestration.Run.indexOf?
  induction List.finRange p.size with
  | nil => rfl
  | cons i rest ih =>
    rw [List.map_cons, List.lookup_cons, List.find?_cons, ids]
    by_cases here : stepId i = wanted
    · simp [here]
    · have other : (wanted == stepId i) = false := beq_false_of_ne (Ne.symm here)
      simp [here, other, ih]

theorem inputFor_of (s : Orchestration.Run p) (i : Fin p.size) :
    (of s).inputFor (.of p stepId) i = some (s.inputFor i) := by
  have outputs : ((p.dependencies i).map (·.val)).mapM (fun d => do
        let step ← (of s).steps[d]?
        some (step.nodeId, step.output.getD .null)) =
      some ((p.dependencies i).map fun d => ((s.step d).nodeId, (s.step d).output.getD .null)) := by
    apply mapM_eq_some
    intro d
    rw [step_of]
    rfl
  simp only [inputFor, Plan.dependencies_of, Option.bind_eq_bind, Option.bind_some] at outputs ⊢
  rw [outputs]
  rfl

theorem reject_of (ordered : p.Ordered) (tracked : s.Tracked [] []) (active : s.isActive)
    (ready : (s.step i).status = .ready) (why : Refusal) (now : Timestamp) :
    (of s).reject (.of p stepId) i why now =
      some ((s.reject i why now).map id of) := by
  have opened : (s.step i).status.isOpen := by rw [ready]; rfl
  unfold reject Orchestration.Run.reject
  rw [modifyStep_of]
  show (do
    let c ← Released.stepFailed _ (.of ⟨_, []⟩) i now
    _) = _
  rw [Released.stepFailed_of ordered now (tracked.fail ordered opened rfl) active]
  show some (Grant.rejected why _, ((Released.of _).refresh now).run) = _
  rw [Released.refresh_of]
  rfl

theorem lease_of (s : Orchestration.Run p) (i : Fin p.size) (worker : String) (leaseId : Uuid)
    (now : Timestamp) (settings : Scheduling) :
    (of s).lease (.of p stepId) i worker leaseId now settings =
      some ((s.lease i worker leaseId now settings).map id of) := by
  unfold lease
  simp only [Plan.node_of, inputFor_of, modifyStep_of, step_of, Option.bind_eq_bind, Option.bind_some]
  rfl

theorem grant_of (ordered : p.Ordered) (tracked : s.isActive → s.Tracked [] [])
    (ids : ∀ i, (s.step i).id = stepId i) (wanted : Uuid) (worker : String) (leaseId : Uuid)
    (now : Timestamp) (settings : Scheduling) :
    (of s).grant (.of p stepId) wanted worker leaseId now settings =
      some ((s.grant wanted worker leaseId now settings).map id of) := by
  unfold grant Orchestration.Run.grant
  rw [lookup_of ids]
  cases s.indexOf? wanted with
  | none => rfl
  | some i =>
    simp only [Option.map_some, step_of, Plan.node_of, Option.bind_eq_bind, Option.bind_some]
    rw [show (of s).isActive = s.isActive from rfl, show (of s).record = s.record from rfl,
      show (of s).reserved = s.reserved from rfl]
    split
    · rfl
    · rename_i free
      simp only [Bool.or_eq_true, Bool.not_eq_true', decide_eq_true_eq, not_or, Bool.not_eq_false,
        not_not] at free
      cases s.record.overBudget? s.reserved (p.node i) with
      | none =>
        simp only [lease_of, Option.bind_some]
        rfl
      | some why =>
        simp only [reject_of ordered (tracked free.1) free.1 free.2, Option.bind_some]
        rfl

theorem renew_of (ids : ∀ i, (s.step i).id = stepId i) (wanted : Uuid) (worker : String)
    (now : Timestamp) (settings : Scheduling) :
    (of s).renew (.of p stepId) wanted worker now settings =
      some ((s.renew wanted worker now settings).map id of) := by
  unfold renew Orchestration.Run.renew
  rw [lookup_of ids]
  cases s.indexOf? wanted with
  | none => rfl
  | some i =>
    simp only [Option.map_some, step_of, Plan.node_of, modifyStep_of, releaseLease_of,
      Option.bind_eq_bind, Option.bind_some, refresh_of]
    show (if !s.heldBy i worker now then _ else _) = _
    split
    · rfl
    · split
      · rfl
      · generalize (Orchestration.Run.step (s.modifyStep i _) i).lease = held
        cases held <;> rfl

theorem pay_of (least : 0 ≤ s.record.cost.value) (most : s.record.cost.value ≤ s.record.ceiling)
    (i : Fin p.size) (cost : Cents) : (of s).pay (.of p stepId) i cost = some (of (s.pay i cost)) := by
  have record : (s.releaseLease i).record = s.record := by
    unfold Orchestration.Run.releaseLease
    split <;> rfl
  unfold pay Orchestration.Run.pay
  simp only [releaseLease_of, modifyStep_of, Option.bind_eq_bind, Option.bind_some]
  show (if (s.releaseLease i).record.status.isTerminal then _ else (do
    let charge ← chargeFor (s.releaseLease i).record cost
    _)) = some (of (if (s.releaseLease i).record.status.isTerminal then _ else _))
  split
  · rfl
  · rw [record, chargeFor_eq_some least most, ← record]
    rfl

theorem conclude_of (ordered : p.Ordered) (sound : s.Sound) (tracked : s.isActive → s.Tracked [] [])
    (funded : s.Funded) {l : Lease} (held : (s.step i).lease = some l)
    (flying : (s.step i).status.isInFlight) (report : Report) (now : Timestamp) (settings : Scheduling) :
    (of s).conclude (.of p stepId) i report now settings =
      some (.of (s.conclude i report now settings)) := by
  have opened := StepStatus.isOpen_of_isInFlight flying
  -- A lease is marked only when the run stops, so that the counters are right wherever they are used.
  have abandoned : ((s.step i).lease.any (·.abandoned) || !s.isActive) = !s.isActive := by
    rw [held, Option.any_some, (sound i).kept l held, Bool.or_self]
  have active : (s.record.paid (max report.cost 0)).status.isActive = s.isActive := by
    rw [RunRecord.paid_status]
    rfl
  unfold conclude Orchestration.Run.conclude
  simp only [step_of, pay_of funded.least funded.most, modifyStep_of, Plan.node_of, Option.bind_eq_bind,
    Option.bind_some]
  rw [show (of s).isActive = s.isActive from rfl, abandoned]
  simp only [pay_eq_replace held, modifyStep_eq_put, step_replace_self, step_put_self, put_put]
  cases report.verdict with
  | succeeded =>
    dsimp only
    split
    · rfl
    · rename_i live
      rw [Bool.not_eq_true', Bool.not_eq_false] at live
      rw [replace_put]
      · have after {t} (ended) := ((tracked live).succeed (t := t) ordered opened ended).replace
        exact Released.settle_of (c := ⟨s.replace i _ _, []⟩) (after rfl _) (active.trans live)
      · rfl
  | failed =>
    dsimp only
    split
    · rename_i more
      simp only [Bool.and_eq_true, decide_eq_true_eq] at more
      rw [replace_put]
      · refine Released.retry_of ⟨s.replace i _ _, []⟩ ?_ now settings
        rw [step_replace_self]
        exact more.2
      · rfl
    · split
      · rfl
      · rename_i live
        rw [Bool.not_eq_true', Bool.not_eq_false] at live
        rw [replace_put]
        · refine Released.stepFailed_of (c := ⟨s.replace i _ _, []⟩) ordered now ?_ (active.trans live)
          exact ((tracked live).fail ordered opened rfl).replace _
        · rfl

theorem accept_of (ordered : p.Ordered) (sound : s.Sound) (tracked : s.isActive → s.Tracked [] [])
    (funded : s.Funded) (ids : ∀ i, (s.step i).id = stepId i) (wanted : Uuid) (report : Report)
    (now : Timestamp) (settings : Scheduling) :
    (of s).accept (.of p stepId) wanted report now settings =
      some ((s.accept wanted report now settings).map id of) := by
  unfold accept Orchestration.Run.accept
  rw [lookup_of ids]
  cases s.indexOf? wanted with
  | none => rfl
  | some i =>
    simp only [Option.map_some, step_of, Option.bind_eq_bind, Option.bind_some]
    show (if (s.step i).status.isTerminal then _ else if !s.accepts i report.lease now then _ else _) = _
    split
    · rfl
    · split
      · rfl
      · rename_i accepted
        rw [Bool.not_eq_true', Bool.not_eq_false] at accepted
        obtain ⟨flying, l, held, -⟩ := Orchestration.Run.accepts_iff.mp accepted
        rw [conclude_of ordered sound tracked funded held flying, Option.bind_some, Released.refresh_of,
          Released.step_of]
        rfl

end Run

namespace Released

variable {c : Orchestration.Released p} {now : Timestamp}

theorem expire_of (ordered : p.Ordered) (tracked : c.run.isActive → c.run.Tracked [] [])
    (expired : c.run.leaseExpired now i) (settings : Scheduling) :
    (of c).expire (.of p stepId) i now settings = some (of (c.expire i now settings)) := by
  obtain ⟨flying, l, held, -⟩ := Orchestration.Run.leaseExpired_iff.mp expired
  have opened := StepStatus.isOpen_of_isInFlight flying
  unfold expire Orchestration.Released.expire
  rw [show (of c).run = .of c.run from rfl, Run.releaseLease_of]
  show (do
    let c ← (of ⟨c.run.releaseLease i, c.ready⟩).modifyStep i _
    _) = _
  rw [modifyStep_of]
  simp only [Plan.node_of, step_of, modifyStep_of, Orchestration.Released.expired_eq_replace held,
    step_replace_self, Option.bind_eq_bind, Option.bind_some]
  show (if !c.run.isActive then _ else _) = some (of (if !c.run.isActive then _ else _))
  split
  · rfl
  · rename_i live
    rw [Bool.not_eq_true', Bool.not_eq_false] at live
    split
    · rename_i left
      refine retry_of ⟨c.run.replace i _ _, _⟩ ?_ now settings
      rw [step_replace_self]
      exact left
    · rw [Orchestration.Released.modifyStep, modifyStep_eq_put, step_replace_self, replace_put]
      · refine stepFailed_of (c := ⟨c.run.replace i _ _, _⟩) ordered now ?_ live
        exact ((tracked live).fail ordered opened rfl).replace _
      · rfl

theorem promote_of (c : Orchestration.Released p) (i : Fin p.size) :
    (of c).promote i = some (of (c.promote i)) := by
  rw [promote, modifyStep_of]
  exact push_of _ i

end Released

namespace Sweeping

def of (w : Orchestration.Sweeping p) : Sweeping := ⟨.of w.released, w.expired, w.promoted⟩

/-- What holds between two visits of a sweep. -/
structure Fit (w : Orchestration.Sweeping p) : Prop where
  sound : w.released.run.Sound
  settled : w.expired = 0 → w.released.run.nextStatus? = none
  tracked : w.released.run.isActive → w.released.run.Tracked [] []

variable {w : Orchestration.Sweeping p} (ordered : p.Ordered) (fit : Fit w) (now : Timestamp)
  (settings : Scheduling) (i : Fin p.size)

include ordered fit

theorem Fit.visit : Fit (w.visit now settings i) := by
  obtain ⟨acts, settled⟩ := Orchestration.Sweeping.visit_acts now settings [i] w fit.settled
  exact ⟨.acts acts fit.sound, settled, acts.tracked ordered fit.sound fit.tracked⟩

theorem visit_of : (of w).visit (.of p stepId) now settings i = some (of (w.visit now settings i)) := by
  have step : (of w).released.run.steps[(i : Nat)]? = some (w.released.run.step i) :=
    Released.step_of w.released i
  unfold visit Orchestration.Sweeping.visit
  rw [step]
  show (if w.released.run.leaseExpired now i then _
    else if w.released.run.retryDue now i then _ else _) = _
  split
  · rename_i expired
    show (do
      let released ← (Released.of w.released).expire _ i now settings
      _) = _
    rw [Released.expire_of ordered fit.tracked expired]
    rfl
  · split
    · show (do
        let released ← (Released.of w.released).promote i
        _) = _
      rw [Released.promote_of]
      rfl
    · rfl

end Sweeping

namespace Run

variable {s : Orchestration.Run p}

theorem sweep_of (ordered : p.Ordered) (sound : s.Sound) (settled : s.nextStatus? = none)
    (tracked : s.isActive → s.Tracked [] []) (now : Timestamp) (settings : Scheduling) :
    (of s).sweep (.of p stepId) now settings =
      some ((s.sweep now settings).map id of) := by
  have begun : Sweeping.Fit (p := p) ⟨⟨s, []⟩, 0, 0⟩ := ⟨sound, fun _ => settled, tracked⟩
  have turn (i : Fin p.size) (_ : List (Fin p.size)) (w : Orchestration.Sweeping p)
      (fit : Sweeping.Fit w) :
      (Sweeping.of w).visit (.of p stepId) now settings i = some (.of (w.visit now settings i)) ∧
        Sweeping.Fit (w.visit now settings i) :=
    ⟨Sweeping.visit_of ordered fit now settings i, fit.visit ordered now settings i⟩
  have visits := (foldlM_eq_some (P := fun _ => Sweeping.Fit) turn (l := List.finRange p.size) begun).1
  have length : (of s).steps.length = p.size := Vector.length_toList
  unfold sweep Orchestration.Run.sweep
  rw [length, ← List.map_coe_finRange_eq_range]
  show ((List.map _ _).foldlM _ (Sweeping.of ⟨⟨s, []⟩, 0, 0⟩) >>= _) = _
  rw [visits]
  generalize (List.finRange p.size).foldl _ _ = w
  have refreshed : (if 0 < w.expired then (Sweeping.of w).released.refresh now
      else (Sweeping.of w).released) =
      .of (if 0 < w.expired then w.released.refresh now else w.released) := by
    split
    · exact Released.refresh_of ..
    · rfl
  show some (Sweep.mk w.expired w.promoted (Released.ready (if 0 < w.expired then _ else _)),
    Released.run (if 0 < w.expired then _ else _)) = _
  rw [refreshed]
  rfl

theorem cancel_of (s : Orchestration.Run p) (now : Timestamp) :
    (of s).cancel now = (s.cancel now).map id of := by
  unfold cancel Orchestration.Run.cancel
  show (if s.record.status.isTerminal || s.record.status = .canceling then _ else _) = _
  split
  · rfl
  · let canceling := { s with record := { s.record with status := .canceling } }
    show (true, ((of canceling).stopSteps now).refresh now) = _
    rw [stopSteps_of, refresh_of]
    rfl

theorem handle_of {canceled : Bool} (ordered : p.Ordered) (valid : s.Valid canceled) (funded : s.Funded)
    (ids : ∀ i, (s.step i).id = stepId i) (e : Event) :
    (of s).handle (.of p stepId) e = some ((s.handle e).map id of) := by
  have tracked (active : s.isActive) : s.Tracked [] [] := valid.tracked (.inl active)
  cases e with
  | grant step worker lease now settings =>
    rw [handle, grant_of ordered tracked ids]
    rfl
  | renew step worker now settings =>
    rw [handle, renew_of ids]
    rfl
  | accept step report now settings =>
    rw [handle, accept_of ordered valid.sound tracked funded ids]
    rfl
  | sweep now settings =>
    rw [handle, sweep_of ordered valid.sound valid.settled tracked]
    rfl
  | cancel now =>
    rw [handle, cancel_of]
    rfl

theorem play_of {canceled : Bool} (ordered : p.Ordered) (valid : s.Valid canceled) (funded : s.Funded)
    (ids : ∀ i, (s.step i).id = stepId i) (events : List Event) :
    (of s).play (.of p stepId) events = some (s.log events, of (s.after events)) := by
  induction events generalizing s canceled with
  | nil => rfl
  | cons e events ih =>
    have funded' := (Orchestration.Run.handle_funded funded valid.sound valid.settled e).1
    have ids' (i) : ((s.handle e).2.step i).id = stepId i :=
      (Orchestration.Run.handle_id valid.sound valid.settled e i).trans (ids i)
    rw [play, handle_of ordered valid funded ids]
    show ((of (s.handle e).2).play _ events >>= _) = _
    rw [ih (valid.handle ordered e) funded' ids']
    rfl

theorem materialize_of (w : Workflow) (record : RunRecord) (stepId : Nat → Uuid) :
    materialize w.nodes record stepId = some ((Orchestration.Plan.ofWorkflow w).map fun p =>
      (.of p stepId, of (.start p record stepId))) := by
  unfold materialize Orchestration.Plan.ofWorkflow
  rw [Graph.ofNodes_eq]
  cases Orchestration.Graph.ofNodes w.nodes with
  | error flaw => rfl
  | ok g =>
    let p : Orchestration.Plan := ⟨w, g⟩
    let s := Orchestration.Run.start p record stepId
    have pending : (w.nodes.mapIdx fun i node => Step.pending (stepId i) record.id node.id) =
        List.ofFn fun i : Fin p.size => .pending (stepId i) record.id (p.node i).id := by
      refine List.ext_getElem (by simp [p]) fun i _ _ => ?_
      simp [p, Orchestration.Plan.node]
    have waiting : (Graph.of g).dependencies.map (·.length) = s.waiting.toList := by
      have counts : s.waiting = Vector.ofFn fun i => (p.dependencies i).length := rfl
      rw [counts, Vector.toList_ofFn, Graph.of, Graph.rows, List.map_ofFn]
      congr 1
      funext i
      exact List.length_map ..
    have index : (List.ofFn fun i : Fin p.size =>
          Step.pending (stepId i) record.id (p.node i).id).mapIdx (fun i step => (step.id, i)) =
        (Plan.of p stepId).index := by
      refine List.ext_getElem (by simp [Plan.of]) fun i _ _ => ?_
      simp [Plan.of, Step.pending]
    have steps : List.zipWith
          (fun (step : Step) (waits : Nat) => if waits = 0 then { step with status := .ready } else step)
          (List.ofFn fun i : Fin p.size => .pending (stepId i) record.id (p.node i).id) s.waiting.toList =
        s.steps.toList := by
      refine List.ext_getElem (by simp [s]) fun i _ _ => ?_
      simp [s, Orchestration.Run.start]
    show some (Except.ok (Plan.mk w.nodes (Graph.of g) _, Run.mk record _ _ 0)) = _
    rw [waiting, pending, index, steps]
    rfl

end Run

/-- No list of nodes and no events lead to a fault: the graph is built, and the events are answered, as if
nothing could go wrong. -/
theorem course_faultless (w : Workflow) {record : RunRecord} (fresh : record.Fresh) (stepId : Nat → Uuid)
    (events : List Event) :
    Graph.ofNodes w.nodes = some ((Orchestration.Graph.ofNodes w.nodes).map .of) ∧
      course w.nodes record stepId events = some ((Orchestration.Plan.ofWorkflow w).map fun p =>
        let s := Orchestration.Run.start p record stepId
        (s.log events, .of (s.after events))) := by
  refine ⟨Graph.ofNodes_eq w.nodes, ?_⟩
  rw [course, Run.materialize_of]
  cases built : Orchestration.Plan.ofWorkflow w with
  | error flaw => rfl
  | ok p =>
    have ordered := Orchestration.Plan.ordered built
    have valid := Orchestration.Run.Valid.start ordered fresh stepId
    have funded := (Orchestration.Run.start_funded (p := p) fresh stepId).1
    have played := Run.play_of ordered valid funded (Orchestration.Run.start_id record stepId) events
    show (do some (Except.ok (← (Run.of _).play _ events))) = _
    rw [played]
    rfl

theorem course_faultless_at_limits :
    let most := Cents.clamp 9223372036854775807
    let record : RunRecord :=
      { RunRecord.queued .nil Workflow.pair.reference .tolerant .epoch with budget := some most }
    let atOnce : Scheduling := { (default : Scheduling) with retryBaseDelayMs := 0 }
    let events : List Event :=
      [.grant (.ofNat 0) "worker" (.ofNat 2) .epoch atOnce,
        .accept (.ofNat 0) (.failed (.ofNat 2) "no" most) .epoch atOnce,
        .grant (.ofNat 0) "worker" (.ofNat 3) .epoch atOnce,
        .accept (.ofNat 0) (.succeeded (.ofNat 3) .null most) .epoch atOnce]
    record.Fresh ∧ ∃ log s, course Workflow.pair.nodes record .ofNat events = some (.ok (log, s)) ∧
      s.record.cost = most ∧ s.waiting = [0, 0] ∧ s.steps.map (·.attempt) = [1, 0] := by
  intro most record atOnce events
  have fresh : record.Fresh :=
    RunRecord.queued_fresh .nil Workflow.pair.reference .tolerant .epoch (some most) [] .null
  have played := (course_faultless Workflow.pair fresh .ofNat events).2
  rw [Orchestration.Plan.pair_built] at played
  exact ⟨fresh, _, _, played, by decide +kernel, by decide +kernel, by decide +kernel⟩

end Orchestration.Checked
