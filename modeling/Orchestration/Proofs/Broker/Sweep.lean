import Orchestration.Proofs.Broker.Fifo
import Orchestration.Proofs.Run.Overdue

namespace Orchestration

variable {now : Timestamp} {id : Uuid} {r : PlannedRun}

namespace PlannedRun

def sweep (r : PlannedRun) (now : Timestamp) (settings : Scheduling) : Sweep × PlannedRun :=
  r.update fun s => s.sweep now settings

theorem sweep_of_not_overdue (idle : ¬ r.run.overdue now) (settings : Scheduling) :
    r.sweep now settings = (⟨0, 0, []⟩, r) := by
  simp only [sweep, update, Run.sweep_of_not_overdue idle]

end PlannedRun

namespace SweepReport

def ofRun (now : Timestamp) (settings : Scheduling) (r : PlannedRun) : SweepReport :=
  let found := (r.sweep now settings).1
  ⟨if r.run.overdue now then 1 else 0, found.expired, found.promoted, found.ready.length⟩

instance : Zero SweepReport := ⟨⟨0, 0, 0, 0⟩⟩

instance : Add SweepReport := ⟨fun a b =>
  ⟨a.runsSwept + b.runsSwept, a.expiredLeases + b.expiredLeases,
    a.promotedRetries + b.promotedRetries, a.requeued + b.requeued⟩⟩

theorem add_zero (a : SweepReport) : a + 0 = a := rfl

theorem zero_add (a : SweepReport) : 0 + a = a := by
  change mk (0 + _) (0 + _) (0 + _) (0 + _) = a
  simp only [Nat.zero_add]

theorem add_assoc (a b c : SweepReport) : a + b + c = a + (b + c) := by
  change mk (_ + _ + _) (_ + _ + _) (_ + _ + _) (_ + _ + _) = _
  simp only [Nat.add_assoc]
  rfl

theorem ofRun_of_not_overdue (idle : ¬ r.run.overdue now) (settings : Scheduling) :
    ofRun now settings r = 0 := by
  simp only [ofRun, r.sweep_of_not_overdue idle, if_neg idle]
  rfl

end SweepReport

namespace Broker

variable {b : Broker}

structure Swept (b : Broker) (now : Timestamp) : Prop where
  runs : (b.sweep now).2.ledger.entries =
    b.ledger.entries.map fun (id, r) => (id, (r.sweep now b.settings).2)
  found : ∀ id, (b.sweep now).2.ledger.find? id =
    (b.ledger.find? id).map fun r => (r.sweep now b.settings).2
  ids : (b.sweep now).2.ledger.ids = b.ledger.ids
  aliases : (b.sweep now).2.ledger.aliases = b.ledger.aliases
  settings : (b.sweep now).2.settings = b.settings
  queued : (b.sweep now).2.queue.tickets = b.queue.tickets ++
    b.ledger.entries.flatMap fun (id, r) => (r.sweep now b.settings).1.ready.map (⟨id, ·⟩)
  reported : (b.sweep now).1 =
    .ok (b.ledger.entries.map fun (_, r) => SweepReport.ofRun now b.settings r).sum

theorem sweepRun_of_found (distinct : b.ledger.keys.Nodup) (found : b.ledger.find? id = some r)
    (now : Timestamp) (report : SweepReport) :
    sweepRun now id report b = (.ok (report + .ofRun now b.settings r),
      { b with ledger := b.ledger.set id (r.sweep now b.settings).2 }.enqueue id
        (r.sweep now b.settings).1.ready) := by
  simp only [sweepRun, Ledger.read, found]
  by_cases overdue : r.run.overdue now
  · rw [onRun_of_found distinct found _ (by intro _ refused; cases refused)]
    have one : SweepReport.ofRun now b.settings r = ⟨1, (r.sweep now b.settings).1.expired,
        (r.sweep now b.settings).1.promoted, (r.sweep now b.settings).1.ready.length⟩ := by
      simp only [SweepReport.ofRun, overdue, if_true]
    rw [one]
    simp only [overdue, Bool.not_true, Bool.false_eq_true, if_false]
    rfl
  · rw [r.sweep_of_not_overdue overdue, SweepReport.ofRun_of_not_overdue overdue,
      Ledger.set_eq_self distinct found, enqueue_nil, SweepReport.add_zero]
    simp only [overdue, Bool.not_false, if_true]

theorem sweepRuns_of_stored (now : Timestamp) {ids : List Uuid} (once : ids.Nodup)
    (distinct : b.ledger.keys.Nodup) (stored : ∀ id ∈ ids, (b.ledger.find? id).isSome)
    (report : SweepReport) :
    ∃ ledger : Ledger PlannedRun,
      (∀ id, ledger.find? id = if id ∈ ids then
        (b.ledger.find? id).map fun r => (r.sweep now b.settings).2 else b.ledger.find? id) ∧
      ledger.ids = b.ledger.ids ∧ ledger.aliases = b.ledger.aliases ∧
      sweepRuns now ids report b =
        (.ok (report +
            ((b.ledger.select ids).map fun (_, r) => SweepReport.ofRun now b.settings r).sum),
          ⟨ledger, ⟨b.queue.tickets ++ (b.ledger.select ids).flatMap fun (id, r) =>
            (r.sweep now b.settings).1.ready.map (⟨id, ·⟩)⟩, b.settings⟩) := by
  induction ids generalizing b report with
  | nil =>
    refine ⟨b.ledger, fun id => rfl, rfl, rfl, ?_⟩
    simp [sweepRuns, Ledger.select, SweepReport.add_zero]
  | cons id ids ih =>
    obtain ⟨new, once⟩ := List.nodup_cons.mp once
    obtain ⟨r, found⟩ := Option.isSome_iff_exists.mp (stored id (List.mem_cons_self ..))
    have swept := sweepRun_of_found distinct found now report
    let b₁ := { b with ledger := b.ledger.set id (r.sweep now b.settings).2 }.enqueue id
      (r.sweep now b.settings).1.ready
    -- The sweep of one run leaves the others to be found as they were.
    have others (x : Uuid) (member : x ∈ ids) : b₁.ledger.find? x = b.ledger.find? x := by
      have apart : x ≠ id := fun same => new (same ▸ member)
      exact (Ledger.find?_set ..).trans (if_neg apart)
    have distinct₁ : b₁.ledger.keys.Nodup := by
      rw [show b₁.ledger.keys = b.ledger.keys from Ledger.keys_set ..]
      exact distinct
    have stored₁ (x : Uuid) (member : x ∈ ids) : (b₁.ledger.find? x).isSome := by
      rw [others x member]
      exact stored x (List.mem_cons_of_mem id member)
    obtain ⟨ledger, finds, order, aliases, rest⟩ :=
      ih once distinct₁ stored₁ (report + .ofRun now b.settings r)
    refine ⟨ledger, fun x => ?_, order, aliases, ?_⟩
    · rw [finds]
      by_cases here : x = id
      · subst x
        have set : b₁.ledger.find? id = some (r.sweep now b.settings).2 := by
          rw [show b₁.ledger.find? id = _ from Ledger.find?_set .., if_pos rfl, found, Option.map_some]
        rw [if_neg new, if_pos (List.mem_cons_self ..), set, found, Option.map_some]
      · rw [show b₁.ledger.find? x = _ from Ledger.find?_set .., if_neg here]
        simp only [List.mem_cons, here, false_or]
        rfl
    · rw [Ledger.select_congr others] at rest
      rw [sweepRuns, swept, Ledger.select_cons found]
      refine rest.trans ?_
      simp only [List.map_cons, List.sum_cons, List.flatMap_cons, SweepReport.add_assoc]
      simp [b₁, enqueue, Queue.push]

/-- A run that is not overdue is left alone by a sweep. One that is overdue is not so afterwards, and a
sweep of it counts something. The sweep of a broker is that of each of its runs. -/
theorem sweep_exact (consistent : b.ledger.Consistent) (now : Timestamp) :
    (∀ (p : Plan) (s : Run p) (settings : Scheduling), s.Swept now settings) ∧ b.Swept now := by
  refine ⟨fun p s settings => s.swept now settings, ?_⟩
  have stored (id : Uuid) (member : id ∈ b.ledger.ids) : (b.ledger.find? id).isSome :=
    consistent.mem_ids_iff.mp member
  obtain ⟨ledger, finds, order, aliases, swept⟩ :=
    sweepRuns_of_stored now consistent.once consistent.distinct stored 0
  have found (id : Uuid) : ledger.find? id =
      (b.ledger.find? id).map fun r => (r.sweep now b.settings).2 := by
    rw [finds]
    split
    · rfl
    · rename_i unknown
      rw [consistent.mem_ids_iff, Option.not_isSome_iff_eq_none] at unknown
      rw [unknown, Option.map_none]
  rw [SweepReport.zero_add] at swept
  have swept : b.sweep now = _ := swept
  constructor
  all_goals rw [swept]
  case runs =>
    simp only [Ledger.entries, Ledger.select, order, found, List.map_filterMap, Option.map_map]
    rfl
  case found => exact found
  case ids => exact order
  case aliases => exact aliases
  all_goals rfl

/-- Of two runs the first has a step under way whose lease has expired. -/
theorem sweep_exact_expired :
    let requests : List Request :=
      [.enter (.pair (.ofNat 10) 0), .enter (.pair (.ofNat 11) 2), .poll "worker" (.ofNat 20) .epoch]
    let b := (new default).after requests
    let now := Timestamp.epoch.after (seconds 1800)
    b.ledger.Consistent ∧ now < .latest ∧ (b.sweep now).1.toOption = some ⟨1, 1, 0, 1⟩ ∧
      (∀ (p : Plan) (s : Run p) (settings : Scheduling), s.Swept now settings) ∧ b.Swept now := by
  intro requests b now
  have consistent : b.ledger.Consistent := ⟨by decide +kernel, by decide +kernel⟩
  exact ⟨consistent, by decide, by decide +kernel, sweep_exact consistent now⟩

end Broker

end Orchestration
