import Orchestration.Proofs.Run.Sound
import Orchestration.Proofs.Workflow.Dependencies

namespace Orchestration

namespace StepStatus

def isSettled : StepStatus → Bool
  | .succeeded | .skipped => true
  | _ => false

/-- Whether the step waits for no other and has not ended. -/
def isOpen : StepStatus → Bool
  | .ready | .dispatched | .running | .retrying => true
  | _ => false

theorem isOpen_of_isInFlight {status : StepStatus} (flying : status.isInFlight) : status.isOpen := by
  cases status <;> simp_all [isInFlight, isOpen]

theorem not_isSettled_of_isOpen {status : StepStatus} (opened : status.isOpen) :
    status.isSettled = false := by
  cases status <;> simp_all [isOpen, isSettled]

end StepStatus

variable {p : Plan}

theorem Change.opens {node : Node} {r r' : RunRecord} {s t : Step} {e : Event}
    (change : Change node r s e r' t) (sound : s.Sound r.status.isActive) (active : r.status.isActive) :
    s.status.isOpen ∧ (t.status.isOpen ∨ t.status = .succeeded ∨ t.status = .failed) := by
  have opened (flying : s.status.isInFlight) := StepStatus.isOpen_of_isInFlight flying
  have again (s : Step) (now : Timestamp) (settings : Scheduling) :
      (s.again now settings).status.isOpen := by
    rcases s.again_status now settings with h | h <;> rw [h] <;> rfl
  cases change with
  | lease _ _ _ _ _ ready => exact ⟨by rw [ready]; rfl, .inl rfl⟩
  | reject _ _ _ _ _ ready => exact ⟨by rw [ready]; rfl, .inr (.inr rfl)⟩
  | renew l now settings held flying => exact ⟨opened flying, .inl rfl⟩
  | abandon l now settings held flying alive left =>
    have kept := sound.kept l held
    simp [left, active] at kept
  | succeed l report now settings held flying => exact ⟨opened flying, .inr (.inl rfl)⟩
  | fail l report now settings held flying => exact ⟨opened flying, .inr (.inr rfl)⟩
  | retry l report now settings held flying => exact ⟨opened flying, .inl (again _ _ _)⟩
  | drop l now settings held flying expired stopped => exact absurd active stopped
  | expire l now settings held flying => exact ⟨opened flying, .inr (.inr rfl)⟩
  | reclaim l now settings held flying => exact ⟨opened flying, .inl (again _ _ _)⟩
  | promote due now settings retrying => exact ⟨by rw [retrying]; rfl, .inl rfl⟩

namespace Released

theorem settleFor_record (c : Released p) (d : Fin p.size) :
    (c.settleFor d).run.record = c.run.record := by
  unfold settleFor
  dsimp only
  split <;> rfl

theorem waiting_settleFor (c : Released p) (d e : Fin p.size) :
    (c.settleFor d).run.waiting.get e = c.run.waiting.get e - if e = d then 1 else 0 := by
  rw [← get_countDown]
  unfold settleFor
  dsimp only
  split <;> rfl

theorem status_settleFor (c : Released p) (d : Fin p.size) (active : c.run.isActive)
    (j : Fin p.size) : ((c.settleFor d).run.step j).status =
      if j = d ∧ c.run.waiting.get d ≤ 1 ∧ (c.run.step d).status = .pending then .ready
      else (c.run.step j).status := by
  have active' : Run.isActive { c.run with
    waiting := c.run.waiting.set d (c.run.waiting[d] - 1) } = true := active
  unfold settleFor
  simp only [active', Bool.true_and, Bool.and_eq_true, decide_eq_true_eq, Nat.sub_eq_zero_iff_le]
  split
  · rename_i free
    by_cases same : j = d
    · subst same
      rw [if_pos ⟨rfl, free⟩]
      exact congrArg Step.status (Run.step_put_self _ j _)
    · rw [if_neg (by simp [same])]
      exact congrArg Step.status (Run.step_put_of_ne _ _ same)
  · rename_i held
    rw [if_neg (fun free => held free.2)]
    rfl

end Released

namespace Run

theorem status_put_iff {s : Run p} {i : Fin p.size} {t : Step} {status : StepStatus}
    (before : (s.step i).status ≠ status) (after : t.status ≠ status) (j : Fin p.size) :
    ((s.put i t).step j).status = status ↔ (s.step j).status = status := by
  rw [step_put]
  split
  · subst j
    exact iff_of_false after before
  · rfl

def unsettled (s : Run p) (i : Fin p.size) : Nat :=
  (p.dependencies i).countP fun d => !(s.step d).status.isSettled

theorem unsettled_pos_iff {s : Run p} {i : Fin p.size} :
    0 < s.unsettled i ↔ ∃ d ∈ p.dependencies i, (s.step d).status.isSettled = false := by
  simp [unsettled, List.countP_pos_iff]

theorem unsettled_congr {s s' : Run p}
    (same : ∀ j, (s'.step j).status.isSettled = (s.step j).status.isSettled) (i : Fin p.size) :
    s'.unsettled i = s.unsettled i := by
  simp only [unsettled, same]

theorem unsettled_put (ordered : p.Ordered) {s : Run p} {i : Fin p.size} {t : Step}
    (before : (s.step i).status.isSettled = false) (after : t.status.isSettled) (e : Fin p.size) :
    s.unsettled e = (s.put i t).unsettled e + (p.dependents i).count e := by
  unfold unsettled
  rw [ordered.converse]
  refine countP_split (by simp [after]) (fun d => ?_) (p.dependencies e)
  rw [step_put]
  by_cases same : d = i
  · subst same; simp [before, after]
  · simp [same]

/-- The counters are right, apart from the steps in `owed`, which are still to be counted down, and
those in `doomed`, which are still to be skipped. -/
structure Tracked (s : Run p) (owed doomed : List (Fin p.size)) : Prop where
  waiting : ∀ i, s.waiting.get i = s.unsettled i + owed.count i
  skipped : ∀ i, (s.step i).status = .skipped → ∃ d ∈ p.dependencies i, (s.step d).status = .failed
  failed : ∀ i, ∀ d ∈ p.dependencies i, (s.step d).status = .failed →
    (s.step i).status = .skipped ∨ (s.step i).status = .pending ∧ i ∈ doomed
  pending : ∀ i, (∀ d ∈ p.dependencies i, (s.step d).status ≠ .failed) →
    ((s.step i).status = .pending ↔ 0 < s.waiting.get i)
  doomed : ∀ i ∈ doomed, ∃ d ∈ p.dependencies i, (s.step d).status = .failed

namespace Tracked

variable {s : Run p} {owed doomed : List (Fin p.size)}

theorem start (record : RunRecord) (stepId : Nat → Uuid) :
    (start p record stepId).Tracked [] [] := by
  have status (i : Fin p.size) : ((Run.start p record stepId).step i).status =
      if p.dependencies i = [] then .ready else .pending := by
    simp only [Run.start, step, Fin.getElem_fin, Vector.getElem_ofFn]
    split <;> rfl
  have waiting (i : Fin p.size) :
      (Run.start p record stepId).waiting.get i = (p.dependencies i).length :=
    Vector.getElem_ofFn i.isLt
  have unsettled (i : Fin p.size) :
      (Run.start p record stepId).unsettled i = (p.dependencies i).length := by
    refine List.countP_eq_length.mpr fun d _ => ?_
    rw [status]
    split <;> rfl
  refine ⟨fun i => ?_, fun i => ?_, fun i d _ => ?_, fun i _ => ?_, by simp⟩
  · rw [waiting, unsettled]; rfl
  · rw [status]; split <;> simp
  · rw [status]; split <;> simp
  · rw [waiting, status, List.length_pos_iff]
    split <;> simp [*]

theorem congr (tracked : s.Tracked owed doomed) {s' : Run p} (waiting : s'.waiting = s.waiting)
    (same : ∀ j, (s'.step j).status = (s.step j).status ∨
      (s.step j).status.isOpen ∧ (s'.step j).status.isOpen) :
    s'.Tracked owed doomed := by
  have settled (j) : (s'.step j).status.isSettled = (s.step j).status.isSettled := by
    rcases same j with h | ⟨h, h'⟩
    · rw [h]
    · rw [StepStatus.not_isSettled_of_isOpen h, StepStatus.not_isSettled_of_isOpen h']
  have closed (j) (status : StepStatus) (ended : status.isOpen = false) :
      (s'.step j).status = status ↔ (s.step j).status = status := by
    rcases same j with h | ⟨h, h'⟩
    · rw [h]
    · constructor <;> intro same <;> simp_all
  have failed (j) := closed j .failed rfl
  have skipped (j) := closed j .skipped rfl
  have pending (j) := closed j .pending rfl
  refine ⟨?_, ?_, ?_, ?_, ?_⟩
  · intro i
    rw [waiting, unsettled_congr settled]
    exact tracked.waiting i
  · simpa only [failed, skipped] using tracked.skipped
  · simpa only [failed, skipped, pending] using tracked.failed
  · simpa only [waiting, failed, pending, ne_eq] using tracked.pending
  · simpa only [failed] using tracked.doomed

theorem replace {i : Fin p.size} {t : Step} (tracked : (s.put i t).Tracked owed doomed)
    (r : RunRecord) : (s.replace i r t).Tracked owed doomed :=
  tracked.congr rfl fun _ => .inl rfl

theorem succeed (ordered : p.Ordered) (tracked : s.Tracked [] doomed) {i : Fin p.size} {t : Step}
    (before : (s.step i).status.isOpen) (after : t.status = .succeeded) :
    (s.put i t).Tracked (p.dependents i) doomed := by
  have same (status : StepStatus) (closed : status.isOpen = false) (new : status ≠ .succeeded) (j) :
      ((s.put i t).step j).status = status ↔ (s.step j).status = status :=
    status_put_iff (by intro same; simp [← same, before] at closed) (by rw [after]; exact new.symm) j
  have failed := same .failed rfl (by simp)
  have skipped := same .skipped rfl (by simp)
  have pending := same .pending rfl (by simp)
  have open' := StepStatus.not_isSettled_of_isOpen before
  refine ⟨fun e => ?_, ?_, ?_, ?_, ?_⟩
  · rw [put_waiting, tracked.waiting, ← unsettled_put ordered open' (by rw [after]; rfl)]
    rfl
  · simpa only [failed, skipped] using tracked.skipped
  · simpa only [failed, skipped, pending] using tracked.failed
  · simpa only [put_waiting, failed, pending, ne_eq] using tracked.pending
  · simpa only [failed] using tracked.doomed

theorem skip (ordered : p.Ordered) {d : Fin p.size} (tracked : s.Tracked [] (d :: doomed)) {t : Step}
    (before : (s.step d).status = .pending) (after : t.status = .skipped) :
    (s.put d t).Tracked (p.dependents d) doomed := by
  have failed (j) : ((s.put d t).step j).status = .failed ↔ (s.step j).status = .failed :=
    status_put_iff (by simp [before]) (by simp [after]) j
  refine ⟨fun e => ?_, fun e => ?_, fun e => ?_, fun e => ?_, ?_⟩
  · rw [put_waiting, tracked.waiting,
      ← unsettled_put ordered (by rw [before]; rfl) (by rw [after]; rfl)]
    rfl
  · simp only [failed]
    by_cases same : e = d
    · subst e
      exact fun _ => tracked.doomed d (List.mem_cons_self ..)
    · rw [step_put_of_ne _ _ same]
      exact tracked.skipped e
  · simp only [failed]
    intro f depends fails
    by_cases same : e = d
    · subst e
      exact .inl (by simpa using after)
    · rw [step_put_of_ne _ _ same]
      simpa [same] using tracked.failed e f depends fails
  · simp only [ne_eq, failed, put_waiting]
    intro none
    have other : e ≠ d := by
      intro same
      subst same
      obtain ⟨f, depends, fails⟩ := tracked.doomed e (List.mem_cons_self ..)
      exact none f depends fails
    rw [step_put_of_ne _ _ other]
    exact tracked.pending e none
  · simp only [failed]
    exact fun e member => tracked.doomed e (List.mem_cons_of_mem _ member)

theorem fail (ordered : p.Ordered) (tracked : s.Tracked [] []) {i : Fin p.size} {t : Step}
    (before : (s.step i).status.isOpen) (after : t.status = .failed) :
    (s.put i t).Tracked [] (p.dependents i) := by
  have same (status : StepStatus) (closed : status.isOpen = false) (new : status ≠ .failed) (j) :
      ((s.put i t).step j).status = status ↔ (s.step j).status = status :=
    status_put_iff (by intro same; simp [← same, before] at closed) (by rw [after]; exact new.symm) j
  have skipped := same .skipped rfl (by simp)
  have pending := same .pending rfl (by simp)
  have failed (j) : ((s.put i t).step j).status = .failed ↔ j = i ∨ (s.step j).status = .failed := by
    rw [step_put]
    split <;> simp [*]
  have open' := StepStatus.not_isSettled_of_isOpen before
  have settled (j) : ((s.put i t).step j).status.isSettled = (s.step j).status.isSettled := by
    refine step_put_congr (fun t => t.status.isSettled) ?_ j
    rw [open', after]
    rfl
  have depends {e : Fin p.size} : e ∈ p.dependents i ↔ i ∈ p.dependencies e := by
    rw [← List.count_pos_iff, ordered.converse, List.count_pos_iff]
  refine ⟨fun e => ?_, fun e => ?_, fun e d member => ?_, fun e => ?_, fun e member => ?_⟩
  · rw [put_waiting, unsettled_congr settled]
    exact tracked.waiting e
  · rw [skipped]
    intro skips
    obtain ⟨d, member, fails⟩ := tracked.skipped e skips
    exact ⟨d, member, (failed d).mpr (.inr fails)⟩
  · rw [failed, skipped, pending]
    by_cases old : ∃ d ∈ p.dependencies e, (s.step d).status = .failed
    · obtain ⟨d, member, fails⟩ := old
      have := tracked.failed e d member fails
      exact fun _ => .inl (by simpa using this)
    -- Until now `e` counted `i` as unsettled, so that it was still waiting.
    · intro fails
      rcases fails with rfl | fails
      · have waits : 0 < s.unsettled e := unsettled_pos_iff.mpr ⟨d, member, open'⟩
        have counted := tracked.waiting e
        have := (tracked.pending e (by simpa using old)).mpr (by omega)
        exact .inr ⟨this, depends.mpr member⟩
      · exact absurd ⟨d, member, fails⟩ old
  · simp only [ne_eq, failed, pending, put_waiting]
    intro none
    exact tracked.pending e fun d member fails => none d member (.inr fails)
  · exact ⟨i, depends.mp member, (failed i).mpr (.inl rfl)⟩

theorem settleFor {c : Released p} {d : Fin p.size} (tracked : c.run.Tracked (d :: owed) doomed)
    (active : c.run.isActive) : (c.settleFor d).run.Tracked owed doomed := by
  have counted := tracked.waiting d
  rw [List.count_cons_self] at counted
  -- A failed dependency keeps `d` from ever being freed: it is unsettled beside the one told.
  have fails (e) (member : e ∈ p.dependencies d) (failed : (c.run.step e).status = .failed) :
      1 < c.run.waiting.get d := by
    have waits : 0 < c.run.unsettled d := unsettled_pos_iff.mpr ⟨e, member, by rw [failed]; rfl⟩
    omega
  have same (status : StepStatus) (ready : status ≠ .ready) (pending : status ≠ .pending) (j) :
      ((c.settleFor d).run.step j).status = status ↔ (c.run.step j).status = status := by
    rw [c.status_settleFor d active]
    split
    · rename_i freed
      rw [freed.1, freed.2.2]
      exact iff_of_false ready.symm pending.symm
    · rfl
  have failed := same .failed (by simp) (by simp)
  have skipped := same .skipped (by simp) (by simp)
  have settled (j) : ((c.settleFor d).run.step j).status.isSettled =
      (c.run.step j).status.isSettled := by
    rw [c.status_settleFor d active]
    split
    · rename_i freed
      rw [freed.1, freed.2.2]
      rfl
    · rfl
  refine ⟨fun e => ?_, ?_, fun e f depends fails' => ?_, fun e none => ?_, ?_⟩
  · have old := tracked.waiting e
    rw [Released.waiting_settleFor, unsettled_congr settled]
    by_cases here : e = d
    · subst here
      rw [if_pos rfl]
      omega
    · rw [List.count_cons_of_ne (Ne.symm here)] at old
      rw [if_neg here, old]
      rfl
  · simpa only [failed, skipped] using tracked.skipped
  · rw [failed] at fails'
    rw [skipped]
    refine (tracked.failed e f depends fails').imp_right fun ⟨pending, member⟩ => ⟨?_, member⟩
    rw [c.status_settleFor d active, if_neg]
    · exact pending
    · intro ⟨here, last, _⟩
      subst here
      exact Nat.not_le_of_lt (fails f depends fails') last
  · simp only [ne_eq, failed] at none
    have old := tracked.pending e none
    rw [c.status_settleFor d active, Released.waiting_settleFor]
    by_cases here : e = d
    · subst here
      have pending := old.mpr (by omega)
      simp only [pending, true_and, and_true, if_true]
      split
      · simp only [reduceCtorEq, false_iff]
        omega
      · simp only [true_iff]
        omega
    · simpa [here] using old
  · simpa only [failed] using tracked.doomed

theorem settle {c : Released p} {i : Fin p.size} (tracked : c.run.Tracked (p.dependents i) doomed)
    (active : c.run.isActive) : (c.settle i).run.Tracked [] doomed := by
  unfold Released.settle
  generalize p.dependents i = owed at tracked
  induction owed generalizing c with
  | nil => exact tracked
  | cons d owed ih =>
    refine ih ?_ (tracked.settleFor active)
    rw [isActive, Released.settleFor_record]
    exact active

theorem skipFor (ordered : p.Ordered) {c : Released p} {d : Fin p.size} (now : Timestamp)
    (failed : String) (tracked : c.run.Tracked [] (d :: doomed)) (active : c.run.isActive) :
    (Released.skipFor now failed c d).run.Tracked [] doomed := by
  unfold Released.skipFor
  split
  · rename_i pending
    exact settle (tracked.skip ordered pending rfl) active
  · rename_i waits
    refine { tracked with failed := ?_, doomed := fun e member => tracked.doomed e (.tail _ member) }
    intro e f depends fails
    refine (tracked.failed e f depends fails).imp_right fun ⟨pending, member⟩ => ⟨pending, ?_⟩
    cases member with
    | head => exact absurd pending waits
    | tail _ member => exact member

theorem stepFailed (ordered : p.Ordered) {c : Released p} {i : Fin p.size} (now : Timestamp)
    (tracked : c.run.Tracked [] (p.dependents i)) (active : c.run.isActive)
    (tolerant : c.run.record.policy = .tolerant) : (c.stepFailed i now).run.Tracked [] [] := by
  rw [Released.stepFailed_of_tolerant c i now tolerant]
  -- Each skip pays off one doomed step, and leaves the record that the next one needs.
  generalize p.dependents i = doomed at tracked
  generalize (c.run.step i).nodeId = failed
  induction doomed generalizing c with
  | nil => exact tracked
  | cons d doomed ih =>
    have same := (Released.skipFor_ripples now failed c d tolerant).record
    refine ih ?_ ?_ (tracked.skipFor ordered now failed active)
    · rw [isActive, same]
      exact active
    · rw [same]
      exact tolerant

theorem act (ordered : p.Ordered) {e : Event} {c c' : Released p} (sound : c.run.Sound)
    (tracked : c.run.isActive → c.run.Tracked [] []) (act : Act e c c') (active : c'.run.isActive) :
    c'.run.Tracked [] [] := by
  obtain ⟨i, r, t, change, rfl⟩ := act
  by_cases goes : r.status.isActive
  · have went : c.run.record.status.isActive = true := change.active_eq.symm.trans goes
    have before := tracked went
    obtain ⟨opened, new⟩ := change.opens (sound i) went
    rcases new with new | succeeded | failed
    · have succeeded : t.status ≠ .succeeded := by
        intro ended
        rw [ended] at new
        cases new
      have failed : t.status ≠ .failed := by
        intro ended
        rw [ended] at new
        cases new
      rw [Released.act_of_open c i e.now succeeded failed]
      refine before.congr rfl fun j => ?_
      rw [step_replace]
      split
      · subst j
        exact .inr ⟨opened, new⟩
      · exact .inl rfl
    · rw [Released.act_of_succeeded c i e.now goes succeeded]
      have after := before.succeed ordered opened succeeded
      exact settle (c := ⟨_, _⟩) (after.replace r) goes
    · rw [Released.act_of_failed c i e.now goes failed] at active ⊢
      cases policy : r.policy with
      | failFast =>
        obtain ⟨why, same⟩ :=
          Released.stepFailed_of_failFast ⟨c.run.replace i r t, c.ready⟩ i e.now policy
        rw [same] at active
        cases active
      | tolerant =>
        have after := before.fail ordered opened failed
        exact stepFailed (c := ⟨_, _⟩) ordered e.now (after.replace r) goes policy
  · simp [Released.act, Released.follow, isActive, goes] at active

end Tracked

end Run

end Orchestration
