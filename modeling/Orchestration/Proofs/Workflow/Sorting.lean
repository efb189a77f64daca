import Orchestration.Workflow.Graph
import Mathlib.Data.Fintype.Card

namespace Orchestration

theorem countP_split {α : Type} [DecidableEq α] {p q : α → Bool} {a : α} (new : q a = false)
    (same : ∀ x, p x = (q x || x == a)) (l : List α) : l.countP p = l.countP q + l.count a := by
  induction l with
  | nil => rfl
  | cons x l ih =>
    rw [List.countP_cons, List.countP_cons, List.count_cons, ih, same x]
    by_cases eq : x = a
    · subst eq
      simp [new]
      omega
    · simp [eq]
      omega

theorem get_countDown {n : Nat} (counts : Vector Nat n) (d i : Fin n) :
    (counts.set d (counts.get d - 1) d.isLt).get i = counts.get i - if i = d then 1 else 0 := by
  change (counts.set d (counts[d] - 1))[i] = counts[i] - _
  simp only [Fin.getElem_fin, Vector.getElem_set, Fin.val_inj]
  by_cases same : i = d
  · subst same; simp
  · simp [same, Ne.symm same]

namespace Graph

def Converse {n : Nat} (dependencies dependents : Vector (List (Fin n)) n) : Prop :=
  ∀ i j, (dependents.get i).count j = (dependencies.get j).count i

namespace Sorting

variable {n : Nat} {dependencies dependents : Vector (List (Fin n)) n} {s : Sorting n}

/-- A sort under way, which still has to count down the nodes in `owed`. -/
structure Valid (dependencies : Vector (List (Fin n)) n) (owed : List (Fin n)) (s : Sorting n) :
    Prop where
  waiting : ∀ i, s.waiting.get i = (dependencies.get i).countP (!s.order.contains ·) + owed.count i
  distinct : (s.order ++ s.queue).Nodup
  free : ∀ i, i ∈ s.order ++ s.queue ↔ s.waiting.get i = 0
  sorted : ∀ before i rest, s.order = before ++ i :: rest → ∀ d ∈ dependencies.get i, d ∈ before

theorem Valid.start : (start dependencies).Valid dependencies [] := by
  have waiting (i : Fin n) :
      (Sorting.start dependencies).waiting.get i = (dependencies.get i).length :=
    Vector.getElem_ofFn i.isLt
  refine ⟨fun i => ?_, (List.nodup_finRange n).filter _, fun i => ?_, ?_⟩
  · rw [waiting, List.count_nil, Nat.add_zero]
    exact (List.countP_eq_length.mpr (by simp [Sorting.start])).symm
  · have queue : (Sorting.start dependencies).queue = (List.finRange n).filter fun i =>
        (Sorting.start dependencies).waiting.get i == 0 := rfl
    rw [queue]
    simp [Sorting.start]
  · simp [Sorting.start]

theorem Valid.release {d : Fin n} {owed : List (Fin n)} (valid : s.Valid dependencies (d :: owed)) :
    (s.release d).Valid dependencies owed := by
  have counted := valid.waiting d
  rw [List.count_cons_self] at counted
  -- A node that is still to be counted down is neither sorted nor in the queue.
  have absent : d ∉ s.order ++ s.queue := by
    rw [valid.free]
    omega
  have waiting (i : Fin n) :
      (s.release d).waiting.get i = s.waiting.get i - if i = d then 1 else 0 :=
    get_countDown s.waiting d i
  refine ⟨?_, ?_, ?_, valid.sorted⟩
  · intro i
    have old := valid.waiting i
    rw [List.count_cons] at old
    rw [waiting]
    by_cases same : i = d
    · subst same
      simp only [beq_self_eq_true, if_true] at old ⊢
      exact by rw [old]; rfl
    · simp only [beq_iff_eq, Ne.symm same, same, if_false] at old ⊢
      exact old
  · simp only [Sorting.release]
    split
    · rw [← List.append_assoc]
      refine List.nodup_append.mpr ⟨valid.distinct, by simp, ?_⟩
      intro x member y last same
      rw [same, List.mem_singleton.mp last] at member
      exact absent member
    · exact valid.distinct
  · intro i
    have old := valid.free i
    have queue : (s.release d).queue =
        if s.waiting.get d - 1 = 0 then s.queue ++ [d] else s.queue := rfl
    have order : (s.release d).order = s.order := rfl
    rw [waiting, queue, order]
    by_cases same : i = d
    · subst same
      rw [if_pos rfl]
      split
      · rename_i free
        simp [free]
      · rename_i left
        simp only [left, iff_false]
        exact absent
    · rw [if_neg same, Nat.sub_zero, ← old]
      split <;> simp [same]

theorem Valid.head_not_sorted {i : Fin n} {owed rest : List (Fin n)} (valid : s.Valid dependencies owed)
    (queue : s.queue = i :: rest) : i ∉ s.order := by
  have distinct := valid.distinct
  rw [queue] at distinct
  exact fun sorted => (List.nodup_append.mp distinct).2.2 i sorted i (List.mem_cons_self ..) rfl

theorem Valid.take {i : Fin n} {rest : List (Fin n)} (converse : Converse dependencies dependents)
    (valid : s.Valid dependencies []) (queue : s.queue = i :: rest) :
    Valid dependencies (dependents.get i) { s with queue := rest, order := s.order ++ [i] } := by
  have unsorted := valid.head_not_sorted queue
  have moved : s.order ++ s.queue = (s.order ++ [i]) ++ rest := by simp [queue]
  refine ⟨?_, by rw [← moved]; exact valid.distinct, fun j => by rw [← moved]; exact valid.free j, ?_⟩
  · intro j
    have split := countP_split (p := (!s.order.contains ·)) (q := (!(s.order ++ [i]).contains ·))
      (a := i) (by simp) (by intro x; by_cases same : x = i <;> simp [same, unsorted])
      (dependencies.get j)
    rw [converse, ← split, valid.waiting]
    rfl
  · intro before j after same
    rcases List.eq_nil_or_concat after with rfl | ⟨after, last, rfl⟩
    · obtain ⟨rfl, same⟩ := List.append_inj' same rfl
      obtain rfl : i = j := by simpa using same
      intro d member
      have none : s.waiting.get i = 0 := (valid.free i).mp (by simp [queue])
      rw [valid.waiting, Nat.add_eq_zero_iff, List.countP_eq_zero] at none
      simpa using none.1 d member
    · rw [List.concat_eq_append, ← List.cons_append, ← List.append_assoc] at same
      exact valid.sorted before j after (List.append_inj' same rfl).1

theorem Valid.visit {i : Fin n} {rest : List (Fin n)} (converse : Converse dependencies dependents)
    (valid : s.Valid dependencies []) (queue : s.queue = i :: rest) :
    (s.visit dependents i rest).Valid dependencies [] := by
  have started := valid.take converse queue
  change Valid dependencies [] ((dependents.get i).foldl Sorting.release _)
  generalize dependents.get i = owed at started
  generalize ({ s with queue := rest, order := s.order ++ [i] } : Sorting n) = s' at started
  induction owed generalizing s' with
  | nil => exact started
  | cons d owed ih => exact ih _ started.release

theorem Valid.run (converse : Converse dependencies dependents) (valid : s.Valid dependencies [])
    (fuel : Nat) : (run dependents fuel s).Valid dependencies [] := by
  induction fuel generalizing s with
  | zero => exact valid
  | succ fuel ih =>
    unfold Sorting.run
    split
    · exact valid
    · rename_i queue
      exact ih (valid.visit converse queue)

theorem order_visit (dependents : Vector (List (Fin n)) n) (s : Sorting n) (i : Fin n)
    (rest : List (Fin n)) : (s.visit dependents i rest).order = s.order ++ [i] := by
  have released (owed : List (Fin n)) (s : Sorting n) : (owed.foldl release s).order = s.order := by
    induction owed generalizing s with
    | nil => rfl
    | cons d owed ih => exact ih (s.release d)
  exact released _ _

theorem Valid.run_drained (converse : Converse dependencies dependents)
    (valid : s.Valid dependencies []) {fuel : Nat} (enough : n ≤ s.order.length + fuel) :
    (Sorting.run dependents fuel s).queue = [] := by
  induction fuel generalizing s with
  | zero =>
    have bound := valid.distinct.length_le_card
    rw [List.length_append, Fintype.card_fin] at bound
    apply List.eq_nil_of_length_eq_zero
    simp only [Sorting.run]
    omega
  | succ fuel ih =>
    unfold Sorting.run
    split
    · assumption
    · rename_i i rest queue
      apply ih (valid.visit converse queue)
      rw [order_visit, List.length_append, List.length_singleton]
      omega

theorem Valid.mem_order (valid : s.Valid dependencies []) (drained : s.queue = []) {i : Fin n}
    (ends : Acc (fun d i => d ∈ dependencies.get i) i) : i ∈ s.order := by
  induction ends with
  | intro i _ ih =>
    have none : s.waiting.get i = 0 := by
      rw [valid.waiting, List.count_nil, Nat.add_zero, List.countP_eq_zero]
      intro d depends
      simp [ih d depends]
    simpa [drained] using (valid.free i).mpr none

end Sorting

end Graph

end Orchestration
