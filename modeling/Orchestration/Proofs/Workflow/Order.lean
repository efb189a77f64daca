import Orchestration.Proofs.Workflow.Acceptance
import Mathlib.Data.Set.Finite.Lemmas
import Mathlib.Order.Lattice.Nat

namespace Orchestration

namespace Graph

variable {n : Nat} {needs : Fin n → Fin n → Prop} {order : List (Fin n)} {i j : Fin n}

structure Last (needs : Fin n → Fin n → Prop) (order : List (Fin n)) (i d : Fin n) : Prop where
  needed : needs i d
  most : ∀ e, needs i e → order.idxOf e ≤ order.idxOf d

/-- Node `i` has its turn before `j`. A node that needs none has it at the start, another one after
the last node that it needs; of two with the same claim the one that was declared first is first. -/
inductive Precedes (needs : Fin n → Fin n → Prop) (order : List (Fin n)) (i j : Fin n) : Prop
  | free (idle : ∀ d, ¬ needs i d) (waits : ∃ e, needs j e)
  | declared (idle : ∀ d, ¬ needs i d) (idle' : ∀ e, ¬ needs j e) (less : i < j)
  | sooner {d e : Fin n} (last : Last needs order i d) (last' : Last needs order j e)
      (less : order.idxOf d < order.idxOf e)
  | tied {d e : Fin n} (last : Last needs order i d) (last' : Last needs order j e)
      (same : order.idxOf d = order.idxOf e) (less : i < j)

/-- Every node has one turn, and any two have theirs in the order that they have to. -/
structure InTurn (needs : Fin n → Fin n → Prop) (order : List (Fin n)) : Prop where
  complete : order.Perm (List.finRange n)
  precedes : order.Pairwise (Precedes needs order)

/-- A chain of `k` needs starts at node `i`. -/
inductive Chain (needs : Fin n → Fin n → Prop) : Fin n → Nat → Prop
  | here (i : Fin n) : Chain needs i 0
  | next {i d : Fin n} {k : Nat} (needed : needs i d) (rest : Chain needs d k) : Chain needs i (k + 1)

def Outlasts (needs : Fin n → Fin n → Prop) (order : List (Fin n)) (i j : Fin n) : Prop :=
  ∃ e, needs j e ∧ ∀ d, needs i d → order.idxOf d < order.idxOf e

theorem exists_last (order : List (Fin n)) {d : Fin n} (needed : needs i d) :
    ∃ d, Last needs order i d := by
  obtain ⟨last, needed, most⟩ :=
    Set.exists_max_image {d | needs i d} order.idxOf (Set.toFinite _) ⟨d, needed⟩
  exact ⟨last, needed, most⟩

theorem Outlasts.asymm (outlasts : Outlasts needs order i j) : ¬ Outlasts needs order j i := by
  obtain ⟨e, needed, after⟩ := outlasts
  rintro ⟨d, needed', after'⟩
  exact Nat.lt_asymm (after d needed') (after' e needed)

theorem not_outlasts_of_idle (idle : ∀ e, ¬ needs j e) : ¬ Outlasts needs order i j :=
  fun ⟨e, needed, _⟩ => idle e needed

theorem outlasts_of_idle (idle : ∀ d, ¬ needs i d) (waits : ∃ e, needs j e) :
    Outlasts needs order i j := by
  obtain ⟨e, needed⟩ := waits
  exact ⟨e, needed, fun d needed => absurd needed (idle d)⟩

theorem Last.outlasts_iff {d e : Fin n} (last : Last needs order i d) (last' : Last needs order j e) :
    Outlasts needs order i j ↔ order.idxOf d < order.idxOf e := by
  constructor
  · rintro ⟨e', needed, after⟩
    exact (after d last.needed).trans_le (last'.most e' needed)
  · exact fun less => ⟨e, last'.needed, fun d' needed => (last.most d' needed).trans_lt less⟩

theorem precedes_iff : Precedes needs order i j ↔
    Outlasts needs order i j ∨ ¬ Outlasts needs order j i ∧ i < j := by
  constructor
  · intro precedes
    cases precedes with
    | free idle waits => exact .inl (outlasts_of_idle idle waits)
    | declared idle idle' less => exact .inr ⟨not_outlasts_of_idle idle, less⟩
    | sooner last last' less => exact .inl ((last.outlasts_iff last').mpr less)
    | tied last last' same less =>
      rw [last'.outlasts_iff last]
      exact .inr ⟨same.not_gt, less⟩
  · intro stands
    by_cases waits : ∃ d, needs i d
    · by_cases waits' : ∃ e, needs j e
      · obtain ⟨d, last⟩ := exists_last order waits.choose_spec
        obtain ⟨e, last'⟩ := exists_last order waits'.choose_spec
        rw [last.outlasts_iff last', last'.outlasts_iff last] at stands
        rcases stands with less | ⟨late, less⟩
        · exact .sooner last last' less
        · rcases Nat.lt_or_eq_of_le (Nat.le_of_not_lt late) with sooner | same
          · exact .sooner last last' sooner
          · exact .tied last last' same less
      · have idle := not_exists.mp waits'
        rcases stands with outlasts | ⟨none, -⟩
        · exact absurd outlasts (not_outlasts_of_idle idle)
        · exact absurd (outlasts_of_idle idle waits) none
    · have idle := not_exists.mp waits
      by_cases waits' : ∃ e, needs j e
      · exact .free idle waits'
      · have idle' := not_exists.mp waits'
        rcases stands with outlasts | ⟨-, less⟩
        · exact absurd outlasts (not_outlasts_of_idle idle')
        · exact .declared idle idle' less

theorem Precedes.asymm (precedes : Precedes needs order i j) : ¬ Precedes needs order j i := by
  rw [precedes_iff] at precedes ⊢
  rintro (outlasts | ⟨none, more⟩)
  · rcases precedes with outlasts' | ⟨none, -⟩
    · exact outlasts.asymm outlasts'
    · exact none outlasts
  · rcases precedes with outlasts | ⟨-, less⟩
    · exact none outlasts
    · exact Fin.lt_asymm less more

theorem pairwise_idxOf {α : Type} [DecidableEq α] {l : List α} (distinct : l.Nodup) :
    l.Pairwise fun a b => l.idxOf a < l.idxOf b := by
  refine List.pairwise_iff_getElem.mpr fun i j _ _ less => ?_
  rwa [distinct.idxOf_getElem, distinct.idxOf_getElem]

namespace InTurn

variable {order' : List (Fin n)}

theorem mem (turns : InTurn needs order) (i : Fin n) : i ∈ order :=
  turns.complete.mem_iff.mpr (List.mem_finRange i)

theorem nodup (turns : InTurn needs order) : order.Nodup :=
  turns.complete.nodup_iff.mpr (List.nodup_finRange n)

theorem idxOf_lt_iff (turns : InTurn needs order) :
    order.idxOf i < order.idxOf j ↔ Precedes needs order i j := by
  have forth {i j : Fin n} (less : order.idxOf i < order.idxOf j) : Precedes needs order i j := by
    have precedes := List.pairwise_iff_getElem.mp turns.precedes _ _
      (List.idxOf_lt_length_of_mem (turns.mem i)) (List.idxOf_lt_length_of_mem (turns.mem j)) less
    rwa [List.getElem_idxOf, List.getElem_idxOf] at precedes
  refine ⟨forth, fun precedes => ?_⟩
  rcases Nat.lt_trichotomy (order.idxOf i) (order.idxOf j) with less | same | more
  · exact less
  · obtain rfl := (List.idxOf_inj (turns.mem i)).mp same
    exact absurd precedes precedes.asymm
  · exact absurd precedes (forth more).asymm

theorem idxOf_lt_congr (turns : InTurn needs order) (turns' : InTurn needs order')
    (ends : Acc (fun d i => needs i d) i) (j : Fin n) :
    order.idxOf i < order.idxOf j ↔ order'.idxOf i < order'.idxOf j := by
  induction ends generalizing j with
  | intro i _ ih =>
    have back (d : Fin n) (needed : needs i d) (e : Fin n) :
        order.idxOf e < order.idxOf d ↔ order'.idxOf e < order'.idxOf d := by
      have same : order.idxOf d = order.idxOf e ↔ order'.idxOf d = order'.idxOf e := by
        rw [List.idxOf_inj (turns.mem d), List.idxOf_inj (turns'.mem d)]
      have forth := ih d needed e
      omega
    have outlasts : Outlasts needs order i j ↔ Outlasts needs order' i j :=
      exists_congr fun e => and_congr_right fun _ => forall₂_congr fun d needed => ih d needed e
    have outlasts' : Outlasts needs order j i ↔ Outlasts needs order' j i :=
      exists_congr fun d => and_congr_right fun needed => forall₂_congr fun e _ => back d needed e
    rw [turns.idxOf_lt_iff, turns'.idxOf_lt_iff, precedes_iff, precedes_iff, outlasts, outlasts']

theorem unique (turns : InTurn needs order) (turns' : InTurn needs order')
    (ends : ∀ i, Acc (fun d i => needs i d) i) : order = order' := by
  have pairwise := pairwise_idxOf turns.nodup
  have pairwise' := (pairwise_idxOf turns'.nodup).imp fun {i j} less =>
    (turns.idxOf_lt_congr turns' (ends i) j).mpr less
  refine (turns.complete.trans turns'.complete.symm).eq_of_pairwise ?_ pairwise pairwise'
  exact fun i j _ _ less more => absurd more (Nat.lt_asymm less)

theorem chain_of_lt (turns : InTurn needs order) {k : Nat} (chain : Chain needs i k)
    (less : order.idxOf i < order.idxOf j) : Chain needs j k := by
  induction chain generalizing j with
  | here => exact .here j
  | @next i d k needed rest ih =>
    have behind : ∃ e, needs j e ∧ order.idxOf d ≤ order.idxOf e := by
      rcases precedes_iff.mp (turns.idxOf_lt_iff.mp less) with ⟨e, needed', after⟩ | ⟨none, -⟩
      · exact ⟨e, needed', (after d needed).le⟩
      · by_contra missing
        refine none ⟨d, needed, fun e needed' => ?_⟩
        by_contra late
        exact missing ⟨e, needed', Nat.le_of_not_lt late⟩
    obtain ⟨e, needed', late⟩ := behind
    rcases Nat.lt_or_eq_of_le late with later | same
    · exact .next needed' (ih later)
    · obtain rfl := (List.idxOf_inj (turns.mem d)).mp same
      exact .next needed' rest

theorem exists_depth (turns : InTurn needs order)
    (after : ∀ i d, needs i d → order.idxOf d < order.idxOf i) :
    ∃ depth : Fin n → Nat, (∀ i, IsGreatest {k | Chain needs i k} (depth i)) ∧
      (order.map depth).Pairwise (· ≤ ·) := by
  have bounded (i) : BddAbove {k | Chain needs i k} := by
    refine ⟨order.idxOf i, fun k chain => ?_⟩
    induction chain with
    | here => exact Nat.zero_le _
    | next needed _ ih => exact ih.trans_lt (after _ _ needed)
  have greatest (i) : IsGreatest {k | Chain needs i k} (sSup {k | Chain needs i k}) :=
    ⟨Nat.sSup_mem ⟨0, .here i⟩ (bounded i), fun k chain => le_csSup (bounded i) chain⟩
  refine ⟨_, greatest, List.pairwise_map.mpr ((pairwise_idxOf turns.nodup).imp ?_)⟩
  intro i j less
  exact (greatest j).2 (turns.chain_of_lt (greatest i).1 less)

end InTurn

theorem Precedes.append {added : List (Fin n)} (precedes : Precedes needs order i j)
    (known : ∀ d, needs i d → d ∈ order) (known' : ∀ e, needs j e → e ∈ order) :
    Precedes needs (order ++ added) i j := by
  have same {d : Fin n} (member : d ∈ order) : (order ++ added).idxOf d = order.idxOf d :=
    List.idxOf_append_of_mem member
  have outlasts {i j : Fin n} (known : ∀ d, needs i d → d ∈ order)
      (known' : ∀ e, needs j e → e ∈ order) :
      Outlasts needs (order ++ added) i j ↔ Outlasts needs order i j := by
    refine exists_congr fun e => and_congr_right fun needed' => forall₂_congr fun d needed => ?_
    rw [same (known d needed), same (known' e needed')]
  rw [precedes_iff] at precedes ⊢
  rwa [outlasts known known', outlasts known' known]

namespace Sorting

variable {dependencies dependents : Vector (List (Fin n)) n} {s : Sorting n}

theorem queue_visit (dependents : Vector (List (Fin n)) n) (s : Sorting n) (i : Fin n)
    (rest : List (Fin n)) : ∃ freed, freed.Sublist (dependents.get i) ∧
      (s.visit dependents i rest).queue = rest ++ freed := by
  have released (owed : List (Fin n)) (s : Sorting n) :
      ∃ freed, freed.Sublist owed ∧ (owed.foldl release s).queue = s.queue ++ freed := by
    induction owed generalizing s with
    | nil => exact ⟨[], .slnil, by simp⟩
    | cons d owed ih =>
      obtain ⟨freed, part, queue⟩ := ih (s.release d)
      rw [List.foldl_cons, queue, release]
      dsimp only
      split
      · exact ⟨d :: freed, part.cons_cons d, by simp⟩
      · exact ⟨freed, part.cons d, rfl⟩
  exact released _ _

theorem Valid.known (valid : s.Valid dependencies []) (member : i ∈ s.order ++ s.queue) :
    ∀ d ∈ dependencies.get i, d ∈ s.order := by
  have none := (valid.free i).mp member
  rw [valid.waiting, List.count_nil, Nat.add_zero, List.countP_eq_zero] at none
  simpa using none

def Turned (dependencies : Vector (List (Fin n)) n) (s : Sorting n) : Prop :=
  (s.order ++ s.queue).Pairwise (Precedes (fun i d => d ∈ dependencies.get i) s.order)

theorem Turned.start : (start dependencies).Turned dependencies := by
  have idle {i : Fin n} (member : i ∈ (Sorting.start dependencies).queue) (d) :
      d ∉ dependencies.get i := by
    have known := Valid.start.known (List.mem_append_right _ member) d
    exact fun depends => List.not_mem_nil (known depends)
  have increasing : (Sorting.start dependencies).queue.Pairwise (· < ·) :=
    (List.pairwise_lt_finRange n).filter _
  exact increasing.imp_of_mem fun member member' less =>
    .declared (idle member) (idle member') less

/-- The node that is visited is the last one that those wait for which it puts into the queue. -/
theorem Valid.last_of_freed {rest freed : List (Fin n)} (converse : Converse dependencies dependents)
    (valid : s.Valid dependencies []) (queue : s.queue = i :: rest)
    (part : freed.Sublist (dependents.get i))
    (queue' : (s.visit dependents i rest).queue = rest ++ freed) (member : j ∈ freed) :
    Last (fun i d => d ∈ dependencies.get i) (s.order ++ [i]) j i := by
  have position : (s.order ++ [i]).idxOf i = s.order.length := by
    rw [List.idxOf_append_of_notMem (valid.head_not_sorted queue), List.idxOf_cons_self, Nat.add_zero]
  constructor
  case needed =>
    have depends := List.count_pos_iff.mpr (part.subset member)
    rw [converse] at depends
    exact List.count_pos_iff.mp depends
  case most =>
    intro d depends
    have queued : j ∈ (s.visit dependents i rest).order ++ (s.visit dependents i rest).queue := by
      simp [queue', member]
    have known := (valid.visit converse queue).known queued d depends
    rw [order_visit] at known
    have := List.idxOf_lt_length_of_mem known
    rw [List.length_append, List.length_singleton] at this
    omega

theorem Turned.visit {rest : List (Fin n)} (converse : Converse dependencies dependents)
    (increasing : ∀ i, (dependents.get i).Pairwise (· < ·)) (valid : s.Valid dependencies [])
    (turned : s.Turned dependencies) (queue : s.queue = i :: rest) :
    (s.visit dependents i rest).Turned dependencies := by
  obtain ⟨freed, part, queue'⟩ := queue_visit dependents s i rest
  have last {j : Fin n} (member : j ∈ freed) := valid.last_of_freed converse queue part queue' member
  have all : s.order ++ [i] ++ (rest ++ freed) = s.order ++ s.queue ++ freed := by simp [queue]
  unfold Turned
  rw [queue', order_visit, all]
  apply List.pairwise_append.mpr
  refine ⟨?_, ?_, ?_⟩
  · exact turned.imp_of_mem fun member member' precedes =>
      precedes.append (valid.known member) (valid.known member')
  · exact ((increasing i).sublist part).imp_of_mem fun member member' less =>
      .tied (last member) (last member') rfl less
  · intro a member b member'
    -- An earlier node waits for none, or the last that it needs was sorted before `i`.
    by_cases waits : ∃ d, d ∈ dependencies.get a
    · obtain ⟨d, last'⟩ : ∃ d, Last (fun i d => d ∈ dependencies.get i) (s.order ++ [i]) a d :=
        exists_last _ waits.choose_spec
      have sorted := valid.known member d last'.needed
      apply Precedes.sooner last' (last member')
      rw [List.idxOf_append_of_mem sorted,
        List.idxOf_append_of_notMem (valid.head_not_sorted queue)]
      exact Nat.lt_add_right _ (List.idxOf_lt_length_of_mem sorted)
    · exact .free (not_exists.mp waits) ⟨i, (last member').needed⟩

theorem Turned.run (converse : Converse dependencies dependents)
    (increasing : ∀ i, (dependents.get i).Pairwise (· < ·)) (valid : s.Valid dependencies [])
    (turned : s.Turned dependencies) (fuel : Nat) :
    (Sorting.run dependents fuel s).Turned dependencies := by
  induction fuel generalizing s with
  | zero => exact turned
  | succ fuel ih =>
    unfold Sorting.run
    split
    · exact turned
    · rename_i queue
      exact ih (valid.visit converse queue) (turned.visit converse increasing valid queue)

end Sorting

variable {nodes : List Node}

theorem inTurn_of_ok {g : Graph nodes.length} (built : ofNodes nodes = .ok g) :
    InTurn (Names nodes) g.order := by
  have formed := wellFormed_of_ok built
  have described := describes_of_ok built
  obtain ⟨-, -, rfl⟩ := ofNodes_eq_ok built
  have turned : (sort nodes).Turned (dependencyTable nodes) :=
    Sorting.Turned.start.run (converse_tables nodes) described.increasing .start nodes.length
  simp only [Sorting.Turned, sort_drained, List.append_nil, mem_dependencyTable formed.distinct]
    at turned
  exact ⟨described.complete, turned⟩

/-- The order of a graph is the only one in which every node has its turn when it has to, and the nodes
stand in it by the lengths of the longest chains of dependencies from them. -/
theorem ofNodes_order_unique {g : Graph nodes.length} (built : ofNodes nodes = .ok g) :
    (∀ order, InTurn (Names nodes) order ↔ order = g.order) ∧
      ∃ depth : Fin nodes.length → Nat,
        (∀ i, IsGreatest {k | Chain (Names nodes) i k} (depth i)) ∧
          (g.order.map depth).Pairwise (· ≤ ·) := by
  have formed := wellFormed_of_ok built
  have turns := inTurn_of_ok built
  have ends (i) : Acc (fun d i => Names nodes i d) i :=
    Subrelation.accessible (mem_dependencyTable formed.distinct).mpr (formed.ends i)
  refine ⟨fun order => ⟨fun turns' => turns'.unique turns ends, ?_⟩, turns.exists_depth ?_⟩
  · rintro rfl
    exact turns
  · intro i d named
    refine (describes_of_ok built).sorted i d ?_
    obtain ⟨-, -, rfl⟩ := ofNodes_eq_ok built
    exact (mem_dependencyTable formed.distinct).mpr named

/-- A node that waits for the earlier of two others comes first, although it is declared last. -/
theorem ofNodes_order_unique_fork :
    let nodes : List Node :=
      [{ Node.named "behind right" with dependsOn := ["right"] },
        { Node.named "left" with dependsOn := ["root"] },
        { Node.named "right" with dependsOn := ["root"] }, Node.named "root",
        { Node.named "behind left" with dependsOn := ["left"] }]
    ∃ g, ofNodes nodes = .ok g ∧ ∀ order, InTurn (Names nodes) order ↔ order = [3, 1, 2, 4, 0] := by
  intro nodes
  have sorted : (ofNodes nodes).toOption.map (·.order) = some [3, 1, 2, 4, 0] := by decide +kernel
  cases built : ofNodes nodes with
  | error =>
    rw [built] at sorted
    cases sorted
  | ok g =>
    rw [built] at sorted
    have order : g.order = [3, 1, 2, 4, 0] := Option.some.inj sorted
    rw [← order]
    exact ⟨g, rfl, (ofNodes_order_unique built).1⟩

end Graph

end Orchestration
