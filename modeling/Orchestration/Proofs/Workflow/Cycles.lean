import Orchestration.Proofs.Workflow.Acceptance
import Mathlib.Data.Fintype.Pigeonhole
import Mathlib.Order.WellFounded

namespace Orchestration

section Chains

variable {α : Type} {r : α → α → Prop} {a b : α}

theorem acc_of_reflTransGen (ends : Acc (fun b a => r a b) a) (chain : Relation.ReflTransGen r a b) :
    Acc (fun b a => r a b) b := by
  induction chain with
  | refl => exact ends
  | tail _ next ih => exact ih.inv next

theorem not_transGen_self_of_acc (ends : Acc (fun b a => r a b) a) : ¬ Relation.TransGen r a a := by
  induction ends with
  | intro a _ ih =>
    intro cycle
    obtain ⟨b, first, rest⟩ := Relation.TransGen.head'_iff.mp cycle
    exact ih b first (Relation.TransGen.tail'_iff.mpr ⟨a, rest, first⟩)

theorem exists_cycle_of_not_acc [Finite α] (endless : ¬ Acc (fun b a => r a b) a) :
    ∃ b, Relation.ReflTransGen r a b ∧ Relation.TransGen r b b := by
  obtain ⟨chain, rfl, next⟩ := not_acc_iff_exists_descending_chain.mp endless
  have onward (m k : Nat) : Relation.ReflTransGen r (chain m) (chain (m + k)) := by
    induction k with
    | zero => exact .refl
    | succ k ih => exact ih.tail (next (m + k))
  have around {m n : Nat} (less : m < n) (same : chain m = chain n) :
      ∃ b, Relation.ReflTransGen r (chain 0) b ∧ Relation.TransGen r b b := by
    have reached := onward 0 m
    have back := onward (m + 1) (n - (m + 1))
    rw [Nat.zero_add] at reached
    rw [Nat.add_sub_cancel' less, ← same] at back
    exact ⟨chain m, reached, Relation.TransGen.head'_iff.mpr ⟨_, next m, back⟩⟩
  obtain ⟨m, n, apart, same⟩ := Finite.exists_ne_map_eq_of_infinite chain
  rcases Nat.lt_or_gt_of_ne apart with less | more
  · exact around less same
  · exact around more same.symm

end Chains

namespace Graph

/-- Node `i` lies on a cycle, or some chain of dependencies leads from it to one that does. -/
def LeadsToCycle (nodes : List Node) (i : Fin nodes.length) : Prop :=
  ∃ d, Relation.ReflTransGen (Names nodes) i d ∧ Relation.TransGen (Names nodes) d d

def HasEndlessChain (nodes : List Node) (i : Fin nodes.length) : Prop :=
  ∃ chain : Nat → Fin nodes.length, chain 0 = i ∧ ∀ k, Names nodes (chain k) (chain (k + 1))

structure NamesCycles (nodes : List Node) (ids : List String) : Prop where
  nonempty : ids ≠ []
  distinct : ids.Nodup
  declared : ids.Sublist (nodes.map (·.id))
  named : ∀ i, (nodes.get i).id ∈ ids ↔ LeadsToCycle nodes i
  spared : ∀ i, ¬ HasEndlessChain nodes i → (nodes.get i).id ∉ ids

theorem Sorting.Valid.ends {n : Nat} {dependencies : Vector (List (Fin n)) n} {s : Sorting n}
    (valid : s.Valid dependencies []) {i : Fin n} (sorted : i ∈ s.order) :
    Acc (fun d i => d ∈ dependencies.get i) i := by
  obtain ⟨before, rest, split⟩ := List.append_of_mem sorted
  -- What a node needs comes earlier in the order: the induction is on how much comes before.
  induction length : before.length using Nat.strongRecOn generalizing i before rest with
  | ind k ih =>
    refine ⟨i, fun d depends => ?_⟩
    obtain ⟨earlier, between, rfl⟩ :=
      List.append_of_mem (valid.sorted before i rest split d depends)
    rw [List.length_append, List.length_cons] at length
    rw [List.append_assoc, List.cons_append] at split
    exact ih earlier.length (by omega) (split ▸ by simp) earlier _ split rfl

theorem Sorting.Valid.mem_stuck_iff {n : Nat} {dependencies : Vector (List (Fin n)) n}
    {s : Sorting n} (valid : s.Valid dependencies []) (drained : s.queue = []) {i : Fin n} :
    i ∈ s.stuck ↔ ¬ Acc (fun d i => d ∈ dependencies.get i) i := by
  have free := valid.free i
  rw [drained, List.append_nil] at free
  have stuck : i ∈ s.stuck ↔ i ∉ s.order := by
    rw [free]
    simp only [stuck, List.mem_filter, List.mem_finRange, true_and, decide_eq_true_eq]
    exact Nat.pos_iff_ne_zero
  rw [stuck]
  exact not_congr ⟨valid.ends, valid.mem_order drained⟩

variable {nodes : List Node}

theorem mem_stuck_iff (distinct : (nodes.map (·.id)).Nodup) {i : Fin nodes.length} :
    i ∈ (sort nodes).stuck ↔ LeadsToCycle nodes i := by
  rw [(sort_valid nodes).mem_stuck_iff (sort_drained nodes)]
  simp only [mem_dependencyTable distinct]
  constructor
  · exact exists_cycle_of_not_acc
  · rintro ⟨d, chain, cycle⟩ ends
    exact not_transGen_self_of_acc (acc_of_reflTransGen ends chain) cycle

theorem LeadsToCycle.hasEndlessChain {i : Fin nodes.length} (leads : LeadsToCycle nodes i) :
    HasEndlessChain nodes i := by
  obtain ⟨d, chain, cycle⟩ := leads
  have endless : ¬ Acc (fun d i => Names nodes i d) i := fun ends =>
    not_transGen_self_of_acc (acc_of_reflTransGen ends chain) cycle
  exact not_acc_iff_exists_descending_chain.mp endless

theorem stuck_eq_nil_iff (nodes : List Node) :
    (sort nodes).stuck = [] ↔ (sort nodes).order.length = nodes.length := by
  have valid := sort_valid nodes
  rw [List.eq_nil_iff_forall_not_mem]
  constructor
  · intro none
    have all (i : Fin nodes.length) : i ∈ (sort nodes).order := by
      have ends := not_not.mp (mt (valid.mem_stuck_iff (sort_drained nodes)).mpr (none i))
      exact valid.mem_order (sort_drained nodes) ends
    have distinct : (sort nodes).order.Nodup := (List.nodup_append.mp valid.distinct).1
    have perm := (List.perm_ext_iff_of_nodup distinct (List.nodup_finRange _)).mpr fun i =>
      iff_of_true (all i) (List.mem_finRange i)
    rw [perm.length_eq, List.length_finRange]
  · intro all i stuck
    have sorted : i ∈ (sort nodes).order :=
      (valid.perm_finRange all).mem_iff.mpr (List.mem_finRange i)
    exact (valid.mem_stuck_iff (sort_drained nodes)).mp stuck (valid.ends sorted)

theorem ofNodes_eq_cycle_iff (sound : nodesFlaw? nodes = none) {ids : List String} :
    ofNodes nodes = .error (.cycle ids) ↔ (sort nodes).stuck ≠ [] ∧
      ids = (sort nodes).stuck.map fun i => (nodes.get i).id := by
  rw [ne_eq, stuck_eq_nil_iff]
  unfold ofNodes
  simp only [sound]
  split
  · simp [*]
  · rename_i some
    rw [and_iff_right some, Except.error.injEq, Flaw.cycle.injEq]
    exact eq_comm

theorem namesCycles_stuck (distinct : (nodes.map (·.id)).Nodup) (some : (sort nodes).stuck ≠ []) :
    NamesCycles nodes ((sort nodes).stuck.map fun i => (nodes.get i).id) := by
  have named (i) : (nodes.get i).id ∈ (sort nodes).stuck.map (fun i => (nodes.get i).id) ↔
      LeadsToCycle nodes i := by
    rw [← mem_stuck_iff distinct, List.mem_map]
    constructor
    · rintro ⟨d, member, same⟩
      rwa [← eq_of_id distinct same]
    · exact fun member => ⟨i, member, rfl⟩
  have declared : ((sort nodes).stuck.map fun i => (nodes.get i).id).Sublist (nodes.map (·.id)) := by
    have all : (List.finRange nodes.length).map (fun i => (nodes.get i).id) = nodes.map (·.id) := by
      have listed := congrArg (List.map (·.id)) (List.map_get_finRange nodes)
      rwa [List.map_map] at listed
    rw [← all]
    exact List.filter_sublist.map _
  constructor
  case nonempty => simpa using some
  case distinct => exact distinct.sublist declared
  case declared => exact declared
  case named => exact named
  case spared => exact fun i ends member => ends ((named i).mp member).hasEndlessChain

/-- Nodes that are sound one by one are refused for a cycle exactly if there is one. The report names,
in declaration order, the nodes on a cycle and behind one. -/
theorem ofNodes_reports_cycles (sound : nodesFlaw? nodes = none) :
    ((∃ ids, ofNodes nodes = .error (.cycle ids)) ↔ ∃ i, Relation.TransGen (Names nodes) i i) ∧
      ∀ ids, ofNodes nodes = .error (.cycle ids) → NamesCycles nodes ids := by
  obtain ⟨-, distinct, -⟩ := nodesFlaw?_eq_none_iff.mp sound
  simp only [ofNodes_eq_cycle_iff sound]
  refine ⟨⟨?_, ?_⟩, ?_⟩
  · rintro ⟨-, some, -⟩
    obtain ⟨i, stuck⟩ := List.exists_mem_of_ne_nil _ some
    obtain ⟨d, -, cycle⟩ := (mem_stuck_iff distinct).mp stuck
    exact ⟨d, cycle⟩
  · rintro ⟨i, cycle⟩
    exact ⟨_, List.ne_nil_of_mem ((mem_stuck_iff distinct).mpr ⟨i, .refl, cycle⟩), rfl⟩
  · rintro ids ⟨some, rfl⟩
    exact namesCycles_stuck distinct some

/-- A node before a cycle is not named, one behind it is. -/
theorem ofNodes_reports_cycles_behind :
    let nodes : List Node :=
      [{ Node.named "behind" with dependsOn := ["left"] }, Node.named "before",
        { Node.named "left" with dependsOn := ["before", "right"] },
        { Node.named "right" with dependsOn := ["left"] }]
    nodesFlaw? nodes = none ∧ ofNodes nodes = .error (.cycle ["behind", "left", "right"]) ∧
      NamesCycles nodes ["behind", "left", "right"] := by
  intro nodes
  have sound : nodesFlaw? nodes = none := Option.isNone_iff_eq_none.mp (by decide +kernel)
  have refused : ofNodes nodes = .error (.cycle ["behind", "left", "right"]) :=
    (ofNodes_eq_cycle_iff sound).mpr (by decide +kernel)
  exact ⟨sound, refused, (ofNodes_reports_cycles sound).2 _ refused⟩

end Graph

end Orchestration
