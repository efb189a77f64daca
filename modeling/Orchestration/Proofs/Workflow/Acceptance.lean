import Orchestration.Proofs.Workflow.Dependencies
import Mathlib.Data.Fintype.EquivFin
import Mathlib.Logic.Relation

namespace Orchestration

namespace Graph

/-- Node `i` names node `d` among those that it waits for. -/
def Names (nodes : List Node) (i d : Fin nodes.length) : Prop :=
  (nodes.get d).id ∈ (nodes.get i).dependsOn

structure WellFormed (nodes : List Node) : Prop where
  nonempty : nodes ≠ []
  distinct : (nodes.map (·.id)).Nodup
  costs : ∀ node ∈ nodes, 0 ≤ node.estimatedCost
  timeouts : ∀ node ∈ nodes, node.timeoutSecs ≠ some 0
  known : ∀ i, ∀ id ∈ (nodes.get i).dependsOn, ∃ d, d ≠ i ∧ (nodes.get d).id = id
  acyclic : ∀ i, ¬ Relation.TransGen (Names nodes) i i

/-- What a graph of `nodes` holds. Repeated dependencies count once, where they are named first. -/
structure Describes (nodes : List Node) (g : Graph nodes.length) : Prop where
  dependencies : ∀ i,
    (g.dependencies.get i).map (fun d => (nodes.get d).id) = (nodes.get i).dependsOn.eraseDups
  increasing : ∀ d, (g.dependents.get d).Pairwise (· < ·)
  dependents : ∀ d i, i ∈ g.dependents.get d ↔ d ∈ g.dependencies.get i
  complete : g.order.Perm (List.finRange nodes.length)
  sorted : ∀ i, ∀ d ∈ g.dependencies.get i, g.order.idxOf d < g.order.idxOf i

variable {nodes : List Node}

theorem indexOf?_isSome_iff {id : String} :
    (indexOf? nodes id).isSome ↔ ∃ d, (nodes.get d).id = id := by
  rw [indexOf?, List.isSome_findFinIdx?, List.any_eq_true]
  constructor
  · rintro ⟨node, member, same⟩
    obtain ⟨d, rfl⟩ := List.get_of_mem member
    exact ⟨d, eq_of_beq same⟩
  · rintro ⟨d, rfl⟩
    exact ⟨nodes.get d, List.get_mem nodes d, beq_self_eq_true _⟩

theorem entryFlaw?_eq_none_iff {node : Node} {id : String} :
    entryFlaw? nodes node id = none ↔ id ≠ node.id ∧ ∃ d, (nodes.get d).id = id := by
  unfold entryFlaw?
  rw [← indexOf?_isSome_iff]
  by_cases self : id = node.id
  · simp [self]
  · cases indexOf? nodes id <;> simp [self]

theorem nodeFlaw?_eq_none_iff {node : Node} :
    nodeFlaw? nodes node = none ↔ 0 ≤ node.estimatedCost ∧ node.timeoutSecs ≠ some 0 ∧
      ∀ id ∈ node.dependsOn, id ≠ node.id ∧ ∃ d, (nodes.get d).id = id := by
  have cost : ¬ node.estimatedCost < 0 ↔ 0 ≤ node.estimatedCost := Int.not_lt
  simp only [← entryFlaw?_eq_none_iff, ← List.findSome?_eq_none_iff, ← cost, nodeFlaw?]
  split
  · simp [*]
  · split <;> simp [*]

theorem eq_of_id (distinct : (nodes.map (·.id)).Nodup) {i d : Fin nodes.length}
    (same : (nodes.get i).id = (nodes.get d).id) : i = d := by
  have first := (indexOf?_eq_some_iff distinct).mpr same
  have second := (indexOf?_eq_some_iff distinct).mpr (rfl : (nodes.get d).id = _)
  exact Option.some.inj (first.symm.trans second)

theorem nodesFlaw?_of_wellFormed (formed : WellFormed nodes) : nodesFlaw? nodes = none := by
  refine nodesFlaw?_eq_none_iff.mpr ⟨formed.nonempty, formed.distinct, fun node member => ?_⟩
  refine nodeFlaw?_eq_none_iff.mpr ⟨formed.costs node member, formed.timeouts node member, ?_⟩
  intro id named
  obtain ⟨i, rfl⟩ := List.get_of_mem member
  obtain ⟨d, other, rfl⟩ := formed.known i id named
  exact ⟨fun same => other (eq_of_id formed.distinct same), d, rfl⟩

theorem get_dependencyTable (i : Fin nodes.length) :
    (dependencyTable nodes).get i = dependenciesOf nodes i := Vector.getElem_ofFn i.isLt

theorem mem_dependencyTable (distinct : (nodes.map (·.id)).Nodup) {i d : Fin nodes.length} :
    d ∈ (dependencyTable nodes).get i ↔ Names nodes i d := by
  rw [get_dependencyTable]
  exact mem_dependenciesOf distinct

theorem WellFormed.ends (formed : WellFormed nodes) (i : Fin nodes.length) :
    Acc (fun d i => d ∈ (dependencyTable nodes).get i) i := by
  let After (d i : Fin nodes.length) : Prop := Relation.TransGen (Names nodes) i d
  have : IsTrans _ After := ⟨fun _ _ _ first second => second.trans first⟩
  have : Std.Irrefl After := ⟨formed.acyclic⟩
  have ends := (Finite.wellFounded_of_trans_of_irrefl After).apply i
  refine Subrelation.accessible (fun named => ?_) ends
  exact .single ((mem_dependencyTable formed.distinct).mp named)

theorem sort_complete (formed : WellFormed nodes) :
    (sort nodes).order.Perm (List.finRange nodes.length) := by
  have valid := sort_valid nodes
  have distinct : (sort nodes).order.Nodup := (List.nodup_append.mp valid.distinct).1
  refine (List.perm_ext_iff_of_nodup distinct (List.nodup_finRange _)).mpr fun i => ?_
  exact iff_of_true (valid.mem_order (sort_drained nodes) (formed.ends i)) (List.mem_finRange i)

theorem acyclic_of_sorted (distinct : (nodes.map (·.id)).Nodup)
    (all : (sort nodes).order.length = nodes.length) (i : Fin nodes.length) :
    ¬ Relation.TransGen (Names nodes) i i := by
  have earlier {i d : Fin nodes.length} (chain : Relation.TransGen (Names nodes) i d) :
      (sort nodes).order.idxOf d < (sort nodes).order.idxOf i := by
    have rank := (sort_valid nodes).rank all
    induction chain with
    | single named => exact rank _ _ ((mem_dependencyTable distinct).mpr named)
    | tail _ named ih => exact (rank _ _ ((mem_dependencyTable distinct).mpr named)).trans ih
  exact fun cycle => Nat.lt_irrefl _ (earlier cycle)

theorem wellFormed_of_ok {g : Graph nodes.length} (built : ofNodes nodes = .ok g) :
    WellFormed nodes := by
  obtain ⟨sound, all, -⟩ := ofNodes_eq_ok built
  obtain ⟨nonempty, distinct, each⟩ := nodesFlaw?_eq_none_iff.mp sound
  have each (node) (member : node ∈ nodes) := nodeFlaw?_eq_none_iff.mp (each node member)
  refine ⟨nonempty, distinct, fun node member => (each node member).1,
    fun node member => (each node member).2.1, ?_, acyclic_of_sorted distinct all⟩
  intro i id named
  obtain ⟨other, d, same⟩ := (each _ (List.get_mem nodes i)).2.2 id named
  refine ⟨d, ?_, same⟩
  rintro rfl
  exact other same.symm

theorem ok_of_wellFormed (formed : WellFormed nodes) : ∃ g, ofNodes nodes = .ok g := by
  have all := (sort_complete formed).length_eq
  rw [List.length_finRange] at all
  simp only [ofNodes, nodesFlaw?_of_wellFormed formed, all, if_true]
  exact ⟨_, rfl⟩

theorem map_dependenciesOf (formed : WellFormed nodes) (i : Fin nodes.length) :
    (dependenciesOf nodes i).map (fun d => (nodes.get d).id) = (nodes.get i).dependsOn.eraseDups := by
  have resolved (ids : List String) (known : ∀ id ∈ ids, ∃ d, (nodes.get d).id = id) :
      (ids.filterMap (indexOf? nodes)).map (fun d => (nodes.get d).id) = ids := by
    induction ids with
    | nil => rfl
    | cons id ids ih =>
      obtain ⟨d, same⟩ := known id (List.mem_cons_self ..)
      have found := (indexOf?_eq_some_iff formed.distinct).mpr same
      rw [List.filterMap_cons_some found, List.map_cons, same,
        ih fun id member => known id (List.mem_cons_of_mem _ member)]
  unfold dependenciesOf
  rw [← eraseDups_map fun _ _ => eq_of_id formed.distinct, resolved]
  · rfl
  · intro id named
    obtain ⟨d, -, same⟩ := formed.known i id named
    exact ⟨d, same⟩

theorem describes_of_ok {g : Graph nodes.length} (built : ofNodes nodes = .ok g) :
    Describes nodes g := by
  have formed := wellFormed_of_ok built
  obtain ⟨-, all, rfl⟩ := ofNodes_eq_ok built
  have dependents (d) : (dependentTable (dependencyTable nodes)).get d =
      (List.finRange nodes.length).filter fun i => ((dependencyTable nodes).get i).contains d :=
    Vector.getElem_ofFn d.isLt
  constructor
  case dependencies =>
    intro i
    rw [get_dependencyTable]
    exact map_dependenciesOf formed i
  case increasing =>
    intro d
    rw [dependents]
    exact (List.pairwise_lt_finRange _).filter _
  case dependents =>
    intro d i
    simp [dependents]
  case complete => exact sort_complete formed
  case sorted => exact (sort_valid nodes).rank all

/-- Nodes have a graph exactly if they are well-formed, and it is the graph that they describe. -/
theorem ofNodes_iff_wellFormed (nodes : List Node) :
    ((∃ g, ofNodes nodes = .ok g) ↔ WellFormed nodes) ∧
      ∀ g, ofNodes nodes = .ok g → Describes nodes g := by
  refine ⟨⟨?_, ok_of_wellFormed⟩, fun g built => describes_of_ok built⟩
  rintro ⟨g, built⟩
  exact wellFormed_of_ok built

/-- A node may stand before those that it waits for, and name one of them twice. -/
theorem ofNodes_iff_wellFormed_join :
    let nodes : List Node :=
      [{ Node.named "join" with dependsOn := ["right", "left", "right"] }, Node.named "left",
        { Node.named "right" with dependsOn := ["left"] }]
    let g : Graph 3 := ⟨#v[[2, 1], [], [1]], #v[[], [0, 2], [0]], [1, 2, 0]⟩
    ofNodes nodes = .ok g ∧ WellFormed nodes ∧ Describes nodes g := by
  intro nodes g
  have built : ofNodes nodes = .ok g := by rfl
  obtain ⟨accepted, described⟩ := ofNodes_iff_wellFormed nodes
  exact ⟨built, accepted.mp ⟨g, built⟩, described g built⟩

end Graph

end Orchestration
