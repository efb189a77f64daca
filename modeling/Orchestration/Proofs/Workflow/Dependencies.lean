import Orchestration.Proofs.Workflow.Sorting
import Orchestration.Run.Plan
import Mathlib.Data.List.Nodup
import Mathlib.Data.List.Perm.Subperm

namespace Orchestration

theorem nodup_eraseDups {α : Type} [DecidableEq α] (l : List α) : l.eraseDups.Nodup := by
  induction length : l.length using Nat.strongRecOn generalizing l with
  | ind n ih =>
    cases l with
    | nil => simp
    | cons a l =>
      have shorter := List.length_filter_le (fun b => !b == a) l
      rw [List.length_cons] at length
      rw [List.eraseDups_cons]
      refine List.nodup_cons.mpr ⟨by simp [List.mem_eraseDups], ?_⟩
      exact ih _ (by omega) _ rfl

theorem eraseDups_map {α β : Type} [DecidableEq α] [DecidableEq β] {f : α → β}
    (injective : ∀ a b, f a = f b → a = b) (l : List α) :
    (l.map f).eraseDups = l.eraseDups.map f := by
  induction length : l.length using Nat.strongRecOn generalizing l with
  | ind n ih =>
    cases l with
    | nil => rfl
    | cons a l =>
      have shorter := List.length_filter_le (fun b => !b == a) l
      rw [List.length_cons] at length
      have kept : ((fun b => !b == f a) ∘ f) = fun b => !b == a := by
        funext b
        by_cases same : b = a
        · simp [same]
        · have other : f b ≠ f a := fun equal => same (injective b a equal)
          simp [same, other]
      rw [List.map_cons, List.eraseDups_cons, List.eraseDups_cons, List.map_cons, List.filter_map, kept,
        ih _ (by omega) _ rfl]

namespace Graph

theorem firstRepeated?_eq_none_iff {seen ids : List String} :
    firstRepeated? seen ids = none ↔ ids.Nodup ∧ ∀ id ∈ ids, id ∉ seen := by
  induction ids generalizing seen with
  | nil => simp [firstRepeated?]
  | cons id ids ih =>
    unfold firstRepeated?
    split
    · simp [*]
    · rename_i new
      simp only [ih, List.nodup_cons, List.mem_cons, forall_eq_or_imp, not_or]
      constructor
      · intro ⟨distinct, apart⟩
        exact ⟨⟨fun member => (apart id member).1 rfl, distinct⟩, new, fun other member =>
          (apart other member).2⟩
      · rintro ⟨⟨single, distinct⟩, -, apart⟩
        refine ⟨distinct, fun other member => ⟨?_, apart other member⟩⟩
        rintro rfl
        exact single member

theorem nodesFlaw?_eq_none_iff {nodes : List Node} :
    nodesFlaw? nodes = none ↔ nodes ≠ [] ∧ (nodes.map (·.id)).Nodup ∧
      ∀ node ∈ nodes, nodeFlaw? nodes node = none := by
  unfold nodesFlaw?
  split
  · simp
  · rename_i nonempty
    have distinct : firstRepeated? [] (nodes.map (·.id)) = none ↔ (nodes.map (·.id)).Nodup := by
      simp [firstRepeated?_eq_none_iff]
    rw [and_iff_right (by exact fun nil => nonempty nil), ← distinct, ← List.findSome?_eq_none_iff]
    cases firstRepeated? [] (nodes.map (·.id)) <;> simp

variable {nodes : List Node}

theorem indexOf?_eq_some_iff (distinct : (nodes.map (·.id)).Nodup) {id : String}
    {i : Fin nodes.length} : indexOf? nodes id = some i ↔ (nodes.get i).id = id := by
  unfold indexOf?
  rw [List.findFinIdx?_eq_some_iff]
  constructor
  · intro ⟨here, _⟩
    simpa using here
  · intro here
    refine ⟨by simpa using here, ?_⟩
    intro j before same
    have bound (k : Fin nodes.length) : k.val < (nodes.map (·.id)).length := by simp
    have ids : (nodes.map (·.id)).get ⟨j, bound j⟩ = (nodes.map (·.id)).get ⟨i, bound i⟩ := by
      simpa using (eq_of_beq same).trans here.symm
    have := Fin.mk.inj_iff.mp (distinct.get_inj_iff.mp ids)
    omega

theorem mem_dependenciesOf (distinct : (nodes.map (·.id)).Nodup) {i d : Fin nodes.length} :
    d ∈ dependenciesOf nodes i ↔ (nodes.get d).id ∈ (nodes.get i).dependsOn := by
  unfold dependenciesOf
  rw [List.mem_eraseDups, List.mem_filterMap]
  constructor
  · intro ⟨id, member, found⟩
    rwa [(indexOf?_eq_some_iff distinct).mp found]
  · intro member
    exact ⟨_, member, (indexOf?_eq_some_iff distinct).mpr rfl⟩

theorem converse_tables (nodes : List Node) :
    Converse (dependencyTable nodes) (dependentTable (dependencyTable nodes)) := by
  intro i j
  have once : (dependenciesOf nodes j).count i =
      if (dependenciesOf nodes j).contains i then 1 else 0 := by
    have distinct := List.nodup_iff_count.mp (nodup_eraseDups
      (nodes[j].dependsOn.filterMap (indexOf? nodes))) i
    split
    · rename_i member
      have := List.count_pos_iff.mpr (List.contains_iff_mem.mp member)
      exact Nat.le_antisymm distinct this
    · rename_i absent
      exact List.count_eq_zero.mpr fun member => absent (List.contains_iff_mem.mpr member)
  have dependencies (k) : (dependencyTable nodes).get k = dependenciesOf nodes k :=
    Vector.getElem_ofFn k.isLt
  have dependents : (dependentTable (dependencyTable nodes)).get i =
      (List.finRange nodes.length).filter fun k => ((dependencyTable nodes).get k).contains i :=
    Vector.getElem_ofFn i.isLt
  simp only [dependencies] at dependents
  rw [dependents, dependencies, once]
  split
  · rename_i member
    rw [List.count_filter (by exact member)]
    exact Nat.le_antisymm (List.nodup_iff_count.mp (List.nodup_finRange _) j)
      (List.count_pos_iff.mpr (List.mem_finRange j))
  · rename_i absent
    exact List.count_eq_zero.mpr fun member => absent (List.mem_filter.mp member).2

theorem ofNodes_eq_ok {g : Graph nodes.length} (built : ofNodes nodes = .ok g) :
    nodesFlaw? nodes = none ∧ (sort nodes).order.length = nodes.length ∧
      g = ⟨dependencyTable nodes, dependentTable (dependencyTable nodes), (sort nodes).order⟩ := by
  unfold ofNodes at built
  split at built
  · simp at built
  · rename_i sound
    dsimp only at built
    split at built
    · rename_i all
      exact ⟨sound, all, (Except.ok.inj built).symm⟩
    · simp at built

theorem sort_valid (nodes : List Node) : (sort nodes).Valid (dependencyTable nodes) [] :=
  Sorting.Valid.start.run (converse_tables nodes) nodes.length

theorem sort_drained (nodes : List Node) : (sort nodes).queue = [] :=
  Sorting.Valid.start.run_drained (converse_tables nodes) (Nat.le_add_left ..)

theorem Sorting.Valid.perm_finRange {n : Nat} {dependencies : Vector (List (Fin n)) n}
    {s : Sorting n} (valid : s.Valid dependencies []) (all : s.order.length = n) :
    s.order.Perm (List.finRange n) := by
  have distinct : s.order.Nodup := (List.nodup_append.mp valid.distinct).1
  have part := List.subperm_of_subset distinct fun j _ => List.mem_finRange j
  exact part.perm_of_length_le (by simp [all])

theorem Sorting.Valid.rank {n : Nat} {dependencies : Vector (List (Fin n)) n} {s : Sorting n}
    (valid : s.Valid dependencies []) (all : s.order.length = n) (i : Fin n) :
    ∀ d ∈ dependencies.get i, s.order.idxOf d < s.order.idxOf i := by
  have distinct : s.order.Nodup := (List.nodup_append.mp valid.distinct).1
  have member : i ∈ s.order := (valid.perm_finRange all).mem_iff.mpr (List.mem_finRange i)
  intro d depends
  obtain ⟨before, rest, split⟩ := List.append_of_mem member
  have earlier := valid.sorted before i rest split d depends
  rw [split] at distinct ⊢
  have new : i ∉ before := by
    intro old
    exact (List.nodup_append.mp distinct).2.2 i old i (by simp) rfl
  rw [List.idxOf_append_of_mem earlier, List.idxOf_append_of_notMem new]
  have := List.idxOf_lt_length_of_mem earlier
  omega

end Graph

namespace Plan

structure Ordered (p : Plan) : Prop where
  nonempty : 0 < p.size
  converse : ∀ i j, (p.dependents i).count j = (p.dependencies j).count i
  named : ∀ i d, d ∈ p.dependencies i ↔ (p.node d).id ∈ (p.node i).dependsOn
  ranked : ∃ rank : Fin p.size → Nat, ∀ i, ∀ d ∈ p.dependencies i, rank d < rank i

theorem ofWorkflow_eq_ok {w : Workflow} {p : Plan} (built : ofWorkflow w = .ok p) :
    ∃ g, Graph.ofNodes w.nodes = .ok g ∧ p = ⟨w, g⟩ := by
  unfold ofWorkflow at built
  split at built
  · rename_i g same
    exact ⟨g, same, (Except.ok.inj built).symm⟩
  · simp at built

theorem ordered {w : Workflow} {p : Plan} (built : ofWorkflow w = .ok p) : p.Ordered := by
  obtain ⟨g, accepted, rfl⟩ := ofWorkflow_eq_ok built
  obtain ⟨sound, all, rfl⟩ := Graph.ofNodes_eq_ok accepted
  obtain ⟨nonempty, distinct, -⟩ := Graph.nodesFlaw?_eq_none_iff.mp sound
  refine ⟨List.length_pos_iff.mpr nonempty, Graph.converse_tables w.nodes, ?_, ?_⟩
  · intro i d
    have := Graph.mem_dependenciesOf distinct (i := i) (d := d)
    simpa [dependencies, Graph.dependencyTable, node] using this
  · exact ⟨_, (Graph.sort_valid w.nodes).rank all⟩

theorem node_sound {w : Workflow} {p : Plan} (built : ofWorkflow w = .ok p) (i : Fin p.size) :
    ¬ (p.node i).estimatedCost < 0 ∧ (p.node i).timeoutSecs ≠ some 0 := by
  obtain ⟨g, accepted, rfl⟩ := ofWorkflow_eq_ok built
  obtain ⟨sound, -, -⟩ := Graph.ofNodes_eq_ok accepted
  obtain ⟨-, -, nodes⟩ := Graph.nodesFlaw?_eq_none_iff.mp sound
  have here := nodes _ (List.getElem_mem i.isLt)
  unfold Graph.nodeFlaw? at here
  split at here
  · cases here
  · rename_i positive
    split at here
    · cases here
    · rename_i timed
      exact ⟨positive, timed⟩

end Plan

def Workflow.pair : Workflow :=
  ⟨.nil, "pair", 1, "",
    [⟨"a", .function, [], 1, none, 0, .null⟩, ⟨"b", .function, ["a"], 1, none, 0, .null⟩], .epoch⟩

def Plan.pair : Plan :=
  ⟨.pair, ⟨#v[[], [(0 : Fin 2)]], #v[[(1 : Fin 2)], []], [(0 : Fin 2), (1 : Fin 2)]⟩⟩

theorem Plan.pair_built : ofWorkflow .pair = .ok .pair := by rfl

end Orchestration
