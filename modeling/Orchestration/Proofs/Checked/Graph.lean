import Mathlib.Data.List.FinRange
import Mathlib.Data.Nat.PSub
import Orchestration.Proofs.Workflow.Dependencies

namespace Orchestration

theorem foldlM_eq_some {α α' β β' : Type} {f : β → α → β} {g : β' → α' → Option β'}
    {see : β → β'} {name : α → α'} {P : List α → β → Prop}
    (turn : ∀ a rest b, P (a :: rest) b → g (see b) (name a) = some (see (f b a)) ∧ P rest (f b a))
    {l : List α} {b : β} (before : P l b) :
    (l.map name).foldlM g (see b) = some (see (l.foldl f b)) ∧ P [] (l.foldl f b) := by
  induction l generalizing b with
  | nil => exact ⟨rfl, before⟩
  | cons a l ih =>
    obtain ⟨same, next⟩ := turn a l b before
    rw [List.map_cons, List.foldlM_cons, same]
    exact ih next

theorem mapM_eq_some {α β γ : Type} {f : β → Option γ} {g : α → γ} {name : α → β}
    (same : ∀ a, f (name a) = some (g a)) (l : List α) : (l.map name).mapM f = some (l.map g) := by
  induction l with
  | nil => rfl
  | cons a l ih =>
    rw [List.map_cons, List.mapM_cons, same, ih]
    rfl

theorem ofFn_set {α : Type} {n : Nat} (f : Fin n → α) (i : Fin n) (a : α) :
    (List.ofFn f).set i a = List.ofFn (Function.update f i a) := by
  refine List.ext_getElem (by simp) fun j _ _ => ?_
  simp only [List.getElem_set, List.getElem_ofFn, Function.update_apply, Fin.ext_iff]
  by_cases same : (i : Nat) = j
  · simp [same]
  · simp [same, Ne.symm same]

theorem get_ofFn {α : Type} {n : Nat} (f : Fin n → α) : (Vector.ofFn f).get = f :=
  funext fun i => Vector.getElem_ofFn i.isLt

theorem getElem?_toList {α : Type} {n : Nat} (v : Vector α n) (i : Fin n) :
    v.toList[(i : Nat)]? = some (v.get i) := by
  rw [Vector.getElem?_toList, Vector.getElem?_eq_getElem i.isLt]
  rfl

namespace Checked

def keep (p : Nat → Option Bool) : List Nat → Option (List Nat)
  | [] => some []
  | i :: rest => do
    let here ← p i
    let kept ← keep p rest
    some (if here then i :: kept else kept)

theorem keep_eq_some {n : Nat} {p : Nat → Option Bool} {q : Fin n → Bool}
    (same : ∀ i : Fin n, p i = some (q i)) (l : List (Fin n)) :
    keep p (l.map (·.val)) = some ((l.filter q).map (·.val)) := by
  induction l with
  | nil => rfl
  | cons i l ih =>
    rw [List.map_cons, keep, same, ih, List.filter_cons]
    cases q i <;> rfl

structure Graph where
  dependencies : List (List Nat)
  dependents : List (List Nat)
  order : List Nat

namespace Graph

def indexOf? (nodes : List Node) (id : String) : Option Nat := nodes.findIdx? (·.id == id)

def resolve (nodes : List Node) (node : Node) : List Nat :=
  (node.dependsOn.filterMap (indexOf? nodes)).eraseDups

def push (rows : List (List Nat)) (i j : Nat) : Option (List (List Nat)) := do
  let row ← rows[i]?
  some (rows.set i (row ++ [j]))

/-- Notes on both sides that `i` waits for `j`. -/
def link (i : Nat) (g : Graph) (j : Nat) : Option Graph := do
  let dependencies ← push g.dependencies i j
  let dependents ← push g.dependents j i
  some { g with dependencies, dependents }

def linkAll (nodes : List Node) (g : Graph) (i : Nat) : Option Graph := do
  let node ← nodes[i]?
  (resolve nodes node).foldlM (link i) g

def tables (nodes : List Node) : Option Graph :=
  let none := List.replicate nodes.length []
  (List.range nodes.length).foldlM (linkAll nodes) ⟨none, none, []⟩

structure Sorting where
  waiting : List Nat
  queue : List Nat
  order : List Nat

namespace Sorting

def release (s : Sorting) (d : Nat) : Option Sorting := do
  let waits ← s.waiting[d]?
  let left ← waits.ppred
  some
    { s with
      waiting := s.waiting.set d left
      queue := if left = 0 then s.queue ++ [d] else s.queue }

def visit (dependents : List (List Nat)) (s : Sorting) (i : Nat) (rest : List Nat) :
    Option Sorting := do
  let owed ← dependents[i]?
  owed.foldlM release { s with queue := rest, order := s.order ++ [i] }

/-- Sorts in as many visits as `fuel` allows. It is a fault if they are too few. -/
def run (dependents : List (List Nat)) : Nat → Sorting → Option Sorting
  | 0, s => if s.queue.isEmpty then some s else none
  | fuel + 1, s =>
    match s.queue with
    | [] => some s
    | i :: rest => do
      let s ← s.visit dependents i rest
      run dependents fuel s

def start (dependencies : List (List Nat)) : Option Sorting := do
  let waiting := dependencies.map (·.length)
  let queue ← keep (fun i => do some ((← waiting[i]?) == 0)) (List.range waiting.length)
  some ⟨waiting, queue, []⟩

def stuck (s : Sorting) : Option (List Nat) :=
  keep (fun i => do some (0 < (← s.waiting[i]?))) (List.range s.waiting.length)

end Sorting

/-- Dependencies are linked before a flaw is looked for. -/
def ofNodes (nodes : List Node) : Option (Except Flaw Graph) := do
  let g ← tables nodes
  match Orchestration.Graph.nodesFlaw? nodes with
  | some flaw => some (.error flaw)
  | none =>
    let s ← Sorting.start g.dependencies
    let sorted ← s.run g.dependents nodes.length
    if sorted.order.length = nodes.length then some (.ok { g with order := sorted.order })
    else
      let ids ← (← sorted.stuck).mapM fun i => do some (← nodes[i]?).id
      some (.error (.cycle ids))

variable {n : Nat}

def rows (f : Fin n → List (Fin n)) : List (List Nat) := List.ofFn fun i => (f i).map (·.val)

theorem getElem?_rows (f : Fin n → List (Fin n)) (i : Fin n) :
    (rows f)[(i : Nat)]? = some ((f i).map (·.val)) := by
  simp [rows]

def of (g : Orchestration.Graph n) : Graph :=
  ⟨rows g.dependencies.get, rows g.dependents.get, g.order.map (·.val)⟩

theorem push_rows (f : Fin n → List (Fin n)) (i j : Fin n) :
    push (rows f) i j = some (rows (Function.update f i (f i ++ [j]))) := by
  rw [push, getElem?_rows]
  show some ((rows f).set i ((f i).map (·.val) ++ [(j : Nat)])) = _
  rw [rows, ofFn_set]
  congr 2
  funext k
  by_cases here : k = i
  · subst here
    simp
  · simp [here]

theorem links_rows (i : Fin n) {ds : List (Fin n)} (distinct : ds.Nodup) (f g : Fin n → List (Fin n))
    (order : List Nat) :
    (ds.map (·.val)).foldlM (link i) ⟨rows f, rows g, order⟩ =
      some ⟨rows (Function.update f i (f i ++ ds)), rows fun j => if j ∈ ds then g j ++ [i] else g j,
        order⟩ := by
  induction ds generalizing f g with
  | nil => simp
  | cons d ds ih =>
    obtain ⟨absent, distinct⟩ := List.nodup_cons.mp distinct
    have first : link i ⟨rows f, rows g, order⟩ d = some
        ⟨rows (Function.update f i (f i ++ [d])), rows (Function.update g d (g d ++ [i])), order⟩ := by
      rw [link, push_rows, push_rows]
      rfl
    have others : (fun j => if j ∈ ds then Function.update g d (g d ++ [i]) j ++ [i]
        else Function.update g d (g d ++ [i]) j) = fun j => if j ∈ d :: ds then g j ++ [i] else g j := by
      funext j
      by_cases here : j = d
      · subst here
        simp [absent]
      · simp [here]
    rw [List.map_cons, List.foldlM_cons, first]
    show (ds.map (·.val)).foldlM _ _ = _
    rw [ih distinct, others]
    simp

section Tables

variable (nodes : List Node)

theorem indexOf?_eq (id : String) :
    indexOf? nodes id = (Orchestration.Graph.indexOf? nodes id).map (·.val) :=
  List.findIdx?_eq_map_findFinIdx?_val

theorem resolve_eq (i : Fin nodes.length) :
    resolve nodes (nodes.get i) = (Orchestration.Graph.dependenciesOf nodes i).map (·.val) := by
  unfold resolve Orchestration.Graph.dependenciesOf
  rw [← eraseDups_map (@Fin.val_injective _), List.map_filterMap]
  simp only [indexOf?_eq]
  rfl

theorem linkAll_rows (i : Fin nodes.length) (f g : Fin nodes.length → List (Fin nodes.length))
    (order : List Nat) :
    let ds := Orchestration.Graph.dependenciesOf nodes i
    linkAll nodes ⟨rows f, rows g, order⟩ i =
      some ⟨rows (Function.update f i (f i ++ ds)), rows fun j => if j ∈ ds then g j ++ [i] else g j,
        order⟩ := by
  intro ds
  have found : nodes[(i : Nat)]? = some (nodes.get i) := List.getElem?_eq_getElem i.isLt
  rw [linkAll, found]
  show (resolve nodes (nodes.get i)).foldlM _ _ = _
  have distinct : ds.Nodup := nodup_eraseDups _
  rw [resolve_eq, links_rows i distinct]

theorem allLinked_rows {is : List (Fin nodes.length)} (distinct : is.Nodup)
    (f g : Fin nodes.length → List (Fin nodes.length)) (order : List Nat) :
    let deps := Orchestration.Graph.dependenciesOf nodes
    (is.map (·.val)).foldlM (linkAll nodes) ⟨rows f, rows g, order⟩ =
      some ⟨rows fun i => if i ∈ is then f i ++ deps i else f i,
        rows fun j => g j ++ is.filter fun i => (deps i).contains j, order⟩ := by
  intro deps
  induction is generalizing f g with
  | nil => simp
  | cons i is ih =>
    obtain ⟨absent, distinct⟩ := List.nodup_cons.mp distinct
    have left : (fun k => if k ∈ is then Function.update f i (f i ++ deps i) k ++ deps k
        else Function.update f i (f i ++ deps i) k) =
        fun k => if k ∈ i :: is then f k ++ deps k else f k := by
      funext k
      by_cases here : k = i
      · subst here
        simp [absent]
      · simp [here]
    have right : (fun j => (if j ∈ deps i then g j ++ [i] else g j) ++
        is.filter fun i => (deps i).contains j) =
        fun j => g j ++ (i :: is).filter fun i => (deps i).contains j := by
      funext j
      by_cases here : j ∈ deps i
      · simp [here]
      · simp [here]
    rw [List.map_cons, List.foldlM_cons, linkAll_rows]
    show (is.map (·.val)).foldlM _ _ = _
    rw [ih distinct, left, right]

theorem tables_eq : tables nodes = some
    ⟨rows (Orchestration.Graph.dependencyTable nodes).get,
      rows (Orchestration.Graph.dependentTable (Orchestration.Graph.dependencyTable nodes)).get, []⟩ := by
  have none : List.replicate nodes.length [] =
      rows fun _ : Fin nodes.length => ([] : List (Fin nodes.length)) := by
    simp [rows]
  unfold tables
  rw [none, ← List.map_coe_finRange_eq_range, allLinked_rows nodes (List.nodup_finRange _)]
  simp [Orchestration.Graph.dependencyTable, Orchestration.Graph.dependentTable, get_ofFn]

end Tables

namespace Sorting

def of (s : Orchestration.Graph.Sorting n) : Sorting :=
  ⟨s.waiting.toList, s.queue.map (·.val), s.order.map (·.val)⟩

variable {dependencies dependents : Vector (List (Fin n)) n} {s : Orchestration.Graph.Sorting n}

theorem release_of {d : Fin n} (waits : 0 < s.waiting.get d) :
    (of s).release d = some (of (s.release d)) := by
  obtain ⟨left, count⟩ := Nat.exists_eq_succ_of_ne_zero (Nat.ne_of_gt waits)
  have less : s.waiting[d] - 1 = left := by
    show s.waiting.get d - 1 = left
    omega
  have found : (of s).waiting[(d : Nat)]? = some left.succ := by
    rw [← count]
    exact getElem?_toList s.waiting d
  rw [release, found]
  show some _ = _
  simp only [of, Orchestration.Graph.Sorting.release, less, Vector.toList_set]
  split <;> simp

example : release ⟨[0], [], []⟩ 0 = none := rfl

theorem visit_of (converse : Orchestration.Graph.Converse dependencies dependents)
    (valid : s.Valid dependencies []) {i : Fin n} {rest : List (Fin n)} (queue : s.queue = i :: rest) :
    (of s).visit (rows dependents.get) i (rest.map (·.val)) = some (of (s.visit dependents i rest)) := by
  have taken := valid.take converse queue
  have begun : { of s with queue := rest.map (·.val), order := (of s).order ++ [(i : Nat)] } =
      of { s with queue := rest, order := s.order ++ [i] } := by
    simp [of]
  rw [visit, getElem?_rows, begun]
  refine (foldlM_eq_some (P := fun owed s => s.Valid dependencies owed) ?_ taken).1
  intro d owed s valid
  refine ⟨release_of ?_, valid.release⟩
  rw [valid.waiting, List.count_cons_self]
  omega

theorem run_of (converse : Orchestration.Graph.Converse dependencies dependents)
    (valid : s.Valid dependencies []) {fuel : Nat} (drained : (s.run dependents fuel).queue = []) :
    (of s).run (rows dependents.get) fuel = some (of (s.run dependents fuel)) := by
  induction fuel generalizing s with
  | zero =>
    have empty : s.queue = [] := drained
    simp [run, Orchestration.Graph.Sorting.run, of, empty]
  | succ fuel ih =>
    rw [Orchestration.Graph.Sorting.run] at drained
    rw [run, Orchestration.Graph.Sorting.run]
    cases queue : s.queue with
    | nil => simp [of, queue]
    | cons i rest =>
      have named : (of s).queue = (i : Nat) :: rest.map (·.val) := by simp [of, queue]
      simp only [queue] at drained
      simp only [named, visit_of converse valid queue]
      exact ih (valid.visit converse queue) drained

theorem start_of (dependencies : Vector (List (Fin n)) n) :
    start (rows dependencies.get) = some (of (.start dependencies)) := by
  have counts : (rows dependencies.get).map (·.length) =
      (Orchestration.Graph.Sorting.start dependencies).waiting.toList := by
    simp [rows, Orchestration.Graph.Sorting.start, List.map_ofFn, Function.comp_def, Vector.toList_ofFn]
  have queue : keep (fun i => do
        some ((← (Orchestration.Graph.Sorting.start dependencies).waiting.toList[i]?) == 0))
      (List.range n) = some ((Orchestration.Graph.Sorting.start dependencies).queue.map (·.val)) := by
    rw [← List.map_coe_finRange_eq_range]
    apply keep_eq_some
    intro i
    rw [getElem?_toList]
    rfl
  rw [start, counts, Vector.length_toList, queue]
  rfl

theorem stuck_of (s : Orchestration.Graph.Sorting n) :
    (of s).stuck = some (s.stuck.map (·.val)) := by
  have length : (of s).waiting.length = n := Vector.length_toList
  rw [stuck, length, ← List.map_coe_finRange_eq_range]
  apply keep_eq_some
  intro i
  rw [of, getElem?_toList]
  rfl

end Sorting

/-- No list of nodes leads to a fault. -/
theorem ofNodes_eq (nodes : List Node) :
    ofNodes nodes = some ((Orchestration.Graph.ofNodes nodes).map of) := by
  unfold ofNodes Orchestration.Graph.ofNodes
  rw [tables_eq]
  cases Orchestration.Graph.nodesFlaw? nodes with
  | some flaw => rfl
  | none =>
    let sorted := Orchestration.Graph.sort nodes
    have run : (Sorting.of (.start (Orchestration.Graph.dependencyTable nodes))).run _ nodes.length =
        some (.of sorted) :=
      Sorting.run_of (Orchestration.Graph.converse_tables nodes) .start
        (Orchestration.Graph.sort_drained nodes)
    have ids : (sorted.stuck.map (·.val)).mapM (fun i => do some (← nodes[i]?).id) =
        some (sorted.stuck.map fun i => nodes[i].id) := by
      apply mapM_eq_some
      intro i
      simp
    have length : (Sorting.of sorted).order.length = sorted.order.length := List.length_map ..
    simp only [Option.bind_eq_bind] at ids
    simp only [Sorting.start_of, run, length, Sorting.stuck_of, Option.bind_eq_bind,
      Option.bind_some, ids]
    split <;> rfl

end Graph

end Checked

end Orchestration
