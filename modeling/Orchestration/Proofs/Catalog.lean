import Orchestration.Catalog
import Orchestration.Proofs.Ledger
import Mathlib.Data.List.Nodup

namespace Orchestration

namespace Catalog

inductive Call where
  | register (name : String) (definition : Definition) (now : Timestamp) (id : Uuid)
  | get (name : String) (version : Version)
  | history (name : String)
  | newest

def call (c : Catalog) : Call → Catalog
  | .register name definition now id => (c.register name definition now id).2
  | .get .. | .history _ | .newest => c

def after (c : Catalog) (calls : List Call) : Catalog := calls.foldl call c

def added? (c : Catalog) : Call → Option Workflow
  | .register name definition now id => (c.register name definition now id).1.toOption
  | _ => none

def registered (c : Catalog) : List Call → List Workflow
  | [] => []
  | k :: calls => (c.added? k).toList ++ (c.call k).registered calls

def named (all : List Workflow) (name : String) : List Workflow := all.filter (·.name = name)

inductive Registration (c : Catalog) (name : String) (definition : Definition) (now : Timestamp)
    (id : Uuid) : Except Refusal Workflow × Catalog → Prop
  | done {w : Workflow} {n : Nat} (filled : Text.trim name ≠ "")
      (accepted : ∃ g, Graph.ofNodes definition.nodes = .ok g)
      (next : n = (c.versionsOf (Text.trim name)).length + 1) (room : n < UInt32.size)
      (made : w = ⟨id, Text.trim name, .ofNat n, definition.description, definition.nodes, now⟩) :
      Registration c name definition now id (.ok w, ⟨append (Text.trim name) w c.shelves⟩)
  | refused (why : Refusal) (lacks : ¬ (Text.trim name ≠ "" ∧
      (∃ g, Graph.ofNodes definition.nodes = .ok g) ∧
      (c.versionsOf (Text.trim name)).length + 1 < UInt32.size)) :
      Registration c name definition now id (.error why, c)

theorem registration (c : Catalog) (name : String) (definition : Definition) (now : Timestamp)
    (id : Uuid) : c.Registration name definition now id (c.register name definition now id) := by
  unfold register
  by_cases filled : Text.trim name = ""
  · simp only [filled, if_true]
    exact .refused _ fun all => all.1 filled
  · simp only [filled, if_false]
    cases accepted : Graph.ofNodes definition.nodes with
    | error flaw =>
      apply Registration.refused
      rintro ⟨-, ⟨g, built⟩, -⟩
      cases accepted.symm.trans built
    | ok g =>
      dsimp only
      split
      · rename_i room
        exact .done filled ⟨g, accepted⟩ rfl room rfl
      · rename_i full
        exact .refused _ fun all => full all.2.2

/-- The catalog keeps what was registered: a shelf for each name, with its versions in order. -/
structure Keeps (c : Catalog) (all : List Workflow) : Prop where
  distinct : (c.shelves.map (·.1)).Nodup
  shelf : ∀ name ws, c.shelves.lookup name = some ws ↔ ws = named all name ∧ ws ≠ []
  numbered : ∀ name i w, (named all name)[i]? = some w → w.version.toNat = i + 1

structure Registers (c : Catalog) (all : List Workflow) (name : String) (definition : Definition)
    (now : Timestamp) (id : Uuid) : Prop where
  succeeds : (∃ w, (c.register name definition now id).1 = .ok w) ↔
    Text.trim name ≠ "" ∧ (∃ g, Graph.ofNodes definition.nodes = .ok g) ∧
      (named all (Text.trim name)).length + 1 < UInt32.size
  done : ∀ w, (c.register name definition now id).1 = .ok w →
    w.version.toNat = 1 + (named all (Text.trim name)).length ∧
      w = ⟨id, Text.trim name, w.version, definition.description, definition.nodes, now⟩
  refused : ∀ why, (c.register name definition now id).1 = .error why →
    (c.register name definition now id).2 = c

structure Serves (c : Catalog) (all : List Workflow) : Prop where
  exact : ∀ name n w, c.get name (.exact n) = .ok w ↔
    ∃ i, n.toNat = i + 1 ∧ (named all (Text.trim name))[i]? = some w
  beyond : ∀ name n, n = 0 ∨ (named all (Text.trim name)).length < n.toNat →
    c.get name (.exact n) = .error (.missing (.workflow ⟨Text.trim name, .exact n⟩))
  latest : ∀ name w, c.get name .latest = .ok w ↔ (named all (Text.trim name)).getLast? = some w
  history : ∀ name ws, c.history name = .ok ws ↔ ws = named all (Text.trim name) ∧ ws ≠ []
  unknown : ∀ name, named all (Text.trim name) = [] →
    c.get name .latest = .error (.missing (.workflow ⟨Text.trim name, .latest⟩)) ∧
      c.history name = .error (.missing (.workflowName (Text.trim name)))
  increasing : (c.newest.map (·.name)).Pairwise (· < ·)
  newest : ∀ w, w ∈ c.newest ↔ (named all w.name).getLast? = some w

variable {c : Catalog} {all : List Workflow} {name : String} {w : Workflow}

theorem lookup_append (w : Workflow) (shelves : List (String × List Workflow)) (x : String) :
    (append name w shelves).lookup x =
      if x = name then some ((shelves.lookup name).getD [] ++ [w]) else shelves.lookup x := by
  induction shelves with
  | nil => simp [append, lookup_cons_eq]
  | cons shelf shelves ih =>
    obtain ⟨key, ws⟩ := shelf
    unfold append
    by_cases here : key = name
    · subst here
      by_cases same : x = key <;> simp [lookup_cons_eq, same]
    · by_cases same : x = name
      · subst same
        simpa [lookup_cons_eq, here, Ne.symm here] using ih
      · simp [lookup_cons_eq, here, same, ih]

theorem mem_keys_append {w : Workflow} {shelves : List (String × List Workflow)} {x : String}
    (member : x ∈ (append name w shelves).map (·.1)) : x = name ∨ x ∈ shelves.map (·.1) := by
  induction shelves with
  | nil => exact .inl (List.mem_singleton.mp member)
  | cons shelf shelves ih =>
    obtain ⟨key, ws⟩ := shelf
    unfold append at member
    split at member
    · exact .inr member
    · rcases List.mem_cons.mp member with same | later
      · exact .inr (List.mem_cons.mpr (.inl same))
      · exact (ih later).imp_right (List.mem_cons_of_mem _)

theorem distinct_append {shelves : List (String × List Workflow)}
    (distinct : (shelves.map (·.1)).Nodup) (w : Workflow) :
    ((append name w shelves).map (·.1)).Nodup := by
  induction shelves with
  | nil => exact List.nodup_singleton name
  | cons shelf shelves ih =>
    obtain ⟨key, ws⟩ := shelf
    obtain ⟨new, rest⟩ := List.nodup_cons.mp distinct
    unfold append
    split
    · exact distinct
    · rename_i other
      apply List.nodup_cons.mpr
      refine ⟨fun member => ?_, ih rest⟩
      rcases mem_keys_append member with same | old
      · exact other same
      · exact new old

theorem named_append (all : List Workflow) (w : Workflow) (name : String) :
    named (all ++ [w]) name = if w.name = name then named all name ++ [w] else named all name := by
  unfold named
  by_cases same : w.name = name <;> simp [same]

theorem name_of_mem (member : w ∈ named all name) : w.name = name :=
  of_decide_eq_true (List.mem_filter.mp member).2

namespace Keeps

theorem empty : Keeps .empty [] := by
  refine ⟨List.nodup_nil, fun name ws => ?_, fun name i w listed => nomatch listed⟩
  exact iff_of_false (fun found => nomatch found) fun both => both.2 both.1

theorem versionsOf_eq (keeps : c.Keeps all) (name : String) : c.versionsOf name = named all name := by
  unfold versionsOf
  cases found : c.shelves.lookup name with
  | some ws => exact ((keeps.shelf name ws).mp found).1
  | none =>
    by_contra filled
    have listed := (keeps.shelf name _).mpr ⟨rfl, Ne.symm filled⟩
    cases found.symm.trans listed

theorem append (keeps : c.Keeps all) (next : w.version.toNat = (named all w.name).length + 1) :
    Keeps ⟨Catalog.append w.name w c.shelves⟩ (all ++ [w]) := by
  have before := keeps.versionsOf_eq
  constructor
  case distinct => exact distinct_append keeps.distinct w
  case shelf =>
    intro x ws
    rw [lookup_append, named_append]
    by_cases same : x = w.name
    · subst same
      have old : (c.shelves.lookup w.name).getD [] = named all w.name := before w.name
      rw [if_pos rfl, if_pos rfl, old, Option.some.injEq]
      constructor
      · rintro rfl
        exact ⟨rfl, by simp⟩
      · exact fun both => both.1.symm
    · rw [if_neg same, if_neg (Ne.symm same)]
      exact keeps.shelf x ws
  case numbered =>
    intro x i v listed
    rw [named_append] at listed
    split at listed
    · rename_i same
      subst same
      rw [List.getElem?_append] at listed
      split at listed
      · exact keeps.numbered _ i v listed
      -- What is registered now comes last, under the next number.
      · rw [List.getElem?_singleton] at listed
        split at listed
        · cases listed
          omega
        · cases listed
    · exact keeps.numbered x i v listed

theorem registers (keeps : c.Keeps all) (name : String) (definition : Definition) (now : Timestamp)
    (id : Uuid) : c.Registers all name definition now id := by
  have before := keeps.versionsOf_eq (Text.trim name)
  have registration := c.registration name definition now id
  constructor
  case succeeds =>
    generalize c.register name definition now id = answer at registration
    cases registration with
    | done filled accepted next room =>
      rw [next, before] at room
      exact iff_of_true ⟨_, rfl⟩ ⟨filled, accepted, room⟩
    | refused why lacks =>
      rw [before] at lacks
      exact iff_of_false (fun ⟨w, same⟩ => nomatch same) lacks
  case done =>
    intro w same
    generalize c.register name definition now id = answer at registration same
    cases registration with
    | done filled accepted next room made =>
      obtain rfl := Except.ok.inj same
      subst made
      apply And.intro _ rfl
      rw [UInt32.toNat_ofNat_of_lt' room, next, before, Nat.add_comm]
    | refused => cases same
  case refused =>
    intro why same
    generalize c.register name definition now id = answer at registration same
    cases registration with
    | done => cases same
    | refused => rfl

theorem call (keeps : c.Keeps all) (k : Call) : (c.call k).Keeps (all ++ (c.added? k).toList) := by
  cases k with
  | register name definition now id =>
    have before := keeps.versionsOf_eq (Text.trim name)
    have registration := c.registration name definition now id
    unfold Catalog.call added?
    dsimp only
    generalize c.register name definition now id = answer at registration
    cases registration with
    | refused =>
      rw [Except.toOption, Option.toList_none, List.append_nil]
      exact keeps
    | @done w n filled accepted next room made =>
      have title : w.name = Text.trim name := by rw [made]
      have version : w.version.toNat = n := by rw [made, UInt32.toNat_ofNat_of_lt' room]
      rw [next, before, ← title] at version
      have kept := keeps.append version
      rwa [title] at kept
  | get | history | newest =>
    simp only [added?, Option.toList_none, List.append_nil]
    exact keeps

theorem after (keeps : c.Keeps all) (calls : List Call) :
    (c.after calls).Keeps (all ++ c.registered calls) := by
  induction calls generalizing c all with
  | nil => rwa [registered, List.append_nil]
  | cons k calls ih =>
    have rest := ih (keeps.call k)
    rwa [List.append_assoc] at rest

theorem mem_shelves_iff (keeps : c.Keeps all) {ws : List Workflow} :
    (name, ws) ∈ c.shelves ↔ ws = named all name ∧ ws ≠ [] := by
  rw [← lookup_eq_some_iff_mem keeps.distinct, keeps.shelf]

end Keeps

theorem select?_exact {ws : List Workflow} {n : UInt32} :
    select? ws (.exact n) = some w ↔ ∃ i, n.toNat = i + 1 ∧ ws[i]? = some w := by
  unfold select?
  dsimp only
  by_cases zero : n = 0
  · subst zero
    simp
  · have positive : n.toNat ≠ 0 := fun none => zero (UInt32.toNat_inj.mp none)
    rw [if_neg zero]
    constructor
    · exact fun listed => ⟨n.toNat - 1, by omega, listed⟩
    · rintro ⟨i, same, listed⟩
      rwa [same]

namespace Keeps

variable (keeps : c.Keeps all)

include keeps

theorem get_eq_ok_iff (name : String) (version : Version) (w : Workflow) :
    c.get name version = .ok w ↔ select? (named all (Text.trim name)) version = some w := by
  unfold get
  dsimp only
  rw [keeps.versionsOf_eq]
  cases select? (named all (Text.trim name)) version <;> simp

theorem get_of_none {version : Version} (none : select? (named all (Text.trim name)) version = none) :
    c.get name version = .error (.missing (.workflow ⟨Text.trim name, version⟩)) := by
  unfold get
  dsimp only
  rw [keeps.versionsOf_eq, none]

theorem history_eq_ok_iff (name : String) (ws : List Workflow) :
    c.history name = .ok ws ↔ ws = named all (Text.trim name) ∧ ws ≠ [] := by
  rw [← keeps.shelf]
  unfold history
  dsimp only
  cases c.shelves.lookup (Text.trim name) <;> simp

theorem history_of_none (none : named all (Text.trim name) = []) :
    c.history name = .error (.missing (.workflowName (Text.trim name))) := by
  unfold history
  dsimp only
  cases found : c.shelves.lookup (Text.trim name) with
  | none => rfl
  | some ws =>
    obtain ⟨rfl, filled⟩ := (keeps.shelf _ ws).mp found
    exact absurd none filled

theorem map_newest :
    c.newest.map (·.name) = (c.shelves.mergeSort fun a b => a.1 ≤ b.1).map (·.1) := by
  have filled (shelf) (member : shelf ∈ c.shelves.mergeSort fun a b => a.1 ≤ b.1) :
      shelf.2 = named all shelf.1 ∧ shelf.2 ≠ [] :=
    keeps.mem_shelves_iff.mp (List.mem_mergeSort.mp member)
  unfold newest
  generalize (c.shelves.mergeSort fun a b => a.1 ≤ b.1) = shelves at filled
  induction shelves with
  | nil => rfl
  | cons shelf shelves ih =>
    obtain ⟨same, nonempty⟩ := filled shelf (List.mem_cons_self ..)
    have rest := ih fun shelf member => filled shelf (List.mem_cons_of_mem _ member)
    cases last : shelf.2.getLast? with
    | none => exact absurd (List.getLast?_eq_none_iff.mp last) nonempty
    | some w =>
      have member := List.mem_of_getLast? last
      rw [same] at member
      simp only [List.filterMap_cons, last, List.map_cons, rest, name_of_mem member]

theorem increasing : (c.newest.map (·.name)).Pairwise (· < ·) := by
  have transitive (x y z : String × List Workflow) (first : decide (x.1 ≤ y.1) = true)
      (second : decide (y.1 ≤ z.1) = true) : decide (x.1 ≤ z.1) = true :=
    decide_eq_true (String.le_trans (of_decide_eq_true first) (of_decide_eq_true second))
  have total (x y : String × List Workflow) : (decide (x.1 ≤ y.1) || decide (y.1 ≤ x.1)) = true := by
    rw [Bool.or_eq_true, decide_eq_true_eq, decide_eq_true_eq]
    exact String.le_total x.1 y.1
  have sorted : ((c.shelves.mergeSort fun a b => a.1 ≤ b.1).map (·.1)).Pairwise (· ≤ ·) := by
    apply List.pairwise_map.mpr
    exact (List.pairwise_mergeSort transitive total c.shelves).imp of_decide_eq_true
  have same := (List.mergeSort_perm c.shelves fun a b => a.1 ≤ b.1).map (·.1)
  have distinct := List.nodup_iff_pairwise_ne.mp (keeps.distinct.perm same.symm)
  rw [keeps.map_newest]
  apply (sorted.and distinct).imp
  rintro x y ⟨le, apart⟩
  by_contra above
  exact apart (String.le_antisymm le (String.not_lt.mp above))

theorem mem_newest_iff (w : Workflow) : w ∈ c.newest ↔ (named all w.name).getLast? = some w := by
  unfold newest
  rw [List.mem_filterMap]
  constructor
  · rintro ⟨⟨name, ws⟩, member, last⟩
    obtain ⟨rfl, -⟩ := keeps.mem_shelves_iff.mp (List.mem_mergeSort.mp member)
    rwa [name_of_mem (List.mem_of_getLast? last)]
  · intro last
    have filled : named all w.name ≠ [] := List.ne_nil_of_mem (List.mem_of_getLast? last)
    have member := keeps.mem_shelves_iff.mpr ⟨rfl, filled⟩
    exact ⟨_, List.mem_mergeSort.mpr member, last⟩

theorem serves : c.Serves all := by
  constructor
  case exact =>
    intro name n w
    rw [keeps.get_eq_ok_iff, select?_exact]
  case beyond =>
    intro name n outside
    apply keeps.get_of_none
    rw [Option.eq_none_iff_forall_ne_some]
    intro w found
    obtain ⟨i, position, listed⟩ := select?_exact.mp found
    obtain ⟨bound, -⟩ := List.getElem?_eq_some_iff.mp listed
    rcases outside with rfl | less
    · cases position
    · omega
  case latest => exact fun name w => keeps.get_eq_ok_iff name .latest w
  case history => exact keeps.history_eq_ok_iff
  case unknown =>
    intro name none
    constructor
    · apply keeps.get_of_none
      rw [none]
      rfl
    · exact keeps.history_of_none none
  case increasing => exact keeps.increasing
  case newest => exact keeps.mem_newest_iff

end Keeps

theorem named_registered (all more : List Workflow) (name : String) :
    named (all ++ more) name = named all name ++ named more name := List.filter_append ..

/-- After any calls a catalog has under each name what was registered under it, numbered from one. A
registration succeeds if its name is not blank, its nodes have a graph and there is a number left, and
otherwise leaves no trace. Whatever calls follow, what was found under a number is found there still, and
a history only grows. -/
theorem keeps_after (calls : List Call) :
    let c := Catalog.empty.after calls
    let all := Catalog.empty.registered calls
    (∀ name definition now id, c.Registers all name definition now id) ∧ c.Serves all ∧
      (∀ name i w, (named all name)[i]? = some w → w.version.toNat = i + 1) ∧
      ∀ later name,
        (∀ n w, c.get name (.exact n) = .ok w → (c.after later).get name (.exact n) = .ok w) ∧
          ∀ ws, c.history name = .ok ws →
            ∃ more, (c.after later).history name = .ok (ws ++ more) := by
  intro c all
  have keeps : c.Keeps all := Keeps.empty.after calls
  refine ⟨keeps.registers, keeps.serves, keeps.numbered, fun later name => ?_⟩
  have keeps' := keeps.after later
  constructor
  · intro n w found
    obtain ⟨i, position, listed⟩ := (keeps.serves.exact name n w).mp found
    apply (keeps'.serves.exact name n w).mpr
    refine ⟨i, position, ?_⟩
    rw [named_registered, List.getElem?_append_left]
    · exact listed
    · exact (List.getElem?_eq_some_iff.mp listed).1
  · intro ws found
    obtain ⟨rfl, filled⟩ := (keeps.serves.history name ws).mp found
    exists named (c.registered later) (Text.trim name)
    apply (keeps'.serves.history name _).mpr
    rw [named_registered]
    exact ⟨rfl, by simp [filled]⟩

/-- Names are trimmed both when they are registered and when they are asked for. -/
example :
    let nodes : Definition := .ofNodes [⟨"load", .tool, [], 0, none, 0, .null⟩]
    let c := Catalog.empty.after
      [.register " etl\t" nodes .epoch .nil, .register " " nodes .epoch .nil,
        .register "etl" nodes .epoch .nil]
    let shown (answer : Except Refusal Workflow) := answer.toOption.map fun w => (w.name, w.version)
    shown (c.get "\netl" (.exact 1)) = some ("etl", 1) ∧ shown (c.get "etl" .latest) = some ("etl", 2) ∧
      shown (c.get "etl" (.exact 3)) = none ∧ shown (c.get "e tl" .latest) = none ∧
      (c.history "etl ").toOption.map List.length = some 2 := by
  decide +kernel

end Catalog

end Orchestration
