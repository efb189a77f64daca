import Orchestration.Ledger
import Orchestration.Proofs.Entries

namespace Orchestration

namespace Ledger

variable {α : Type} {l : Ledger α} {id : Uuid} {a : α}

@[simp] theorem ids_set (l : Ledger α) (id : Uuid) (a : α) : (l.set id a).ids = l.ids := rfl

@[simp] theorem keys_set (l : Ledger α) (id : Uuid) (a : α) : (l.set id a).keys = l.keys := by
  unfold set keys
  rw [List.map_map]
  refine List.map_congr_left fun entry _ => ?_
  rw [Function.comp_apply]
  split
  · exact (‹entry.1 = id›).symm
  · rfl

theorem mem_keys_iff : id ∈ l.keys ↔ (l.find? id).isSome := by
  unfold keys find?
  simp [List.lookup_isSome_iff]

theorem mem_aliases_iff {name : Uuid} :
    name ∈ l.aliases.map (·.1) ↔ (l.resolve? name).isSome := by
  unfold resolve?
  simp [List.lookup_isSome_iff]

theorem find?_set (l : Ledger α) (id : Uuid) (a : α) (x : Uuid) :
    (l.set id a).find? x = if x = id then (l.find? id).map fun _ => a else l.find? x := by
  unfold set find?
  dsimp only
  induction l.records with
  | nil => simp
  | cons entry entries ih =>
    obtain ⟨key, b⟩ := entry
    rw [List.map_cons]
    by_cases here : key = id
    · subst here
      by_cases same : x = key
      · simp [same]
      · simpa [same, lookup_cons_eq] using ih
    · by_cases same : x = id
      · subst same
        simpa [here, Ne.symm here, lookup_cons_eq] using ih
      · simp [here, same, ih, lookup_cons_eq]

theorem set_set (l : Ledger α) (id : Uuid) (a b : α) : (l.set id a).set id b = l.set id b := by
  unfold set
  dsimp only
  rw [List.map_map]
  refine congrArg (Ledger.mk · l.aliases l.order) (List.map_congr_left fun entry _ => ?_)
  rw [Function.comp_apply]
  by_cases here : entry.1 = id
  · simp only [here, if_true]
  · simp only [here, if_false]

theorem mem_select_iff {ids : List Uuid} :
    (id, a) ∈ l.select ids ↔ id ∈ ids ∧ l.find? id = some a := by
  simp only [select, List.mem_filterMap, Option.map_eq_some_iff, Prod.mk.injEq]
  constructor
  · rintro ⟨_, member, _, found, rfl, rfl⟩
    exact ⟨member, found⟩
  · rintro ⟨member, found⟩
    exact ⟨id, member, a, found, rfl, rfl⟩

theorem select_cons {ids : List Uuid} (found : l.find? id = some a) :
    l.select (id :: ids) = (id, a) :: l.select ids := by
  rw [select, List.filterMap_cons, found]
  rfl

theorem select_append (l : Ledger α) (first second : List Uuid) :
    l.select (first ++ second) = l.select first ++ l.select second := List.filterMap_append

theorem select_congr {l' : Ledger α} {ids : List Uuid} (same : ∀ id ∈ ids, l'.find? id = l.find? id) :
    l'.select ids = l.select ids :=
  List.filterMap_congr fun id member => by rw [same id member]

def total (f : α → Nat) (l : Ledger α) : Nat := l.records.foldr (fun entry n => f entry.2 + n) 0

section Distinct

variable (distinct : l.keys.Nodup)

include distinct

theorem mem_records_iff : (id, a) ∈ l.records ↔ l.find? id = some a :=
  (lookup_eq_some_iff_mem distinct).symm

theorem set_eq_self (found : l.find? id = some a) : l.set id a = l := by
  unfold set
  have same : (l.records.map fun entry => if entry.1 = id then (id, a) else entry) = l.records := by
    refine (List.map_congr_left fun entry member => ?_).trans (List.map_id l.records)
    split
    · rename_i here
      subst here
      have here := (mem_records_iff distinct).mp member
      rw [found] at here
      cases here
      rfl
    · rfl
  rw [same]

theorem records_set {first rest : List (Uuid × α)} (split : l.records = first ++ (id, a) :: rest)
    (b : α) : (l.set id b).records = first ++ (id, b) :: rest := by
  rw [Ledger.keys, split, List.map_append, List.map_cons] at distinct
  have others (entries : List (Uuid × α)) (absent : id ∉ entries.map (·.1)) :
      (entries.map fun entry => if entry.1 = id then (id, b) else entry) = entries := by
    refine (List.map_congr_left fun entry member => ?_).trans (List.map_id entries)
    refine if_neg fun same => absent ?_
    rw [← same]
    exact List.mem_map_of_mem member
  obtain ⟨-, right, apart⟩ := List.nodup_append.mp distinct
  unfold set
  rw [split, List.map_append, List.map_cons, if_pos rfl, others first, others rest]
  · exact (List.nodup_cons.mp right).1
  · exact fun member => apart id member id (List.mem_cons_self ..) rfl

theorem total_set (f : α → Nat) (found : l.find? id = some a) (b : α) :
    (l.set id b).total f + f a = l.total f + f b := by
  obtain ⟨first, rest, split⟩ := List.append_of_mem ((mem_records_iff distinct).mpr found)
  unfold total
  rw [records_set distinct split, split]
  clear split
  induction first with
  | nil =>
    simp only [List.nil_append, List.foldr_cons]
    omega
  | cons entry first ih =>
    simp only [List.cons_append, List.foldr_cons]
    omega

/-- A change that leaves a record alone when it is refused leaves the whole ledger alone then. -/
theorem transition_of_found {ε β : Type} (found : l.find? id = some a)
    (missing : LedgerError → ε) (change : α → Except ε β × α)
    (kept : ∀ e, (change a).1 = .error e → (change a).2 = a) :
    l.transition id missing change = ((change a).1, l.set id (change a).2) := by
  unfold transition
  simp only [found]
  rcases answer : change a with ⟨result, a'⟩
  cases result with
  | ok b => rfl
  | error e =>
    have same := kept e (congrArg Prod.fst answer)
    rw [answer] at same
    rw [same, set_eq_self distinct found]

end Distinct

theorem transition_of_missing {ε β : Type} (none : l.find? id = none) (missing : LedgerError → ε)
    (change : α → Except ε β × α) :
    l.transition id missing change = (.error (missing (.missing id)), l) := by
  simp only [transition, none]

structure Inserts (l l' : Ledger α) (id : Uuid) (a : α) (aliases : List Uuid) : Prop where
  free : l.find? id = none
  unbound : ∀ name ∈ aliases, l.resolve? name = none
  records : l'.records = l.records ++ [(id, a)]
  aliases : l'.aliases = (aliases.foldl (bind id) l).aliases
  ids : l'.ids = l.ids ++ [id]

theorem foldl_bind (l : Ledger α) (id : Uuid) (aliases : List Uuid) :
    (aliases.foldl (bind id) l).records = l.records ∧ (aliases.foldl (bind id) l).order = l.order := by
  induction aliases generalizing l with
  | nil => exact ⟨rfl, rfl⟩
  | cons name aliases ih => exact ih (l.bind id name)

theorem resolve?_foldl_bind (l : Ledger α) (id : Uuid) (aliases : List Uuid) (name : Uuid) :
    (aliases.foldl (bind id) l).resolve? name =
      if name ∈ aliases then some id else l.resolve? name := by
  induction aliases generalizing l with
  | nil => rfl
  | cons first aliases ih =>
    have here : (bind id l first).resolve? name = if name = first then some id else l.resolve? name :=
      lookup_put first id l.aliases name
    rw [List.foldl_cons, ih, here]
    by_cases same : name = first
    · simp [same]
    · simp [same]

theorem insert_cases (l : Ledger α) (id : Uuid) (a : α) (aliases : List Uuid) :
    (((l.find? id).isSome ∨ ∃ name ∈ aliases, (l.resolve? name).isSome) ∧
      ∃ why, l.insert id a aliases = (.error why, l)) ∨
    ∃ l', l.insert id a aliases = (.ok (), l') ∧ l.Inserts l' id a aliases := by
  unfold insert
  split
  · rename_i taken
    exact .inl ⟨.inl taken, _, rfl⟩
  · rename_i free
    split
    · rename_i name first
      have taken := List.find?_some first
      exact .inl ⟨.inr ⟨name, List.mem_of_find?_eq_some first, taken⟩, _, rfl⟩
    · rename_i unbound
      obtain ⟨records, order⟩ := l.foldl_bind id aliases
      have free : l.records.lookup id = none := Option.not_isSome_iff_eq_none.mp free
      refine .inr ⟨_, rfl, ?_⟩
      constructor
      case free => exact free
      case unbound => simpa using List.find?_eq_none.mp unbound
      case records =>
        dsimp only [enlist, store]
        rw [records, put_of_new free]
      case aliases => rfl
      case ids =>
        dsimp only [ids, enlist, store]
        rw [order]

theorem inserts_of_insert {l' : Ledger α} {aliases : List Uuid}
    (inserted : l.insert id a aliases = (.ok (), l')) : l.Inserts l' id a aliases := by
  rcases l.insert_cases id a aliases with ⟨-, why, refused⟩ | ⟨_, accepted, inserts⟩
  · cases refused.symm.trans inserted
  · cases accepted.symm.trans inserted
    exact inserts

namespace Inserts

variable {l' : Ledger α} {aliases : List Uuid}

theorem find? (inserts : l.Inserts l' id a aliases) (x : Uuid) :
    l'.find? x = if x = id then some a else l.find? x := by
  have free := inserts.free
  unfold Ledger.find? at *
  rw [inserts.records, List.lookup_append]
  split
  · subst x
    simp [free]
  · rename_i other
    simp [lookup_cons_eq, other]

theorem resolve? (inserts : l.Inserts l' id a aliases) (name : Uuid) :
    l'.resolve? name = if name ∈ aliases then some id else l.resolve? name := by
  rw [← l.resolve?_foldl_bind, Ledger.resolve?, inserts.aliases]
  rfl

theorem keys (inserts : l.Inserts l' id a aliases) : l'.keys = l.keys ++ [id] := by
  rw [Ledger.keys, inserts.records, List.map_append]
  rfl

end Inserts

/-- The order names each record once, and nothing else. -/
structure Consistent (l : Ledger α) : Prop where
  distinct : l.keys.Nodup
  listed : l.ids.Perm l.keys

namespace Consistent

theorem empty : (empty : Ledger α).Consistent := ⟨List.nodup_nil, .nil⟩

theorem once (consistent : l.Consistent) : l.ids.Nodup :=
  consistent.listed.nodup_iff.mpr consistent.distinct

theorem mem_ids_iff (consistent : l.Consistent) : id ∈ l.ids ↔ (l.find? id).isSome := by
  rw [consistent.listed.mem_iff, mem_keys_iff]

theorem mem_entries_iff (consistent : l.Consistent) : (id, a) ∈ l.entries ↔ l.find? id = some a := by
  unfold entries
  rw [mem_select_iff, and_iff_right_of_imp]
  intro found
  rw [consistent.mem_ids_iff, found]
  rfl

theorem size (consistent : l.Consistent) : l.size = l.ids.length := by
  rw [consistent.listed.length_eq, keys, List.length_map]
  rfl

theorem set (consistent : l.Consistent) (id : Uuid) (a : α) : (l.set id a).Consistent := by
  constructor
  · rw [keys_set]
    exact consistent.distinct
  · rw [keys_set]
    exact consistent.listed

theorem insert {l' : Ledger α} {aliases : List Uuid} (consistent : l.Consistent)
    (inserts : l.Inserts l' id a aliases) : l'.Consistent := by
  constructor
  case distinct =>
    rw [inserts.keys]
    refine List.nodup_append.mpr ⟨consistent.distinct, List.nodup_singleton id, ?_⟩
    intro x old y here same
    rw [same, List.mem_singleton.mp here, mem_keys_iff, inserts.free] at old
    cases old
  case listed =>
    rw [inserts.keys, inserts.ids]
    exact consistent.listed.append_right [id]

theorem entries_of_insert {l' : Ledger α} {aliases : List Uuid} (consistent : l.Consistent)
    (inserts : l.Inserts l' id a aliases) : l'.entries = l.entries ++ [(id, a)] := by
  have others (x : Uuid) (member : x ∈ l.ids) : l'.find? x = l.find? x := by
    refine (inserts.find? x).trans (if_neg ?_)
    rintro rfl
    rw [consistent.mem_ids_iff, inserts.free] at member
    cases member
  have here : l'.find? id = some a := (inserts.find? id).trans (if_pos rfl)
  have last : l'.select [id] = [(id, a)] := select_cons here
  unfold entries
  rw [inserts.ids, select_append, select_congr others, last]

end Consistent

theorem total_le {f g : α → Nat} (each : ∀ a, f a ≤ g a) (l : Ledger α) : l.total f ≤ l.total g := by
  unfold total
  induction l.records with
  | nil => exact Nat.le_refl _
  | cons entry entries ih =>
    rw [List.foldr_cons, List.foldr_cons]
    exact Nat.add_le_add (each entry.2) ih

end Ledger

end Orchestration
