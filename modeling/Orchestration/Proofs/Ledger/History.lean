import Orchestration.Proofs.Ledger

namespace Orchestration

namespace Ledger

variable {α : Type}

inductive Call (α : Type) : Type 1 where
  | insert (id : Uuid) (a : α) (aliases : List Uuid)
  | transition {ε β : Type} (id : Uuid) (missing : LedgerError → ε) (change : α → Except ε β × α)
  | read (id : Uuid)
  | resolve (name : Uuid)
  | ids
  | size

def call (l : Ledger α) : Call α → Ledger α
  | .insert id a aliases => (l.insert id a aliases).2
  | .transition id missing change => (l.transition id missing change).2
  | .read _ | .resolve _ | .ids | .size => l

def afterCalls (l : Ledger α) (calls : List (Call α)) : Ledger α := calls.foldl call l

structure Entry (α : Type) where
  id : Uuid
  record : α
  aliases : List Uuid

def Call.revise (id : Uuid) (a : α) : Call α → α
  | .transition id' _ change =>
    if id' = id then
      match change a with
      | (.ok _, a') => a'
      | (.error _, _) => a
    else a
  | _ => a

def Call.addition? (entries : List (Entry α)) : Call α → Option (Entry α)
  | .insert id a aliases =>
    if ∃ e ∈ entries, e.id = id ∨ ∃ name ∈ aliases, name ∈ e.aliases then none
    else some ⟨id, a, aliases⟩
  | _ => none

/-- What a call makes of all entries. No ledger takes part in this. -/
def Call.amend (entries : List (Entry α)) (c : Call α) : List (Entry α) :=
  (entries.map fun e => { e with record := c.revise e.id e.record }) ++ (c.addition? entries).toList

def Call.journal (calls : List (Call α)) : List (Entry α) := calls.foldl amend []

/-- The ledger knows each entry once, and no other. A further id leads to the entry that it came with. -/
structure Holds (l : Ledger α) (entered : List (Entry α)) : Prop where
  ids : l.ids = entered.map (·.id)
  once : l.ids.Nodup
  resolves : ∀ name id, l.resolve name = .ok id ↔ ∃ e ∈ entered, e.id = id ∧ name ∈ e.aliases

structure Shows (l : Ledger α) (entries : List (Entry α)) : Prop extends l.Holds entries where
  consistent : l.Consistent
  size : l.size = entries.length
  reads : ∀ id a, l.read id = .ok a ↔ ∃ e ∈ entries, e.id = id ∧ e.record = a
  unread : ∀ id, id ∉ l.ids → l.read id = .error (.missing id)
  unresolved : ∀ name, (∀ e ∈ entries, name ∉ e.aliases) → l.resolve name = .error (.missing name)

structure Enters (l : Ledger α) (id : Uuid) (a : α) (aliases : List Uuid) : Prop where
  fails : (∃ why, (l.insert id a aliases).1 = .error why) ↔
    id ∈ l.ids ∨ ∃ name ∈ aliases, ∃ other, l.resolve name = .ok other
  refused : ∀ why, (l.insert id a aliases).1 = .error why → (l.insert id a aliases).2 = l
  done : (l.insert id a aliases).1 = .ok () →
    let l' := (l.insert id a aliases).2
    l'.ids = l.ids ++ [id] ∧
      (∀ x, l'.read x = if x = id then .ok a else l.read x) ∧
      ∀ name, l'.resolve name = if name ∈ aliases then .ok id else l.resolve name

structure Revises {ε β : Type} (l : Ledger α) (id : Uuid) (missing : LedgerError → ε)
    (change : α → Except ε β × α) : Prop where
  unknown : id ∉ l.ids → l.transition id missing change = (.error (missing (.missing id)), l)
  known : id ∈ l.ids → ∃ a, l.read id = .ok a ∧
    (∀ why, (change a).1 = .error why → l.transition id missing change = (.error why, l)) ∧
    ∀ b, (change a).1 = .ok b →
      let result := l.transition id missing change
      result.1 = .ok b ∧ result.2.ids = l.ids ∧ result.2.aliases = l.aliases ∧
        ∀ x, result.2.read x = if x = id then .ok (change a).2 else l.read x

variable {l l' : Ledger α} {id name : Uuid} {a : α} {aliases : List Uuid} {entries : List (Entry α)}

theorem read_eq (l : Ledger α) (id : Uuid) :
    l.read id = (l.find? id).elim (.error (.missing id)) .ok := by
  unfold read
  cases l.find? id <;> rfl

theorem resolve_eq (l : Ledger α) (name : Uuid) :
    l.resolve name = (l.resolve? name).elim (.error (.missing name)) .ok := by
  unfold resolve
  cases l.resolve? name <;> rfl

theorem read_eq_ok_iff : l.read id = .ok a ↔ l.find? id = some a := by
  rw [read_eq]
  cases l.find? id <;> simp

theorem resolve_eq_ok_iff : l.resolve name = .ok id ↔ l.resolve? name = some id := by
  rw [resolve_eq]
  cases l.resolve? name <;> simp

theorem Consistent.find?_eq_none_iff (consistent : l.Consistent) : l.find? id = none ↔ id ∉ l.ids := by
  rw [consistent.mem_ids_iff, Option.not_isSome_iff_eq_none]

theorem insert_eq_error_iff (consistent : l.Consistent) :
    (∃ why, (l.insert id a aliases).1 = .error why) ↔
      id ∈ l.ids ∨ ∃ name ∈ aliases, ∃ other, l.resolve name = .ok other := by
  simp only [resolve_eq_ok_iff, ← Option.isSome_iff_exists, consistent.mem_ids_iff]
  rcases l.insert_cases id a aliases with ⟨taken, why, refused⟩ | ⟨l', inserted, inserts⟩
  · rw [refused]
    exact iff_of_true ⟨why, rfl⟩ taken
  · rw [inserted]
    apply iff_of_false nofun
    rintro (taken | ⟨name, new, taken⟩)
    · rw [inserts.free] at taken
      cases taken
    · rw [inserts.unbound name new] at taken
      cases taken

theorem Consistent.enters (consistent : l.Consistent) (id : Uuid) (a : α) (aliases : List Uuid) :
    l.Enters id a aliases := by
  constructor
  case fails => exact insert_eq_error_iff consistent
  all_goals
    rcases l.insert_cases id a aliases with ⟨-, why, refused⟩ | ⟨l', inserted, inserts⟩
  case refused.inl => exact fun _ _ => congrArg Prod.snd refused
  case refused.inr =>
    intro why refused
    rw [inserted] at refused
    cases refused
  case done.inl =>
    intro done
    rw [refused] at done
    cases done
  case done.inr =>
    intro _
    rw [inserted]
    refine ⟨inserts.ids, fun x => ?_, fun name => ?_⟩
    · rw [read_eq, read_eq, inserts.find?]
      split <;> rfl
    · rw [resolve_eq, resolve_eq, inserts.resolve?]
      split <;> rfl

theorem Consistent.revises {ε β : Type} (consistent : l.Consistent) (id : Uuid)
    (missing : LedgerError → ε) (change : α → Except ε β × α) : l.Revises id missing change := by
  constructor
  case unknown =>
    intro unknown
    exact transition_of_missing (consistent.find?_eq_none_iff.mpr unknown) missing change
  case known =>
    intro known
    obtain ⟨a, found⟩ := Option.isSome_iff_exists.mp (consistent.mem_ids_iff.mp known)
    refine ⟨a, read_eq_ok_iff.mpr found, ?_⟩
    rcases answer : change a with ⟨⟨why⟩ | ⟨b⟩, a'⟩
    · refine ⟨fun _ refused => ?_, fun _ accepted => ?_⟩
      · cases refused
        simp only [transition, found, answer]
      · cases accepted
    · refine ⟨fun _ refused => ?_, fun _ accepted => ?_⟩
      · cases refused
      · cases accepted
        simp only [transition, found, answer]
        refine ⟨trivial, ids_set l id a', rfl, fun x => ?_⟩
        rw [read_eq, read_eq, find?_set, found]
        split <;> rfl

inductive Went (l : Ledger α) : Call α → Ledger α → Option (Entry α) → Prop
  | entered {id : Uuid} {a : α} {aliases : List Uuid} {l' : Ledger α}
      (inserts : l.Inserts l' id a aliases) :
      Went l (.insert id a aliases) l' (some ⟨id, a, aliases⟩)
  | changed {ε β : Type} {id : Uuid} {missing : LedgerError → ε} {change : α → Except ε β × α} {a a' : α}
      {b : β} (found : l.find? id = some a) (accepted : change a = (.ok b, a')) :
      Went l (.transition id missing change) (l.set id a') none
  | kept {c : Call α} (same : ∀ id a, l.find? id = some a → c.revise id a = a) : Went l c l none

theorem Holds.clash_iff (holds : l.Holds entries) (consistent : l.Consistent) :
    (∃ e ∈ entries, e.id = id ∨ ∃ name ∈ aliases, name ∈ e.aliases) ↔
      (l.find? id).isSome ∨ ∃ name ∈ aliases, (l.resolve? name).isSome := by
  simp only [← consistent.mem_ids_iff, Option.isSome_iff_exists, ← resolve_eq_ok_iff, holds.ids,
    holds.resolves, List.mem_map]
  constructor
  · rintro ⟨e, member, same | ⟨name, new, known⟩⟩
    · exact .inl ⟨e, member, same⟩
    · exact .inr ⟨name, new, e.id, e, member, rfl, known⟩
  · rintro (⟨e, member, same⟩ | ⟨name, new, -, e, member, -, known⟩)
    · exact ⟨e, member, .inl same⟩
    · exact ⟨e, member, .inr ⟨name, new, known⟩⟩

theorem Holds.call_went (holds : l.Holds entries) (consistent : l.Consistent) (c : Call α) :
    l.Went c (l.call c) (c.addition? entries) := by
  cases c with
  | insert id a aliases =>
    simp only [call, Call.addition?, holds.clash_iff consistent]
    rcases l.insert_cases id a aliases with ⟨taken, why, refused⟩ | ⟨l', inserted, inserts⟩
    · rw [refused, if_pos taken]
      exact .kept fun _ _ _ => rfl
    · rw [inserted, if_neg]
      · exact .entered inserts
      · have unbound (name : Uuid) (new : name ∈ aliases) : ¬ (l.resolve? name).isSome := by
          rw [inserts.unbound name new]
          exact nofun
        simpa [inserts.free] using unbound
  | transition id missing change =>
    simp only [call, Call.addition?, transition]
    cases found : l.find? id with
    | none =>
      refine .kept fun x a here => if_neg ?_
      rintro rfl
      cases found.symm.trans here
    | some a =>
      rcases answer : change a with ⟨⟨why⟩ | ⟨b⟩, a'⟩ <;> dsimp only <;> rw [answer]
      · apply Went.kept
        intro x a₁ here
        by_cases same : id = x
        · subst x
          cases found.symm.trans here
          simp only [Call.revise, if_true, answer]
        · exact if_neg same
      · exact .changed found answer
  | read | resolve | ids | size => exact .kept fun _ _ _ => rfl

namespace Holds

theorem empty : (empty : Ledger α).Holds [] := by
  refine ⟨rfl, List.nodup_nil, fun name id => ?_⟩
  rw [resolve_eq_ok_iff]
  exact iff_of_false nofun (by simp)

theorem insert (holds : l.Holds entries) (consistent : l.Consistent)
    (inserts : l.Inserts l' id a aliases) : l'.Holds (entries ++ [⟨id, a, aliases⟩]) := by
  constructor
  case ids =>
    rw [inserts.ids, holds.ids, List.map_append]
    rfl
  case once => exact (consistent.insert inserts).once
  case resolves =>
    intro name x
    have before := holds.resolves name x
    rw [resolve_eq_ok_iff] at before ⊢
    rw [inserts.resolve?]
    by_cases new : name ∈ aliases
    · -- An id that comes with the record was free, so that no other record has it.
      rw [inserts.unbound name new] at before
      have none : ¬ ∃ e ∈ entries, e.id = x ∧ name ∈ e.aliases := before.not.mp nofun
      simp [new, or_and_right, exists_or, none]
    · simp [new, or_and_right, exists_or, before]

theorem set (holds : l.Holds entries) (id : Uuid) (a : α) : (l.set id a).Holds entries :=
  ⟨holds.ids, holds.once, holds.resolves⟩

theorem revise (holds : l.Holds entries) (c : Call α) :
    l.Holds (entries.map fun e => { e with record := c.revise e.id e.record }) := by
  constructor
  case ids => rw [holds.ids, List.map_map, Function.comp_def]
  case once => exact holds.once
  case resolves =>
    intro name id
    rw [holds.resolves]
    simp only [List.mem_map, exists_exists_and_eq_and]

end Holds

/-- Each entry is stored as it stands. With the order in agreement, this settles all answers. -/
structure Keeps (l : Ledger α) (entries : List (Entry α)) : Prop where
  holds : l.Holds entries
  consistent : l.Consistent
  stored : ∀ e ∈ entries, l.find? e.id = some e.record

namespace Keeps

theorem empty : (empty : Ledger α).Keeps [] := ⟨.empty, .empty, nofun⟩

theorem find?_call (keeps : l.Keeps entries) (found : l.find? id = some a) (c : Call α) :
    (l.call c).find? id = some (c.revise id a) := by
  have went := keeps.holds.call_went keeps.consistent c
  generalize l.call c = l', c.addition? entries = entry at went
  cases went with
  | @entered x _ _ _ inserts =>
    have other : id ≠ x := by
      rintro rfl
      cases found.symm.trans inserts.free
    rwa [inserts.find?, if_neg other]
  | @changed _ _ x _ change b b' _ found' accepted =>
    rw [find?_set]
    by_cases here : id = x
    · subst here
      obtain rfl : a = b := Option.some.inj (found.symm.trans found')
      simp [Call.revise, accepted, found]
    · rw [if_neg here, Call.revise, if_neg (Ne.symm here)]
      exact found
  | kept same => rwa [same id a found]

theorem call (keeps : l.Keeps entries) (c : Call α) : (l.call c).Keeps (c.amend entries) := by
  have revised : ∀ e ∈ entries.map fun e => { e with record := c.revise e.id e.record },
      (l.call c).find? e.id = some e.record := by
    intro e member
    obtain ⟨e, before, rfl⟩ := List.mem_map.mp member
    exact keeps.find?_call (keeps.stored e before) c
  have holds := keeps.holds.revise c
  have went := keeps.holds.call_went keeps.consistent c
  unfold Call.amend
  generalize l.call c = l', c.addition? entries = entry at went revised
  cases went with
  | @entered id a aliases _ inserts =>
    refine ⟨holds.insert keeps.consistent inserts, keeps.consistent.insert inserts, fun e member => ?_⟩
    rcases List.mem_append.mp member with old | new
    · exact revised e old
    · rw [List.mem_singleton.mp new, inserts.find?, if_pos rfl]
  | changed =>
    rw [Option.toList_none, List.append_nil]
    exact ⟨holds.set _ _, keeps.consistent.set _ _, revised⟩
  | kept =>
    rw [Option.toList_none, List.append_nil]
    exact ⟨holds, keeps.consistent, revised⟩

theorem after (keeps : l.Keeps entries) (calls : List (Call α)) :
    (l.afterCalls calls).Keeps (calls.foldl Call.amend entries) := by
  induction calls generalizing l entries with
  | nil => exact keeps
  | cons c calls ih => exact ih (keeps.call c)

theorem shows (keeps : l.Keeps entries) : l.Shows entries := by
  obtain ⟨holds, consistent, stored⟩ := keeps
  constructor
  case toHolds => exact holds
  case consistent => exact consistent
  case size => rw [consistent.size, holds.ids, List.length_map]
  case reads =>
    intro id a
    rw [read_eq_ok_iff]
    constructor
    · intro found
      have known : id ∈ l.ids := consistent.mem_ids_iff.mpr (found ▸ rfl)
      rw [holds.ids] at known
      obtain ⟨e, member, rfl⟩ := List.mem_map.mp known
      exact ⟨e, member, rfl, Option.some.inj ((stored e member).symm.trans found)⟩
    · rintro ⟨e, member, rfl, rfl⟩
      exact stored e member
  case unread =>
    intro id unknown
    rw [read_eq, consistent.find?_eq_none_iff.mpr unknown]
    rfl
  case unresolved =>
    intro name unknown
    cases bound : l.resolve? name with
    | none =>
      rw [resolve_eq, bound]
      rfl
    | some id =>
      obtain ⟨e, member, -, has⟩ := (holds.resolves name id).mp (resolve_eq_ok_iff.mpr bound)
      exact absurd has (unknown e member)

theorem ids_call (keeps : l.Keeps entries) (c : Call α) : ∃ more, (l.call c).ids = l.ids ++ more := by
  have went := keeps.holds.call_went keeps.consistent c
  generalize l.call c = l', c.addition? entries = entry at went
  cases went with
  | entered inserts => exact ⟨_, inserts.ids⟩
  | changed | kept => exact ⟨[], (List.append_nil _).symm⟩

theorem resolve?_call (keeps : l.Keeps entries) (bound : l.resolve? name = some id) (c : Call α) :
    (l.call c).resolve? name = some id := by
  have went := keeps.holds.call_went keeps.consistent c
  generalize l.call c = l', c.addition? entries = entry at went
  cases went with
  | entered inserts =>
    rw [inserts.resolve?, if_neg]
    · exact bound
    · intro new
      cases (inserts.unbound name new).symm.trans bound
  | changed | kept => exact bound

theorem ids_afterCalls (keeps : l.Keeps entries) (calls : List (Call α)) :
    ∃ more, (l.afterCalls calls).ids = l.ids ++ more := by
  induction calls generalizing l entries with
  | nil => exact ⟨[], (List.append_nil _).symm⟩
  | cons c calls ih =>
    obtain ⟨first, called⟩ := keeps.ids_call c
    obtain ⟨rest, later⟩ := ih (keeps.call c)
    refine ⟨first ++ rest, later.trans ?_⟩
    rw [called, List.append_assoc]

theorem resolve?_afterCalls (keeps : l.Keeps entries) (bound : l.resolve? name = some id)
    (calls : List (Call α)) : (l.afterCalls calls).resolve? name = some id := by
  induction calls generalizing l entries with
  | nil => exact bound
  | cons c calls ih => exact ih (keeps.call c) (keeps.resolve?_call bound c)

theorem find?_afterCalls (keeps : l.Keeps entries) (found : l.find? id = some a)
    (calls : List (Call α)) :
    (l.afterCalls calls).find? id = some (calls.foldl (Call.revise id) a) := by
  induction calls generalizing l entries a with
  | nil => exact found
  | cons c calls ih => exact ih (keeps.call c) (keeps.find?_call found c)

end Keeps

/-- After any calls a ledger shows what was entered, each record as the accepted changes made it, and no
more. A record is entered unless its id or one of its further ids is taken, a refused call changes
nothing, and an accepted change concerns one record. Whatever calls follow, the ids keep their places,
further ids lead where they did, and a record is what the accepted changes made of it. -/
theorem append_only_after (calls : List (Call α)) :
    let l := (empty : Ledger α).afterCalls calls
    l.Shows (Call.journal calls) ∧ l.size = l.ids.length ∧
      (∀ id a aliases, l.Enters id a aliases) ∧
      (∀ (ε β : Type) id (missing : LedgerError → ε) (change : α → Except ε β × α),
        l.Revises id missing change) ∧
      ∀ later,
        (∃ more, (l.afterCalls later).ids = l.ids ++ more) ∧
        (∀ name id, l.resolve name = .ok id → (l.afterCalls later).resolve name = .ok id) ∧
        ∀ id ∈ l.ids, ∃ a, l.read id = .ok a ∧
          (l.afterCalls later).read id = .ok (later.foldl (Call.revise id) a) := by
  intro l
  have keeps : l.Keeps (Call.journal calls) := Keeps.empty.after calls
  have consistent := keeps.consistent
  refine ⟨keeps.shows, consistent.size, consistent.enters, fun _ _ => consistent.revises,
    fun later => ⟨keeps.ids_afterCalls later, fun name id => ?_, fun id known => ?_⟩⟩
  · rw [resolve_eq_ok_iff, resolve_eq_ok_iff]
    exact fun bound => keeps.resolve?_afterCalls bound later
  · obtain ⟨a, found⟩ := Option.isSome_iff_exists.mp (consistent.mem_ids_iff.mp known)
    refine ⟨a, read_eq_ok_iff.mpr found, ?_⟩
    rw [read_eq_ok_iff]
    exact keeps.find?_afterCalls found later

/-- Ids may be repeated in one call, and a further id may be the id of a record. The second record is
refused for an id of the first, and the second change is refused by itself. -/
example :
    let add (key n : Nat) (aliases : List Nat) : Call Nat := .insert (.ofNat key) n (aliases.map .ofNat)
    let grow (key n : Nat) : Call Nat := .transition (.ofNat key) (fun why => why) fun a =>
      (if a < n then .ok (a + n) else .error (LedgerError.missing .nil), a + n)
    let l := (empty : Ledger Nat).afterCalls
      [add 1 10 [2, 3, 2], add 4 20 [5, 3], grow 1 50, add 2 30 [4], grow 1 50, grow 4 50]
    l.ids = [.ofNat 1, .ofNat 2] ∧ l.size = 2 ∧ (l.read (.ofNat 1)).toOption = some 60 ∧
      (l.read (.ofNat 4)).toOption = none ∧ (l.resolve (.ofNat 2)).toOption = some (.ofNat 1) ∧
      (l.resolve (.ofNat 4)).toOption = some (.ofNat 2) ∧ (l.resolve (.ofNat 5)).toOption = none := by
  decide +kernel

end Ledger

end Orchestration
