import Orchestration.Entries
import Orchestration.Refusal

namespace Orchestration

/-- Records under ids. Each may be found under further ids as well. Nothing is ever removed, and a change
to a record is made whole or not at all. -/
structure Ledger (α : Type) where
  records : List (Uuid × α)
  /-- Further ids, with the ids of the records that they lead to. -/
  aliases : List (Uuid × Uuid)
  /-- The ids of the records, in the order in which they were entered. -/
  order : List Uuid

namespace Ledger

def empty : Ledger α := ⟨[], [], []⟩

def keys (l : Ledger α) : List Uuid := l.records.map (·.1)

def ids (l : Ledger α) : List Uuid := l.order

def size (l : Ledger α) : Nat := l.records.length

def find? (l : Ledger α) (id : Uuid) : Option α := l.records.lookup id

def resolve? (l : Ledger α) (name : Uuid) : Option Uuid := l.aliases.lookup name

def read (l : Ledger α) (id : Uuid) : Except LedgerError α :=
  match l.find? id with
  | some a => .ok a
  | none => .error (.missing id)

def resolve (l : Ledger α) (name : Uuid) : Except LedgerError Uuid :=
  match l.resolve? name with
  | some id => .ok id
  | none => .error (.missing name)

def select (l : Ledger α) (ids : List Uuid) : List (Uuid × α) :=
  ids.filterMap fun id => (l.find? id).map (id, ·)

def entries (l : Ledger α) : List (Uuid × α) := l.select l.ids

def bind (id : Uuid) (l : Ledger α) (name : Uuid) : Ledger α :=
  { l with aliases := put name id l.aliases }

def store (l : Ledger α) (id : Uuid) (a : α) : Ledger α := { l with records := put id a l.records }

def enlist (l : Ledger α) (id : Uuid) : Ledger α := { l with order := l.order ++ [id] }

/-- Enters a record. Neither its id nor one of its further ids may be taken. -/
def insert (l : Ledger α) (id : Uuid) (a : α) (aliases : List Uuid) :
    Except LedgerError Unit × Ledger α :=
  if (l.find? id).isSome then (.error (.taken id), l)
  else match aliases.find? fun name => (l.resolve? name).isSome with
    | some name => (.error (.taken name), l)
    | none =>
      let l := aliases.foldl (bind id) l
      let l := l.store id a
      (.ok (), l.enlist id)

def set (l : Ledger α) (id : Uuid) (a : α) : Ledger α :=
  { l with records := l.records.map fun entry => if entry.1 = id then (id, a) else entry }

/-- Changes the record under `id`. If the change is refused, the record stays as it was. -/
def transition (l : Ledger α) (id : Uuid) (missing : LedgerError → ε)
    (change : α → Except ε β × α) : Except ε β × Ledger α :=
  match l.find? id with
  | none => (.error (missing (.missing id)), l)
  | some a =>
    match change a with
    | (.ok b, a) => (.ok b, l.set id a)
    | (.error e, _) => (.error e, l)

end Ledger

end Orchestration
