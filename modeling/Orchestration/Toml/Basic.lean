import Orchestration.Entries

namespace Orchestration

/-- What brought a table about. -/
inductive Toml.Origin where
  | header
  | path
  | dotted
  | inline
deriving DecidableEq

/-- Of fractional numbers and of dates and times only the kind is kept. -/
inductive Toml where
  | string (s : String)
  | integer (n : Int)
  | fraction
  | boolean (b : Bool)
  | moment
  | array (items : List Toml)
  | table (origin : Toml.Origin) (entries : List (String × Toml))
  | tables (items : List (List (String × Toml)))

namespace Toml

abbrev Entries := List (String × Toml)

structure Key where
  parents : List String
  name : String

namespace Key

def path (k : Key) : List String := k.parents ++ [k.name]

end Key

inductive Line where
  | table (key : Key)
  /-- A header in double brackets: one more table of an array. -/
  | element (key : Key)
  | assign (key : Key) (value : Toml)

/-- Whether a path may lead through a table. Dotted keys add to no table that has a header. -/
def Origin.admits (origin : Origin) (dotted : Bool) : Bool :=
  match origin with
  | .header => !dotted
  | .path | .dotted => true
  | .inline => false

/-- Changes the entries at the end of a path from a table with the entries `es`. Of an array of
tables the path takes the last one, and tables that are not there come about on the way. -/
def alter? (dotted : Bool) (change : Origin → Entries → Option Entries) :
    List String → Origin → Entries → Option Entries
  | [], origin, es => change origin es
  | key :: path, _, es =>
    match es.lookup key with
    | none =>
      let origin := if dotted then .dotted else .path
      (alter? dotted change path origin []).map fun inner => put key (.table origin inner) es
    | some (.table origin inner) =>
      if origin.admits dotted then
        (alter? dotted change path origin inner).map fun inner => put key (.table origin inner) es
      else none
    | some (.tables items) =>
      match items.getLast? with
      | none => none
      | some inner =>
        (alter? dotted change path .header inner).map fun inner =>
          put key (.tables (items.dropLast ++ [inner])) es
    | some _ => none

/-- Gives `key` its value in the section with the entries `es`. Each key has one value, and the
table that a dotted key leads to has only entries of such keys. -/
def assign? (key : Key) (v : Toml) (origin : Origin) (es : Entries) : Option Entries :=
  let add (origin : Origin) (es : Entries) : Option Entries :=
    if (key.parents = [] ∨ origin = .dotted) ∧ es.lookup key.name = none then
      some (put key.name v es)
    else none
  alter? true add key.parents origin es

def declareTable? (name : String) (es : Entries) : Option Entries :=
  match es.lookup name with
  | none => some (put name (.table .header []) es)
  | some (.table .path inner) => some (put name (.table .header inner) es)
  | some _ => none

def declareElement? (name : String) (es : Entries) : Option Entries :=
  match es.lookup name with
  | none => some (put name (.tables [[]]) es)
  | some (.tables items) => some (put name (.tables (items ++ [[]])) es)
  | some _ => none

structure Document where
  entries : Entries
  heading : List String

namespace Document

def add? (d : Document) : Line → Option Document
  | .table key => do
    let es ← alter? false (fun _ => declareTable? key.name) key.parents .header d.entries
    some ⟨es, key.path⟩
  | .element key => do
    let es ← alter? false (fun _ => declareElement? key.name) key.parents .header d.entries
    some ⟨es, key.path⟩
  | .assign key v => do
    let es ← alter? false (assign? key v) d.heading .header d.entries
    some ⟨es, d.heading⟩

end Document

def ofLines? (lines : List Line) : Option Toml :=
  (lines.foldlM Document.add? ⟨[], []⟩).map fun d => .table .header d.entries

def ofPairs? (pairs : List (Key × Toml)) : Option Toml :=
  (pairs.foldlM (fun es (key, v) => assign? key v .inline es) []).map (.table .inline)

end Toml

end Orchestration
