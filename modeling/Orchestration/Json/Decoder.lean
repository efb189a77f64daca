import Orchestration.Json.Reader

namespace Orchestration

/-- Reads a value of which `room` levels of nesting are left. -/
abbrev Decoder (α : Type) := Nat → Json → Option α

namespace Decoder

def bool : Decoder Bool
  | _, .bool b => some b
  | _, _ => none

def string : Decoder String
  | _, .string s => some s
  | _, _ => none

def natural (bound : Nat) : Decoder Nat
  | _, .int n => if 0 ≤ n ∧ n < bound then some n.toNat else none
  | _, _ => none

def uint32 : Decoder UInt32 := fun room j => (natural 4294967296 room j).map UInt32.ofNat

def uint64 : Decoder UInt64 := fun room j => (natural 18446744073709551616 room j).map UInt64.ofNat

def nullable (d : Decoder α) : Decoder (Option α)
  | _, .null => some none
  | room, j => (d room j).map some

def list (d : Decoder α) : Decoder (List α)
  | room + 1, .array items => items.mapM (d room)
  | _, _ => none

/-- One of a list of names. The form with the name as the key of `null` is read too. -/
def choice (table : List (String × α)) : Decoder α
  | _, .string s => table.lookup s
  | _ + 1, .object [(s, .null)] => table.lookup s
  | _, _ => none

mutual

def json (room : Nat) (j : Json) : Option Json :=
  match room, j with
  | _, .unreadable => none
  | 0, .array _ => none
  | 0, .object _ => none
  | room + 1, .array items => (jsonElements room items).map .array
  | room + 1, .object ms => (jsonMembers room [] ms).map .object
  | _, .null => some .null
  | _, .bool b => some (.bool b)
  | _, .int n => some (.int n)
  | _, .number n => some (.number n)
  | _, .string s => some (.string s)

def jsonElements (room : Nat) : List Json → Option (List Json)
  | [] => some []
  | v :: vs => do
    let v ← json room v
    let vs ← jsonElements room vs
    some (v :: vs)

def jsonMembers (room : Nat) (seen : List (String × Json)) :
    List (String × Json) → Option (List (String × Json))
  | [] => some seen
  | (k, v) :: ms => do
    let v ← json room v
    jsonMembers room (Json.setMember k v seen) ms

end

end Decoder

/-- A field of a record. One that is `omittable` may be left off the end of the array form. -/
structure Field where
  name : String
  aliases : List String
  omittable : Bool

structure Fields where
  room : Nat
  found : List (String × Json)

namespace Fields

def nameOf? (schema : List Field) (key : String) : Option String :=
  (schema.find? fun f => f.name == key || f.aliases.contains key).map (·.name)

def ofMembers? (schema : List Field) (found : List (String × Json)) :
    List (String × Json) → Option (List (String × Json))
  | [] => some found
  | (k, v) :: ms =>
    match nameOf? schema k with
    | none => ofMembers? schema found ms
    | some name =>
      if found.any (·.1 == name) then none else ofMembers? schema (found ++ [(name, v)]) ms

def ofItems? : List Field → List Json → Option (List (String × Json))
  | _ :: _, [] => none
  | [], _ :: _ => none
  | [], [] => some []
  | f :: fs, v :: vs => (ofItems? fs vs).map ((f.name, v) :: ·)

/-- The array form. All fields after the last one given have to be omittable. -/
def ofArray? (schema : List Field) (items : List Json) : Option (List (String × Json)) :=
  if (schema.drop items.length).all (·.omittable) then
    ofItems? (schema.take items.length) items
  else none

def read (schema : List Field) (room : Nat) (j : Json) : Option Fields :=
  match room, j with
  | room + 1, .object ms => (ofMembers? schema [] ms).map (⟨room, ·⟩)
  | room + 1, .array items => (ofArray? schema items).map (⟨room, ·⟩)
  | _, _ => none

def required (f : Fields) (name : String) (d : Decoder α) : Option α :=
  match f.found.lookup name with
  | some j => d f.room j
  | none => none

def optional (f : Fields) (name : String) (d : Decoder α) : Option (Option α) :=
  match f.found.lookup name with
  | some j => Decoder.nullable d f.room j
  | none => some none

def orElse (f : Fields) (name : String) (d : Decoder α) (a : α) : Option α :=
  match f.found.lookup name with
  | some j => d f.room j
  | none => some a

end Fields

def Json.textDepth : Nat := 127

def Decoder.ofText? (d : Decoder α) (s : String) : Option α :=
  (Json.ofText? s).bind (d Json.textDepth)

end Orchestration
