import Orchestration.Toml.Reader

namespace Orchestration.Toml

open Text

structure Word where
  text : String
  bare : text.toList ≠ [] ∧ text.toList.all isBare = true

inductive Datum where
  | number (n : UInt64)
  | word (w : Word)

structure Section where
  name : Word
  data : List (Word × Datum)
  distinct : (data.map (·.1.text)).Nodup

structure Sheet where
  sections : List Section
  distinct : (sections.map (·.name.text)).Nodup

/-- Whole numbers are written with a sign and 64 bits. -/
def Datum.write? : Datum → Option (List Char)
  | .number n => if n.toNat ≤ 9223372036854775807 then some (digits n.toNat) else none
  | .word w => some ('"' :: w.text.toList ++ ['"'])

def writeLines? : List (Word × Datum) → Option (List Char)
  | [] => some []
  | (name, d) :: data => do
    let value ← d.write?
    let rest ← writeLines? data
    some (name.text.toList ++ ' ' :: '=' :: ' ' :: (value ++ '\n' :: rest))

def Section.write? (s : Section) : Option (List Char) :=
  (writeLines? s.data).map fun lines => '[' :: (s.name.text.toList ++ ']' :: '\n' :: lines)

def writeSections? : List Section → Option (List Char)
  | [] => some []
  | [s] => s.write?
  | s :: sections => do
    let first ← s.write?
    let rest ← writeSections? sections
    some (first ++ '\n' :: rest)

def Sheet.write? (s : Sheet) : Option String := (writeSections? s.sections).map String.ofList

end Orchestration.Toml
