import Orchestration.Json.Basic
import Orchestration.Json.Magnitude
import Orchestration.Text.Escape
import Orchestration.Text.Hexadecimal

namespace Orchestration.Json

open Orchestration.Text

def isSpace (c : Char) : Bool := c == ' ' || c == '\n' || c == '\r' || c == '\t'

def skipSpace (cs : List Char) : List Char := cs.dropWhile isSpace

def hexUnit? (a b c d : Char) : Option Nat := ofHex? [a, b, c, d]

/-- The code points and escaped 16-bit units up to the closing quote, and what follows it. -/
def readUnits? : List Char → Option (List Nat × List Char)
  | [] => none
  | '"' :: r => some ([], r)
  | '\\' :: 'u' :: a :: b :: c :: d :: r => do
    let u ← hexUnit? a b c d
    let (us, r) ← readUnits? r
    some (u :: us, r)
  | '\\' :: c :: r => do
    let u ← if c = '/' then some c else unescape? c
    let (us, r) ← readUnits? r
    some (u.toNat :: us, r)
  | c :: r =>
    if c.toNat < 32 ∨ c = '\\' then none
    else (readUnits? r).map fun (us, r) => (c.toNat :: us, r)

def isHighSurrogate (u : Nat) : Bool := 0xD800 ≤ u && u ≤ 0xDBFF

def isLowSurrogate (u : Nat) : Bool := 0xDC00 ≤ u && u ≤ 0xDFFF

/-- The characters of a run of units, unless half of a surrogate pair stands alone. -/
def ofUnits? : List Nat → Option (List Char)
  | [] => some []
  | [u] => if isHighSurrogate u || isLowSurrogate u then none else some [Char.ofNat u]
  | u :: v :: r =>
    if isHighSurrogate u then
      if isLowSurrogate v then
        (ofUnits? r).map (Char.ofNat (0x10000 + (u - 0xD800) * 0x400 + (v - 0xDC00)) :: ·)
      else none
    else if isLowSurrogate u then none
    else (ofUnits? (v :: r)).map (Char.ofNat u :: ·)

def readString? (cs : List Char) : Option (Option String × List Char) :=
  (readUnits? cs).map fun (us, r) => ((ofUnits? us).map String.ofList, r)

/-- The number with these digits before and after the point. It is a whole number if there is
neither point nor exponent; minus zero is none. -/
def ofNotation (negative : Bool) (whole : List Char) (places : Option (List Char))
    (exponent : Option Int) : Json :=
  let ds := places.getD []
  let magnitude : Int := ofDigits (whole ++ ds)
  let value := if negative then -magnitude else magnitude
  if places = none ∧ exponent = none ∧ isWord value ∧ ¬(negative ∧ value = 0) then .int value
  else if isTooLarge whole ds (exponent.getD 0) then .unreadable
  else .number ⟨value, exponent.getD 0 - ds.length⟩

def readWhole? (cs : List Char) : Option (List Char × List Char) :=
  match spanDigits cs with
  | ([], _) => none
  | ('0' :: _ :: _, _) => none
  | (ds, r) => some (ds, r)

def readPlaces? : List Char → Option (Option (List Char) × List Char)
  | '.' :: r =>
    match spanDigits r with
    | ([], _) => none
    | (ds, r) => some (some ds, r)
  | r => some (none, r)

def readExponent? : List Char → Option (Option Int × List Char)
  | e :: r =>
    if e = 'e' ∨ e = 'E' then
      let (negative, r) := match r with
        | '-' :: r => (true, r)
        | '+' :: r => (false, r)
        | r => (false, r)
      match spanDigits r with
      | ([], _) => none
      | (ds, r) => some (some (if negative then -(ofDigits ds : Int) else ofDigits ds), r)
    else some (none, e :: r)
  | [] => some (none, [])

def readUnsigned? (negative : Bool) (cs : List Char) : Option (Json × List Char) := do
  let (whole, cs) ← readWhole? cs
  let (places, cs) ← readPlaces? cs
  let (exponent, cs) ← readExponent? cs
  some (ofNotation negative whole places exponent, cs)

def readNumber? : List Char → Option (Json × List Char)
  | '-' :: r => readUnsigned? true r
  | r => readUnsigned? false r

def ofReadMembers (members : List (Option String × Json)) : Json :=
  match members.mapM fun (k, v) => k.map (·, v) with
  | some ms => .object ms
  | none => .unreadable

mutual

/-- A value at the start of the text, and what follows it. `fuel` bounds the nested calls. -/
def readValue? (fuel : Nat) (cs : List Char) : Option (Json × List Char) :=
  match fuel with
  | 0 => none
  | fuel + 1 =>
    match skipSpace cs with
    | 'n' :: 'u' :: 'l' :: 'l' :: r => some (.null, r)
    | 't' :: 'r' :: 'u' :: 'e' :: r => some (.bool true, r)
    | 'f' :: 'a' :: 'l' :: 's' :: 'e' :: r => some (.bool false, r)
    | '"' :: r => (readString? r).map fun (s, r) => (s.elim .unreadable .string, r)
    | '[' :: r =>
      match skipSpace r with
      | ']' :: r => some (.array [], r)
      | r => (readElements? fuel r).map fun (vs, r) => (.array vs, r)
    | '\x7b' :: r =>
      match skipSpace r with
      | '\x7d' :: r => some (.object [], r)
      | r => (readMembers? fuel r).map fun (ms, r) => (ofReadMembers ms, r)
    | r => readNumber? r

def readElements? (fuel : Nat) (cs : List Char) : Option (List Json × List Char) :=
  match fuel with
  | 0 => none
  | fuel + 1 => do
    let (v, cs) ← readValue? fuel cs
    match skipSpace cs with
    | ']' :: r => some ([v], r)
    | ',' :: r => do
      let (vs, r) ← readElements? fuel r
      some (v :: vs, r)
    | _ => none

def readMembers? (fuel : Nat) (cs : List Char) : Option (List (Option String × Json) × List Char) :=
  match fuel with
  | 0 => none
  | fuel + 1 =>
    match skipSpace cs with
    | '"' :: r => do
      let (k, r) ← readString? r
      match skipSpace r with
      | ':' :: r => do
        let (v, r) ← readValue? fuel r
        match skipSpace r with
        | '\x7d' :: r => some ([(k, v)], r)
        | ',' :: r => do
          let (ms, r) ← readMembers? fuel r
          some ((k, v) :: ms, r)
        | _ => none
      | _ => none
    | _ => none

end

def ofChars? (cs : List Char) : Option Json :=
  match readValue? (cs.length + 1) cs with
  | some (v, r) => if skipSpace r = [] then some v else none
  | none => none

def ofText? (s : String) : Option Json := ofChars? s.toList

end Orchestration.Json
