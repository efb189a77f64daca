import Orchestration.Scientific

namespace Orchestration

inductive Json where
  | null
  | bool (b : Bool)
  /-- A whole number that 64 bits hold, with a sign or without. -/
  | int (n : Int)
  | number (n : Scientific)
  | string (s : String)
  | array (items : List Json)
  | object (members : List (String × Json))
  /-- Text that is well formed and stands for no value: half of a surrogate pair, or a number that
  is too large. -/
  | unreadable
deriving Inhabited

namespace Json

def isWord (n : Int) : Bool := -9223372036854775808 ≤ n && n ≤ 18446744073709551615

def ofString (s : String) : Json := .string s

def ofStrings (ss : List String) : Json := .array (ss.map .string)

def ofNat (n : Nat) : Json := .int n

def ofOption (f : α → Json) : Option α → Json
  | none => .null
  | some a => f a

def member? (key : String) : Json → Option Json
  | .object ms => ms.lookup key
  | _ => none

def string? : Json → Option String
  | .string s => some s
  | _ => none

def natural? : Json → Option Nat
  | .int n => if 0 ≤ n ∧ n ≤ 18446744073709551615 then some n.toNat else none
  | _ => none

def members? : Json → Option (List (String × Json))
  | .object ms => some ms
  | _ => none

/-- The members, sorted by their keys, with `key` set to `v`. -/
def setMember (key : String) (v : Json) : List (String × Json) → List (String × Json)
  | [] => [(key, v)]
  | (k, w) :: ms =>
    if key < k then (key, v) :: (k, w) :: ms
    else if k = key then (key, v) :: ms
    else (k, w) :: setMember key v ms

def setMembers (ms extra : List (String × Json)) : List (String × Json) :=
  extra.foldl (fun acc kv => setMember kv.1 kv.2 acc) ms

/-- The object with these members. Of members with one key the last counts. -/
def ofMembers (ms : List (String × Json)) : Json := .object (setMembers [] ms)

end Json

end Orchestration
