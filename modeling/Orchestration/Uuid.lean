import Orchestration.Text.Hexadecimal

namespace Orchestration

open Text

structure Uuid where
  value : Nat
  bound : value < 340282366920938463463374607431768211456
deriving DecidableEq

namespace Uuid

instance : Inhabited Uuid := ⟨⟨0, by decide⟩⟩

def nil : Uuid := default

def ofNat (n : Nat) : Uuid :=
  ⟨n % 340282366920938463463374607431768211456, Nat.mod_lt _ (by decide)⟩

/-- The identifier made of 122 random bits: version 4, variant 1. -/
def ofRandom (n : Nat) : Uuid :=
  ofNat ((n >>> 74) <<< 80 ||| 4 <<< 76 ||| ((n >>> 62) % 4096) <<< 64 ||| 2 <<< 62 |||
    n % 4611686018427387904)

def hyphenate (cs : List Char) : List Char :=
  cs.take 8 ++ '-' :: (cs.drop 8).take 4 ++ '-' :: (cs.drop 12).take 4 ++
    '-' :: (cs.drop 16).take 4 ++ '-' :: cs.drop 20

def chars (u : Uuid) : List Char := hyphenate (hexDigits 32 u.value)

def text (u : Uuid) : String := String.ofList u.chars

def ofSimple? (cs : List Char) : Option Uuid :=
  if cs.length = 32 then (ofHex? cs).map ofNat else none

def ofHyphenated? (cs : List Char) : Option Uuid :=
  let bare := cs.take 8 ++ (cs.drop 9).take 4 ++ (cs.drop 14).take 4 ++
    (cs.drop 19).take 4 ++ cs.drop 24
  if hyphenate bare = cs then ofSimple? bare else none

def ofChars? (cs : List Char) : Option Uuid :=
  match cs with
  | '{' :: r =>
    if r.getLast? = some '}' then ofHyphenated? r.dropLast else none
  | _ =>
    if (cs.take 9).map Char.toLower = "urn:uuid:".toList then ofHyphenated? (cs.drop 9)
    else if cs.length = 32 then ofSimple? cs
    else ofHyphenated? cs

def ofText? (s : String) : Option Uuid := ofChars? s.toList

end Uuid

end Orchestration
