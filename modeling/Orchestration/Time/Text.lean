import Orchestration.Text.Blank
import Orchestration.Text.Decimal
import Orchestration.Time.Calendar
import Orchestration.Time.Timestamp

namespace Orchestration.Timestamp

open Orchestration.Text

def yearChars (y : Int) : List Char :=
  if 0 ≤ y ∧ y ≤ 9999 then padded 4 y.toNat
  else if y < 0 then '-' :: padded 4 y.natAbs
  else '+' :: padded 4 y.natAbs

def fractionChars (nanos : Nat) : List Char :=
  if nanos = 0 then []
  else if nanos % 1000000 = 0 then '.' :: padded 3 (nanos / 1000000)
  else if nanos % 1000 = 0 then '.' :: padded 6 (nanos / 1000)
  else '.' :: padded 9 nanos

def chars (t : Timestamp) : List Char :=
  let seconds := t.nanos / 1000000000
  let date := Date.ofDays (seconds / 86400)
  let ofDay := (seconds % 86400).toNat
  yearChars date.year ++ '-' :: padded 2 date.month ++ '-' :: padded 2 date.day ++
    'T' :: padded 2 (ofDay / 3600) ++ ':' :: padded 2 (ofDay / 60 % 60) ++
    ':' :: padded 2 (ofDay % 60 + if t.leap then 1 else 0) ++
    fractionChars (t.nanos % 1000000000).toNat ++ ['Z']

def text (t : Timestamp) : String := String.ofList t.chars

def readNumber? (most : Nat) (cs : List Char) : Option (Nat × List Char) :=
  let ds := (cs.take most).takeWhile isDigit
  if ds = [] then none else some (ofDigits ds, cs.drop ds.length)

def readYear? (cs : List Char) : Option (Int × List Char) :=
  match dropBlank cs with
  | '-' :: r => (readNumber? r.length r).map fun (n, r) => (-(n : Int), r)
  | '+' :: r => (readNumber? r.length r).map fun (n, r) => ((n : Int), r)
  | r => (readNumber? 4 r).map fun (n, r) => ((n : Int), r)

def readField? (cs : List Char) : Option (Nat × List Char) := readNumber? 2 (dropBlank cs)

def readMark? (mark : Char) (cs : List Char) : Option (List Char) :=
  match dropBlank cs with
  | c :: r => if c = mark then some r else none
  | [] => none

def readDate? (cs : List Char) : Option (Date × List Char) := do
  let (year, cs) ← readYear? cs
  let cs ← readMark? '-' cs
  let (month, cs) ← readField? cs
  let cs ← readMark? '-' cs
  let (day, cs) ← readField? cs
  some (⟨year, month, day⟩, cs)

def readJoin? : List Char → Option (List Char)
  | 'T' :: r | 't' :: r | ' ' :: r => some r
  | _ => none

/-- A fraction in nanoseconds; digits after the ninth are dropped. -/
def readFraction? : List Char → Option (Nat × List Char)
  | '.' :: r =>
    let (ds, r) := spanDigits r
    if ds = [] then none
    else
      let kept := ds.take 9
      some (ofDigits kept * Nat.pow 10 (9 - kept.length), r)
  | r => some (0, r)

structure TimeOfDay where
  hour : Nat
  minute : Nat
  second : Nat
  nanos : Nat

def readTime? (cs : List Char) : Option (TimeOfDay × List Char) := do
  let (hour, cs) ← readField? cs
  let cs ← readMark? ':' cs
  let (minute, cs) ← readField? cs
  let cs ← readMark? ':' cs
  let (second, cs) ← readField? cs
  let (nanos, cs) ← readFraction? cs
  some (⟨hour, minute, second, nanos⟩, cs)

def readPair? : List Char → Option (Nat × List Char)
  | a :: b :: r => if isDigit a && isDigit b then some (ofDigits [a, b], r) else none
  | _ => none

def readHours? (cs : List Char) : Option (Int × List Char) := do
  let (hours, cs) ← readPair? cs
  let (minutes, cs) ← readPair? (cs.dropWhile fun c => c == ':' || isBlank c)
  if minutes < 60 then some (hours * 3600 + minutes * 60, cs) else none

/-- The offset from UTC in seconds: `Z`, `UTC`, or a sign, hours and minutes. -/
def readOffset? (cs : List Char) : Option (Int × List Char) :=
  if (cs.take 3).map Char.toUpper = ['U', 'T', 'C'] then some (0, cs.drop 3)
  else match cs with
    | 'Z' :: r | 'z' :: r => some (0, r)
    | '+' :: r => readHours? r
    | '-' :: r | '−' :: r => (readHours? r).map fun (n, r) => (-n, r)
    | _ => none

/-- The instant that a local date and time name, `offset` seconds ahead of UTC. Second 60 is the
leap second after second 59. -/
def ofLocal? (date : Date) (time : TimeOfDay) (offset : Int) : Option Timestamp :=
  if !date.isValid || date.year < -262143 || 262142 < date.year then none
  else if 23 < time.hour || 59 < time.minute || 60 < time.second then none
  else if offset ≤ -86400 || 86400 ≤ offset then none
  else
    let leap := time.second == 60
    let second := if leap then 59 else time.second
    let ofDay : Int := time.hour * 3600 + time.minute * 60 + second
    let seconds := date.toDays * 86400 + ofDay - offset
    match ofNanos? (seconds * 1000000000 + time.nanos) with
    | none => none
    | some t =>
      if h : leap = true → t.nanos / 1000000000 % 60 = 59 then
        some ⟨t.nanos, leap, t.earliest_le, t.le_latest, h⟩
      else none

def ofChars? (cs : List Char) : Option Timestamp := do
  let (date, cs) ← readDate? cs
  let cs ← readJoin? cs
  let (time, cs) ← readTime? cs
  let (offset, cs) ← readOffset? (dropBlank cs)
  if dropBlank cs = [] then ofLocal? date time offset else none

def ofText? (s : String) : Option Timestamp := ofChars? s.toList

end Orchestration.Timestamp
