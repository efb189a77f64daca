import Orchestration.Scientific
import Orchestration.Text.Escape
import Orchestration.Text.Hexadecimal
import Orchestration.Time.Calendar
import Orchestration.Toml.Basic

namespace Orchestration.Toml

open Text

/-- How many containers a value may nest, and how many parts a key may have. -/
def depth : Nat := 79

def isGap (c : Char) : Bool := c == ' ' || c == '\t'

def skipGap (cs : List Char) : List Char := cs.dropWhile isGap

/-- Characters that stand for themselves in comments and strings: no control character of ASCII but
the tab. -/
def isPlain (c : Char) : Bool := c == '\t' || (32 ≤ c.toNat && c.toNat != 127)

def newline? : List Char → Option (List Char)
  | '\n' :: r => some r
  | '\r' :: '\n' :: r => some r
  | _ => none

def skipComment : List Char → List Char
  | '#' :: r => r.dropWhile isPlain
  | r => r

def endOfLine? (cs : List Char) : Option (List Char) :=
  match skipComment (skipGap cs) with
  | [] => some []
  | r => newline? r

def skipSpace? (comment : Bool) : List Char → Option (List Char)
  | [] => if comment then none else some []
  | '\n' :: r => skipSpace? false r
  | '\r' :: '\n' :: r => skipSpace? false r
  | c :: r =>
    if comment then (if isPlain c then skipSpace? true r else none)
    else if isGap c then skipSpace? false r
    else if c = '#' then skipSpace? true r
    else some (c :: r)

def codePoint? (cs : List Char) : Option Char :=
  (ofHex? cs).bind fun n => if n.isValidChar then some (Char.ofNat n) else none

def readQuoted? : List Char → Option (List Char × List Char)
  | [] => none
  | '"' :: r => some ([], r)
  | '\\' :: 'u' :: a :: b :: c :: d :: r => do
    let c ← codePoint? [a, b, c, d]
    let (s, r) ← readQuoted? r
    some (c :: s, r)
  | '\\' :: 'U' :: a :: b :: c :: d :: e :: f :: g :: h :: r => do
    let c ← codePoint? [a, b, c, d, e, f, g, h]
    let (s, r) ← readQuoted? r
    some (c :: s, r)
  | '\\' :: c :: r => do
    let c ← unescape? c
    let (s, r) ← readQuoted? r
    some (c :: s, r)
  | c :: r =>
    if isPlain c && c != '\\' then (readQuoted? r).map fun (s, r) => (c :: s, r) else none

def readLiteral? (cs : List Char) : Option (List Char × List Char) :=
  let s := cs.takeWhile fun c => c != '\'' && isPlain c
  match cs.drop s.length with
  | '\'' :: r => some (s, r)
  | _ => none

/-- After three closing quotes: up to two quotes that were the last of the text. -/
def splitQuotes (quote : Char) (cs : List Char) : List Char × List Char :=
  let s := (cs.take 2).takeWhile (· == quote)
  (s, cs.drop s.length)

/-- A string of several lines after its opening quotes. A backslash at the end of a line joins it to
the next text; `joining` says that this is going on. -/
def readQuotedLines? (joining : Bool) : List Char → Option (List Char × List Char)
  | [] => none
  | '"' :: '"' :: '"' :: r => some (splitQuotes '"' r)
  | '\r' :: '\n' :: r =>
    (readQuotedLines? joining r).map fun (s, r) => (if joining then s else '\n' :: s, r)
  | '\n' :: r =>
    (readQuotedLines? joining r).map fun (s, r) => (if joining then s else '\n' :: s, r)
  | '\\' :: 'u' :: a :: b :: c :: d :: r => do
    let c ← codePoint? [a, b, c, d]
    let (s, r) ← readQuotedLines? false r
    some (c :: s, r)
  | '\\' :: 'U' :: a :: b :: c :: d :: e :: f :: g :: h :: r => do
    let c ← codePoint? [a, b, c, d, e, f, g, h]
    let (s, r) ← readQuotedLines? false r
    some (c :: s, r)
  | '\\' :: c :: r =>
    match unescape? c with
    | some c => (readQuotedLines? false r).map fun (s, r) => (c :: s, r)
    | none =>
      if (newline? (skipGap (c :: r))).isSome then
        readQuotedLines? true (c :: r)
      else none
  | c :: r =>
    if joining && isGap c then readQuotedLines? true r
    else if isPlain c && c != '\\' then
      (readQuotedLines? false r).map fun (s, r) => (c :: s, r)
    else none

def readLiteralLines? : List Char → Option (List Char × List Char)
  | [] => none
  | '\'' :: '\'' :: '\'' :: r => some (splitQuotes '\'' r)
  | '\r' :: '\n' :: r => (readLiteralLines? r).map fun (s, r) => ('\n' :: s, r)
  | '\n' :: r => (readLiteralLines? r).map fun (s, r) => ('\n' :: s, r)
  | c :: r => if isPlain c then (readLiteralLines? r).map fun (s, r) => (c :: s, r) else none

/-- A string of any of the four forms. A line break right after three opening quotes is dropped. -/
def readString? : List Char → Option (List Char × List Char)
  | '"' :: '"' :: '"' :: r => readQuotedLines? false ((newline? r).getD r)
  | '"' :: r => readQuoted? r
  | '\'' :: '\'' :: '\'' :: r => readLiteralLines? ((newline? r).getD r)
  | '\'' :: r => readLiteral? r
  | _ => none

def isBare (c : Char) : Bool := c.isAlphanum || c == '_' || c == '-'

def readName? : List Char → Option (String × List Char)
  | '"' :: r => (readQuoted? r).map fun (s, r) => (String.ofList s, r)
  | '\'' :: r => (readLiteral? r).map fun (s, r) => (String.ofList s, r)
  | cs =>
    match cs.takeWhile isBare with
    | [] => none
    | s => some (String.ofList s, cs.drop s.length)

def readKey? (parts : Nat) (cs : List Char) : Option (Key × List Char) :=
  match parts with
  | 0 => none
  | parts + 1 => do
    let (name, r) ← readName? (skipGap cs)
    match skipGap r with
    | '.' :: r => do
      let (key, r) ← readKey? parts r
      some (⟨name :: key.parents, key.name⟩, r)
    | r => some (⟨[], name⟩, r)

def readDigits? (isDigit : Char → Bool) : List Char → Option (List Char × List Char)
  | [] => none
  | c :: r =>
    if isDigit c then
      match r with
      | '_' :: t => (readDigits? isDigit t).map fun (ds, t) => (c :: ds, t)
      | r =>
        match readDigits? isDigit r with
        | some (ds, t) => some (c :: ds, t)
        | none => some ([c], r)
    else none

def ofInt? (n : Int) : Option Toml :=
  if -9223372036854775808 ≤ n ∧ n ≤ 9223372036854775807 then some (.integer n) else none

def readInBase? (base : Nat) (cs : List Char) : Option (Toml × List Char) := do
  let isDigit (c : Char) : Bool := (hexValue? c).any (· < base)
  let (ds, r) ← readDigits? isDigit cs
  let n := ds.foldl (fun n c => base * n + (hexValue? c).getD 0) 0
  let v ← ofInt? n
  some (v, r)

def readPlaces? : List Char → Option (Option (List Char) × List Char)
  | '.' :: r => (readDigits? isDigit r).map fun (ds, r) => (some ds, r)
  | r => some (none, r)

def readSign : List Char → Bool × List Char
  | '-' :: r => (true, r)
  | '+' :: r => (false, r)
  | r => (false, r)

def readExponent? : List Char → Option (Option Int × List Char)
  | e :: r =>
    if e = 'e' ∨ e = 'E' then do
      let (negative, r) := readSign r
      let (ds, r) ← readDigits? isDigit r
      some (some (if negative then -(ofDigits ds : Int) else ofDigits ds), r)
    else some (none, e :: r)
  | [] => some (none, [])

/-- A decimal number after its sign. One without point and exponent is whole; of the others, those
above the greatest double are refused. -/
def readUnsigned? (negative : Bool) : List Char → Option (Toml × List Char)
  | 'i' :: 'n' :: 'f' :: r => some (.fraction, r)
  | 'n' :: 'a' :: 'n' :: r => some (.fraction, r)
  | cs => do
    let (whole, r) ← readDigits? isDigit cs
    if whole.head? = some '0' ∧ whole.length ≠ 1 then none
    else
      let (places, r) ← readPlaces? r
      let (exponent, r) ← readExponent? r
      match places, exponent with
      | none, none => do
        let v ← ofInt? (if negative then -(ofDigits whole : Int) else ofDigits whole)
        some (v, r)
      | _, _ =>
        let places := places.getD []
        let n : Scientific := ⟨ofDigits (whole ++ places), exponent.getD 0 - places.length⟩
        if n.isHuge && !negative then none else some (.fraction, r)

def readNumber? : List Char → Option (Toml × List Char)
  | '0' :: 'x' :: r => readInBase? 16 r
  | '0' :: 'o' :: r => readInBase? 8 r
  | '0' :: 'b' :: r => readInBase? 2 r
  | cs => let (negative, r) := readSign cs; readUnsigned? negative r

def readFixed? (count : Nat) (cs : List Char) : Option (Nat × List Char) :=
  let ds := cs.take count
  if ds.length = count ∧ ds.all isDigit then some (ofDigits ds, cs.drop count) else none

def skipDate? (cs : List Char) : Option (List Char) := do
  let (year, r) ← readFixed? 4 cs
  match r with
  | '-' :: r =>
    let (month, r) ← readFixed? 2 r
    match r with
    | '-' :: r =>
      let (day, r) ← readFixed? 2 r
      if (Date.mk year month day).isValid then some r else none
    | _ => none
  | _ => none

def skipMinutes? (cs : List Char) : Option (List Char) := do
  let (hour, r) ← readFixed? 2 cs
  match r with
  | ':' :: r =>
    let (minute, r) ← readFixed? 2 r
    if hour ≤ 23 ∧ minute ≤ 59 then some r else none
  | _ => none

def skipTime? (cs : List Char) : Option (List Char) := do
  match ← skipMinutes? cs with
  | ':' :: r =>
    let (second, r) ← readFixed? 2 r
    if second ≤ 60 then
      match r with
      | '.' :: d :: t => some (if isDigit d then t.dropWhile isDigit else r)
      | _ => some r
    else none
  | _ => none

def skipOffset : List Char → List Char
  | c :: r =>
    if c = 'Z' ∨ c = 'z' then r
    else if c = '+' ∨ c = '-' then (skipMinutes? r).getD (c :: r)
    else c :: r
  | [] => []

def skipMoment? (cs : List Char) : Option (List Char) :=
  match skipDate? cs with
  | none => skipTime? cs
  | some r =>
    match r with
    | c :: t =>
      if c = 'T' ∨ c = 't' ∨ c = ' ' then some (((skipTime? t).map skipOffset).getD r) else some r
    | [] => some r

def readScalar? (cs : List Char) : Option (Toml × List Char) :=
  match cs with
  | 't' :: 'r' :: 'u' :: 'e' :: r => some (.boolean true, r)
  | 'f' :: 'a' :: 'l' :: 's' :: 'e' :: r => some (.boolean false, r)
  | c :: _ =>
    if c = '"' ∨ c = '\'' then (readString? cs).map fun (s, r) => (.string (String.ofList s), r)
    else
      match skipMoment? cs with
      | some r => some (.moment, r)
      | none => readNumber? cs
  | [] => none

mutual

def readValue? (room fuel : Nat) (cs : List Char) : Option (Toml × List Char) :=
  match fuel with
  | 0 => none
  | fuel + 1 =>
    match cs with
    | '[' :: r =>
      match room with
      | 0 => none
      | room + 1 => (readItems? room fuel r).map fun (vs, r) => (.array vs, r)
    | '\x7b' :: r =>
      match room with
      | 0 => none
      | room + 1 =>
        match skipGap r with
        | '\x7d' :: r => some (.table .inline [], r)
        | r => do
          let (pairs, r) ← readPairs? room fuel r
          let v ← ofPairs? pairs
          some (v, r)
    | cs => readScalar? cs

def readItems? (room fuel : Nat) (cs : List Char) : Option (List Toml × List Char) :=
  match fuel with
  | 0 => none
  | fuel + 1 => do
    match ← skipSpace? false cs with
    | ']' :: r => some ([], r)
    | r => do
      let (v, r) ← readValue? room fuel r
      match ← skipSpace? false r with
      | ']' :: r => some ([v], r)
      | ',' :: r => do
        let (vs, r) ← readItems? room fuel r
        some (v :: vs, r)
      | _ => none

def readPairs? (room fuel : Nat) (cs : List Char) : Option (List (Key × Toml) × List Char) :=
  match fuel with
  | 0 => none
  | fuel + 1 => do
    let (key, r) ← readKey? depth cs
    match r with
    | '=' :: r => do
      let (v, r) ← readValue? room fuel (skipGap r)
      match skipGap r with
      | '\x7d' :: r => some ([(key, v)], r)
      | ',' :: r => do
        let (pairs, r) ← readPairs? room fuel r
        some ((key, v) :: pairs, r)
      | _ => none
    | _ => none

end

def readLine? (cs : List Char) : Option (Line × List Char) :=
  match cs with
  | '[' :: '[' :: r => do
    let (key, r) ← readKey? depth r
    match r with
    | ']' :: ']' :: r => some (.element key, r)
    | _ => none
  | '[' :: r => do
    let (key, r) ← readKey? depth r
    match r with
    | ']' :: r => some (.table key, r)
    | _ => none
  | _ => do
    let (key, r) ← readKey? depth cs
    match r with
    | '=' :: r => do
      let (v, r) ← readValue? depth (r.length + 1) (skipGap r)
      some (.assign key v, r)
    | _ => none

def readLines? : Nat → List Char → Option (List Line)
  | 0, _ => none
  | fuel + 1, cs =>
    match skipGap cs with
    | [] => some []
    | cs =>
      match endOfLine? cs with
      | some r => readLines? fuel r
      | none => do
        let (line, r) ← readLine? cs
        let r ← endOfLine? r
        let lines ← readLines? fuel r
        some (line :: lines)

def skipByteOrderMark : List Char → List Char
  | '\uFEFF' :: r => r
  | r => r

def ofText? (s : String) : Option Toml :=
  let cs := skipByteOrderMark s.toList
  (readLines? (cs.length + 1) cs).bind ofLines?

end Orchestration.Toml
