namespace Orchestration.Text

def isDigit (c : Char) : Bool := '0' ≤ c && c ≤ '9'

def digitChar (d : Nat) : Char := Char.ofNat (48 + d)

def digitValue (c : Char) : Nat := c.toNat - 48

def digits (n : Nat) : List Char :=
  if n < 10 then [digitChar n] else digits (n / 10) ++ [digitChar (n % 10)]
termination_by n
decreasing_by omega

def ofDigits (cs : List Char) : Nat := cs.foldl (fun n c => 10 * n + digitValue c) 0

def padded (width n : Nat) : List Char :=
  List.replicate (width - (digits n).length) '0' ++ digits n

def signed (n : Int) : List Char :=
  if n < 0 then '-' :: digits n.natAbs else digits n.natAbs

def decimal (n : Int) : String := String.ofList (signed n)

def natural (n : Nat) : String := String.ofList (digits n)

def spanDigits : List Char → List Char × List Char
  | [] => ([], [])
  | c :: r => if isDigit c then let (ds, t) := spanDigits r; (c :: ds, t) else ([], c :: r)

/-- A whole text that is one signed decimal number, leading zeros allowed. -/
def readSigned? (cs : List Char) : Option Int :=
  match cs with
  | '-' :: r => if r ≠ [] ∧ r.all isDigit then some (-(ofDigits r : Int)) else none
  | '+' :: r => if r ≠ [] ∧ r.all isDigit then some (ofDigits r : Int) else none
  | r => if r ≠ [] ∧ r.all isDigit then some (ofDigits r : Int) else none

end Orchestration.Text
