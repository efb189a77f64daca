import Orchestration.Scientific

namespace Orchestration.Json

open Text

/-- The nearest number of at most 53 binary digits; of two, the one whose last digit is even. -/
def roundBinary (n : Nat) : Nat :=
  let unit := Nat.pow 2 (n.log2 - 52)
  let q := n / unit
  let rest := 2 * (n % unit)
  if unit < rest ∨ unit = rest ∧ q % 2 = 1 then (q + 1) * unit else q * unit

def takeDigits (n : Nat) : List Char → Nat × List Char
  | [] => (n, [])
  | c :: r =>
    let m := 10 * n + digitValue c
    if m ≤ 18446744073709551615 then takeDigits m r else (n, c :: r)

def overflows (n : Nat) (exponent : Int) : Bool :=
  if n = 0 ∨ exponent < 0 then false
  else if 308 < exponent then true
  else Scientific.doubleLimit ≤ roundBinary n * roundBinary (Nat.pow 10 exponent.toNat)

/-- Whether a number is too large, by its digits before and after the point and its exponent. Each
digit left out before the point counts as a further factor ten. -/
def isTooLarge (whole places : List Char) (exponent : Int) : Bool :=
  let (n, left) := takeDigits 0 whole
  let (n, unread) := takeDigits n places
  overflows n (exponent + left.length + unread.length - places.length)

end Orchestration.Json
