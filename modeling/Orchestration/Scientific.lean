import Orchestration.Text.Decimal

namespace Orchestration

open Text

/-- `mantissa * 10 ^ exponent`. -/
structure Scientific where
  mantissa : Int
  exponent : Int
deriving DecidableEq

namespace Scientific

/-- The least magnitude that rounds to no finite double. -/
def doubleLimit : Nat := Nat.pow 2 1024 - Nat.pow 2 970

def isHuge (n : Scientific) : Bool :=
  if n.mantissa = 0 then false
  else
    let places := ((digits n.mantissa.natAbs).length : Int) + n.exponent
    if 400 < places then true
    else if places < 300 then false
    else if 0 ≤ n.exponent then doubleLimit ≤ n.mantissa.natAbs * Nat.pow 10 n.exponent.toNat
    else doubleLimit * Nat.pow 10 n.exponent.natAbs ≤ n.mantissa.natAbs

end Scientific

end Orchestration
