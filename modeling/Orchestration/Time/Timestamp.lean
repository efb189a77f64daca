namespace Orchestration

def millis (ms : Nat) : Nat := ms * 1000000

def seconds (s : Nat) : Nat := s * 1000000000

/-- With `leap`, the instant lies in the leap second that follows the second it is counted in. Only
the last second of a minute has one. -/
structure Timestamp where
  nanos : Int
  leap : Bool
  earliest_le : -8334601228800000000000 ≤ nanos
  le_latest : nanos ≤ 8210266876799999999999
  leap_second : leap = true → nanos / 1000000000 % 60 = 59
deriving DecidableEq

namespace Timestamp

def latest : Timestamp := ⟨8210266876799999999999, false, by decide, by decide, by decide⟩

def epoch : Timestamp := ⟨0, false, by decide, by decide, by decide⟩

instance : Inhabited Timestamp := ⟨epoch⟩

/-- The place of an instant among all of them: every second is followed by a leap second. -/
def rank (t : Timestamp) : Int :=
  t.nanos + t.nanos / 1000000000 * 1000000000 + if t.leap then 1000000000 else 0

instance : LT Timestamp := ⟨fun a b => a.rank < b.rank⟩
instance : LE Timestamp := ⟨fun a b => a.rank ≤ b.rank⟩
instance (a b : Timestamp) : Decidable (a < b) := inferInstanceAs (Decidable (a.rank < b.rank))
instance (a b : Timestamp) : Decidable (a ≤ b) := inferInstanceAs (Decidable (a.rank ≤ b.rank))

theorem lt_iff {a b : Timestamp} : a < b ↔ a.rank < b.rank := Iff.rfl

theorem le_iff {a b : Timestamp} : a ≤ b ↔ a.rank ≤ b.rank := Iff.rfl

def ofNanos? (n : Int) : Option Timestamp :=
  if h : -8334601228800000000000 ≤ n ∧ n ≤ 8210266876799999999999 then
    some ⟨n, false, h.1, h.2, by simp⟩
  else none

def ofMillis? (ms : Int) : Option Timestamp := ofNanos? (ms * 1000000)

def Lingers (t : Timestamp) (delay : Nat) : Prop :=
  t.leap = true ∧ t.nanos % 1000000000 + delay < 1000000000

instance (t : Timestamp) (delay : Nat) : Decidable (t.Lingers delay) :=
  inferInstanceAs (Decidable (_ ∧ _))

/-- The instant `delay` nanoseconds later, unless it lies beyond the greatest one. Instants are moved
by spans of up to `2 ^ 63 - 1` milliseconds only. There is no leap second on the way but the one that
`t` lies in. -/
def add? (t : Timestamp) (delay : Nat) : Option Timestamp :=
  if millis 9223372036854775807 < delay then none
  else if h : t.Lingers delay then
    some ⟨t.nanos + delay, true, by have := t.earliest_le; omega,
      by have := t.le_latest; have := h.2; omega,
      by have := t.leap_second h.1; have := h.2; omega⟩
  else ofNanos? (t.nanos + delay)

def after (t : Timestamp) (delay : Nat) : Timestamp := (t.add? delay).getD latest

/-- A clock moved forward. A step beyond the greatest instant is not taken. -/
def advance (t : Timestamp) (delay : Nat) : Timestamp := (t.add? delay).getD t

end Timestamp

end Orchestration
