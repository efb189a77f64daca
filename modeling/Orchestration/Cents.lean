namespace Orchestration

structure Cents where
  value : Int
  lower : -9223372036854775808 ≤ value
  upper : value ≤ 9223372036854775807
deriving DecidableEq

namespace Cents

def clamp (v : Int) : Cents :=
  ⟨max (-9223372036854775808) (min v 9223372036854775807), by omega, by omega⟩

def ofInt? (v : Int) : Option Cents :=
  if h : -9223372036854775808 ≤ v ∧ v ≤ 9223372036854775807 then some ⟨v, h.1, h.2⟩ else none

instance : Zero Cents := ⟨⟨0, by decide, by decide⟩⟩
instance : Inhabited Cents := ⟨0⟩

/-- The sum, or the end of the range that it passes. -/
instance : Add Cents := ⟨fun a b => clamp (a.value + b.value)⟩

/-- The difference, or the end of the range that it passes. -/
instance : Sub Cents := ⟨fun a b => clamp (a.value - b.value)⟩

instance : LT Cents := ⟨fun a b => a.value < b.value⟩
instance : LE Cents := ⟨fun a b => a.value ≤ b.value⟩
instance (a b : Cents) : Decidable (a < b) := inferInstanceAs (Decidable (a.value < b.value))
instance (a b : Cents) : Decidable (a ≤ b) := inferInstanceAs (Decidable (a.value ≤ b.value))
instance : Max Cents := ⟨fun a b => if a ≤ b then b else a⟩
instance : Min Cents := ⟨fun a b => if a ≤ b then a else b⟩

@[ext] theorem ext {a b : Cents} (h : a.value = b.value) : a = b := by
  cases a; cases b; simp_all

theorem value_add (a b : Cents) : (a + b).value =
    max (-9223372036854775808) (min (a.value + b.value) 9223372036854775807) := rfl

theorem value_sub (a b : Cents) : (a - b).value =
    max (-9223372036854775808) (min (a.value - b.value) 9223372036854775807) := rfl

@[simp] theorem value_zero : (0 : Cents).value = 0 := rfl

theorem lt_iff {a b : Cents} : a < b ↔ a.value < b.value := Iff.rfl

theorem le_iff {a b : Cents} : a ≤ b ↔ a.value ≤ b.value := Iff.rfl

theorem value_max (a b : Cents) : (max a b).value = max a.value b.value := by
  show (if a.value ≤ b.value then b else a).value = _
  split <;> omega

theorem value_min (a b : Cents) : (min a b).value = min a.value b.value := by
  show (if a.value ≤ b.value then a else b).value = _
  split <;> omega

end Cents

end Orchestration
