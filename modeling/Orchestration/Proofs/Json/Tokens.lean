import Orchestration.Json.Printer
import Orchestration.Json.Reader
import Orchestration.Proofs.Text.Digits

namespace Orchestration.Json

open Orchestration.Text

theorem readUnits?_letter {c u : Char} (letter : c ≠ 'u') (named : unescape? c = some u)
    (r : List Char) :
    readUnits? ('\\' :: c :: r) = (readUnits? r).map fun (us, r) => (u.toNat :: us, r) := by
  have slash : c ≠ '/' := by
    rintro rfl
    cases named
  rw [readUnits?, if_neg slash, named]
  · simp only [Option.bind_eq_bind, Option.bind_some]
    cases readUnits? r <;> rfl
  · rintro a b d e r' rfl
    exact absurd rfl letter

theorem readUnits?_plain {c : Char} (code : 32 ≤ c.toNat) (quote : c ≠ '"') (escape : c ≠ '\\')
    (r : List Char) :
    readUnits? (c :: r) = (readUnits? r).map fun (us, r) => (c.toNat :: us, r) := by
  rw [readUnits?, if_neg (by simp [escape]; omega)]
  · exact quote
  · rintro _ _ _ _ _ rfl
    exact absurd rfl escape
  · rintro _ _ rfl
    exact absurd rfl escape

theorem readUnits?_control {c : Char} (code : c.toNat < 32) (r : List Char) :
    readUnits? ('\\' :: 'u' :: hexDigits 4 c.toNat ++ r) =
      (readUnits? r).map fun (us, r) => (c.toNat :: us, r) := by
  have read : ofHex? (hexDigits 4 c.toNat) = some c.toNat := ofHex?_hexDigits (by omega)
  simp only [hexDigits, List.nil_append, List.cons_append] at read ⊢
  rw [readUnits?, hexUnit?, read]
  rw [Option.bind_eq_bind, Option.bind_some]
  cases readUnits? r <;> rfl

theorem readUnits?_escapeChar (c : Char) (r : List Char) :
    readUnits? (escapeChar c ++ r) = (readUnits? r).map fun (us, r) => (c.toNat :: us, r) := by
  unfold escapeChar
  split_ifs with quote escape feed back tab rub form control
  · subst quote
    exact readUnits?_letter (by decide) (by decide) r
  · subst escape
    exact readUnits?_letter (by decide) (by decide) r
  · subst feed
    exact readUnits?_letter (by decide) (by decide) r
  · subst back
    exact readUnits?_letter (by decide) (by decide) r
  · subst tab
    exact readUnits?_letter (by decide) (by decide) r
  · subst rub
    exact readUnits?_letter (by decide) (by decide) r
  · subst form
    exact readUnits?_letter (by decide) (by decide) r
  · exact readUnits?_control control r
  · exact readUnits?_plain (by omega) quote escape r

theorem readUnits?_flatMap (cs r : List Char) :
    readUnits? (cs.flatMap escapeChar ++ '"' :: r) = some (cs.map Char.toNat, r) := by
  induction cs with
  | nil => rfl
  | cons c cs ih =>
    rw [List.flatMap_cons, List.append_assoc, readUnits?_escapeChar, ih]
    rfl

theorem not_surrogate (c : Char) : isHighSurrogate c.toNat = false ∧ isLowSurrogate c.toNat = false := by
  have valid : c.toNat < 0xD800 ∨ 0xDFFF < c.toNat ∧ c.toNat < 0x110000 := c.valid
  simp only [isHighSurrogate, isLowSurrogate, Bool.and_eq_false_iff, decide_eq_false_iff_not]
  omega

theorem ofUnits?_map (cs : List Char) : ofUnits? (cs.map Char.toNat) = some cs := by
  induction cs with
  | nil => rfl
  | cons c cs ih =>
    obtain ⟨high, low⟩ := not_surrogate c
    cases cs with
    | nil => simp [ofUnits?, high, low]
    | cons d ds =>
      rw [List.map_cons] at ih
      simp only [List.map_cons, ofUnits?, high, low, Bool.false_eq_true, if_false, ih,
        Option.map_some, Char.ofNat_toNat]

theorem readString?_flatMap (s : String) (r : List Char) :
    readString? (s.toList.flatMap escapeChar ++ '"' :: r) = some (some s, r) := by
  unfold readString?
  rw [readUnits?_flatMap, Option.map_some]
  dsimp only
  rw [ofUnits?_map, Option.map_some, String.ofList_toList]

def Ends (r : List Char) : Prop := ∀ c ∈ r.head?, isDigit c = false ∧ c ≠ '.' ∧ c ≠ 'e' ∧ c ≠ 'E'

theorem ends_nil : Ends [] := by simp [Ends]

theorem ends_cons {c : Char} (other : isDigit c = false ∧ c ≠ '.' ∧ c ≠ 'e' ∧ c ≠ 'E')
    (r : List Char) : Ends (c :: r) := by
  intro d member
  cases member
  exact other

theorem Ends.stops {r : List Char} (ends : Ends r) : Stops r := fun c member => (ends c member).1

theorem readWhole?_digits (n : Nat) {r : List Char} (ends : Ends r) :
    readWhole? (digits n ++ r) = some (digits n, r) := by
  unfold readWhole?
  rw [spanDigits_digits n ends.stops]
  split
  · rename_i same
    exact absurd (Prod.mk.inj same).1 (digits_ne_nil n)
  · rename_i same
    cases digits_leading_zero (Prod.mk.inj same).1
  · rename_i same
    obtain ⟨rfl, rfl⟩ := Prod.mk.inj same
    rfl

theorem readPlaces?_of_ends {r : List Char} (ends : Ends r) : readPlaces? r = some (none, r) := by
  unfold readPlaces?
  split
  · exact absurd rfl (ends '.' rfl).2.1
  · rfl

theorem readExponent?_of_ends {r : List Char} (ends : Ends r) : readExponent? r = some (none, r) := by
  cases r with
  | nil => rfl
  | cons c r =>
    obtain ⟨-, -, small, capital⟩ := ends c rfl
    simp only [readExponent?, small, capital, or_self, if_false]

theorem readUnsigned?_digits (negative : Bool) (n : Nat) {r : List Char} (ends : Ends r) :
    readUnsigned? negative (digits n ++ r) = some (ofNotation negative (digits n) none none, r) := by
  unfold readUnsigned?
  simp [readWhole?_digits n ends, readPlaces?_of_ends ends, readExponent?_of_ends ends]

theorem ofNotation_digits {n : Int} (word : isWord n = true) :
    ofNotation (n < 0) (digits n.natAbs) none none = .int n := by
  have value : (if decide (n < 0) = true then -(n.natAbs : Int) else n.natAbs) = n := by
    simp only [decide_eq_true_eq]
    omega
  unfold ofNotation
  simp only [Option.getD_none, List.append_nil, ofDigits_digits, value]
  rw [if_pos (by simp [word]; omega)]

theorem readNumber?_signed {n : Int} (word : isWord n = true) {r : List Char} (ends : Ends r) :
    readNumber? (signed n ++ r) = some (.int n, r) := by
  have written := ofNotation_digits word
  unfold signed
  by_cases negative : n < 0
  · rw [if_pos negative]
    show readUnsigned? true (digits n.natAbs ++ r) = _
    rw [readUnsigned?_digits true _ ends, ← written, decide_eq_true negative]
  · rw [if_neg negative]
    have unsigned : readNumber? (digits n.natAbs ++ r) = readUnsigned? false (digits n.natAbs ++ r) := by
      obtain ⟨c, ds, digit, begins⟩ := exists_digits_eq_cons n.natAbs
      rw [begins, List.cons_append]
      unfold readNumber?
      split
      · rename_i same
        rw [(List.cons.inj same).1] at digit
        cases digit
      · rfl
    rw [unsigned, readUnsigned?_digits false _ ends, ← written, decide_eq_false negative]

end Orchestration.Json
