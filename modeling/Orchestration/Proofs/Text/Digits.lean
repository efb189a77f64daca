import Orchestration.Text.Decimal
import Orchestration.Text.Hexadecimal
import Mathlib.Algebra.Group.Nat.Defs
import Mathlib.Data.List.Basic

namespace Orchestration.Text

def Stops (r : List Char) : Prop := ∀ c ∈ r.head?, isDigit c = false

theorem stops_cons {c : Char} (other : isDigit c = false) (r : List Char) : Stops (c :: r) := by
  intro d member
  cases member
  exact other

theorem toNat_digitChar {d : Nat} (small : d < 10) : (digitChar d).toNat = 48 + d := by
  have each : ∀ d < 10, (digitChar d).toNat = 48 + d := by decide
  exact each d small

theorem isDigit_digitChar {d : Nat} (small : d < 10) : isDigit (digitChar d) = true := by
  have each : ∀ d < 10, isDigit (digitChar d) = true := by decide
  exact each d small

theorem digitValue_digitChar {d : Nat} (small : d < 10) : digitValue (digitChar d) = d := by
  unfold digitValue
  rw [toNat_digitChar small]
  omega

theorem ofDigits_append_digit (cs : List Char) (c : Char) :
    ofDigits (cs ++ [c]) = 10 * ofDigits cs + digitValue c := by
  unfold ofDigits
  rw [List.foldl_append]
  rfl

theorem digits_of_lt {n : Nat} (small : n < 10) : digits n = [digitChar n] := by
  rw [digits, if_pos small]

theorem digits_of_le {n : Nat} (large : 10 ≤ n) :
    digits n = digits (n / 10) ++ [digitChar (n % 10)] := by
  rw [digits, if_neg (by omega)]

theorem ofDigits_digits (n : Nat) : ofDigits (digits n) = n := by
  induction n using digits.induct with
  | case1 n small =>
    rw [digits_of_lt small]
    show 10 * 0 + digitValue (digitChar n) = n
    rw [digitValue_digitChar small]
    omega
  | case2 n large ih =>
    have last : n % 10 < 10 := Nat.mod_lt n (by omega)
    rw [digits_of_le (by omega), ofDigits_append_digit, ih, digitValue_digitChar last]
    omega

theorem isDigit_of_mem_digits {n : Nat} {c : Char} (member : c ∈ digits n) : isDigit c = true := by
  induction n using digits.induct with
  | case1 n small =>
    rw [digits_of_lt small] at member
    rw [List.mem_singleton.mp member]
    exact isDigit_digitChar small
  | case2 n large ih =>
    rw [digits_of_le (by omega)] at member
    rcases List.mem_append.mp member with before | last
    · exact ih before
    · rw [List.mem_singleton.mp last]
      exact isDigit_digitChar (Nat.mod_lt n (by omega))

theorem digits_ne_nil (n : Nat) : digits n ≠ [] := by
  rw [digits]
  split <;> simp

theorem exists_digits_eq_cons (n : Nat) : ∃ c ds, isDigit c = true ∧ digits n = c :: ds := by
  cases written : digits n with
  | nil => exact absurd written (digits_ne_nil n)
  | cons c ds =>
    refine ⟨c, ds, isDigit_of_mem_digits (n := n) ?_, rfl⟩
    rw [written]
    exact List.mem_cons_self ..

theorem readSigned?_signed (n : Int) : readSigned? (signed n) = some n := by
  have all (n : Nat) : (digits n).all isDigit :=
    List.all_eq_true.mpr fun _ member => isDigit_of_mem_digits member
  unfold signed
  split
  · have magnitude : -((n.natAbs : Nat) : Int) = n := by omega
    simp only [readSigned?, digits_ne_nil, all, ofDigits_digits, magnitude, ne_eq, not_false_eq_true,
      and_self, if_true]
  · have magnitude : ((n.natAbs : Nat) : Int) = n := by omega
    obtain ⟨c, ds, digit, split⟩ := exists_digits_eq_cons n.natAbs
    have read : readSigned? (digits n.natAbs) =
        if digits n.natAbs ≠ [] ∧ (digits n.natAbs).all isDigit then some (ofDigits (digits n.natAbs) : Int)
        else none := by
      unfold readSigned?
      rw [split]
      split
      · rename_i same
        cases same
        cases digit
      · rename_i same
        cases same
        cases digit
      · rfl
    simp only [read, digits_ne_nil, all, ofDigits_digits, magnitude, ne_eq, not_false_eq_true, and_self,
      if_true]

theorem digits_head_ne_zero {n : Nat} (positive : 0 < n) : (digits n).head? ≠ some '0' := by
  induction n using digits.induct with
  | case1 n small =>
    rw [digits_of_lt small]
    intro zero
    have value := congrArg Char.toNat (Option.some.inj zero)
    rw [toNat_digitChar small] at value
    have code : '0'.toNat = 48 := rfl
    omega
  | case2 n large ih =>
    have front := ih (by omega)
    rw [digits_of_le (by omega), List.head?_append_of_ne_nil _ (digits_ne_nil _)]
    exact front

theorem digits_leading_zero {n : Nat} {cs : List Char} (leading : digits n = '0' :: cs) : cs = [] := by
  by_cases positive : 0 < n
  · exact absurd (congrArg List.head? leading) (digits_head_ne_zero positive)
  · obtain rfl : n = 0 := by omega
    rw [digits_of_lt (by omega)] at leading
    exact (List.cons.inj leading).2.symm

theorem spanDigits_append {ds r : List Char} (all : ∀ c ∈ ds, isDigit c = true) (stops : Stops r) :
    spanDigits (ds ++ r) = (ds, r) := by
  induction ds with
  | nil =>
    cases r with
    | nil => rfl
    | cons c r =>
      have other := stops c rfl
      simp [spanDigits, other]
  | cons d ds ih =>
    have digit := all d (List.mem_cons_self ..)
    have rest := ih fun c member => all c (List.mem_cons_of_mem _ member)
    rw [List.cons_append, spanDigits, if_pos digit, rest]

theorem spanDigits_digits (n : Nat) {r : List Char} (stops : Stops r) :
    spanDigits (digits n ++ r) = (digits n, r) :=
  spanDigits_append (fun _ member => isDigit_of_mem_digits member) stops

theorem ofDigits_zeros (k : Nat) (cs : List Char) :
    ofDigits (List.replicate k '0' ++ cs) = ofDigits cs := by
  induction k with
  | zero => rfl
  | succ k ih =>
    rw [← ih]
    rfl

theorem ofDigits_padded (width n : Nat) : ofDigits (padded width n) = n := by
  unfold padded
  rw [ofDigits_zeros, ofDigits_digits]

theorem isDigit_of_mem_padded {width n : Nat} {c : Char} (member : c ∈ padded width n) :
    isDigit c = true := by
  unfold padded at member
  rcases List.mem_append.mp member with zero | digit
  · rw [List.eq_of_mem_replicate zero]
    rfl
  · exact isDigit_of_mem_digits digit

theorem length_digits_le {n width : Nat} (positive : 0 < width) (fits : n < 10 ^ width) :
    (digits n).length ≤ width := by
  induction width generalizing n with
  | zero => omega
  | succ width ih =>
    by_cases small : n < 10
    · rw [digits_of_lt small, List.length_singleton]
      omega
    · have front : n / 10 < 10 ^ width := by
        rw [Nat.pow_succ] at fits
        omega
      have more : 0 < width := by
        by_contra none
        have : width = 0 := by omega
        subst this
        omega
      have shorter := ih more front
      rw [digits_of_le (by omega), List.length_append, List.length_singleton]
      omega

theorem length_padded {n width : Nat} (positive : 0 < width) (fits : n < 10 ^ width) :
    (padded width n).length = width := by
  have short := length_digits_le positive fits
  unfold padded
  rw [List.length_append, List.length_replicate]
  omega

theorem hexValue?_hexChar {d : Nat} (small : d < 16) : hexValue? (hexChar d) = some d := by
  have each : ∀ d < 16, hexValue? (hexChar d) = some d := by decide
  exact each d small

theorem ofHex?_append (cs : List Char) (c : Char) :
    ofHex? (cs ++ [c]) = (ofHex? cs).bind fun n => (hexValue? c).map (16 * n + ·) := by
  unfold ofHex?
  rw [List.foldlM_append]
  cases List.foldlM (fun n c => (hexValue? c).map (16 * n + ·)) 0 cs with
  | none => rfl
  | some n => simp

theorem length_hexDigits (width n : Nat) : (hexDigits width n).length = width := by
  induction width generalizing n with
  | zero => rfl
  | succ width ih => simp [hexDigits, ih]

theorem ofHex?_hexDigits {width n : Nat} (fits : n < 16 ^ width) :
    ofHex? (hexDigits width n) = some n := by
  induction width generalizing n with
  | zero =>
    obtain rfl : n = 0 := by omega
    rfl
  | succ width ih =>
    have front : n / 16 < 16 ^ width := by
      rw [Nat.pow_succ] at fits
      omega
    have last : n % 16 < 16 := Nat.mod_lt n (by omega)
    rw [hexDigits, ofHex?_append, ih front, hexValue?_hexChar last]
    show some (16 * (n / 16) + n % 16) = some n
    rw [Nat.div_add_mod]

theorem exists_of_mem_hexDigits {width n : Nat} {c : Char} (member : c ∈ hexDigits width n) :
    ∃ d < 16, c = hexChar d := by
  induction width generalizing n with
  | zero => cases member
  | succ width ih =>
    rcases List.mem_append.mp member with before | last
    · exact ih before
    · exact ⟨n % 16, Nat.mod_lt n (by omega), List.mem_singleton.mp last⟩

end Orchestration.Text
