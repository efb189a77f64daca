import Orchestration.Time.Text
import Orchestration.Proofs.Text.Digits
import Orchestration.Proofs.Time.Calendar

namespace Orchestration.Timestamp

open Orchestration.Text

theorem not_isBlank_of_isDigit {c : Char} (digit : isDigit c = true) : isBlank c = false := by
  simp only [isDigit, Bool.and_eq_true, decide_eq_true_eq, Char.le_def, UInt32.le_iff_toNat_le] at digit
  have code : c.toNat = c.val.toNat := rfl
  have zero : '0'.val.toNat = 48 := rfl
  have nine : '9'.val.toNat = 57 := rfl
  simp only [isBlank, Bool.or_eq_false_iff, Bool.and_eq_false_iff, decide_eq_false_iff_not,
    beq_eq_false_iff_ne]
  omega

theorem dropBlank_cons {c : Char} (visible : isBlank c = false) (r : List Char) :
    dropBlank (c :: r) = c :: r := by
  unfold dropBlank
  rw [List.dropWhile_cons_of_neg (by simp [visible])]

theorem readNumber?_append {most : Nat} {ds r : List Char} (nonempty : ds ≠ [])
    (all : ∀ c ∈ ds, isDigit c = true) (fits : ds.length ≤ most)
    (stops : ds.length = most ∨ Stops r) :
    readNumber? most (ds ++ r) = some (ofDigits ds, r) := by
  have digits : ((ds ++ r).take most).takeWhile isDigit = ds := by
    have front : (ds ++ r).take most = ds ++ r.take (most - ds.length) := by
      rw [List.take_append, List.take_of_length_le fits]
    have rest : (r.take (most - ds.length)).takeWhile isDigit = [] := by
      rcases stops with full | stops
      · rw [full, Nat.sub_self]
        rfl
      · cases r with
        | nil => simp
        | cons c r =>
          cases most - ds.length with
          | zero => rfl
          | succ k => rw [List.take_succ_cons, List.takeWhile_cons_of_neg (by simp [stops c rfl])]
    rw [front, List.takeWhile_append_of_pos all, rest, List.append_nil]
  unfold readNumber?
  dsimp only
  rw [digits, if_neg nonempty, List.drop_left]

theorem padded_ne_nil (width n : Nat) : padded width n ≠ [] := by
  unfold padded
  simp [digits_ne_nil]

theorem exists_padded_eq_cons (width n : Nat) :
    ∃ c r, isDigit c = true ∧ padded width n = c :: r := by
  have all : ∀ c ∈ padded width n, isDigit c = true := fun _ => isDigit_of_mem_padded
  cases written : padded width n with
  | nil => exact absurd written (padded_ne_nil width n)
  | cons c r =>
    rw [written] at all
    exact ⟨c, r, all c (List.mem_cons_self ..), rfl⟩

theorem dropBlank_digits {ds : List Char} (all : ∀ c ∈ ds, isDigit c = true) (nonempty : ds ≠ [])
    (r : List Char) : dropBlank (ds ++ r) = ds ++ r := by
  cases ds with
  | nil => exact absurd rfl nonempty
  | cons d ds => exact dropBlank_cons (not_isBlank_of_isDigit (all d (List.mem_cons_self ..))) _

theorem readField?_padded {n : Nat} (small : n < 100) (r : List Char) :
    readField? (padded 2 n ++ r) = some (n, r) := by
  have length : (padded 2 n).length = 2 := length_padded (by omega) (by omega)
  unfold readField?
  rw [dropBlank_digits (fun _ => isDigit_of_mem_padded) (padded_ne_nil 2 n),
    readNumber?_append (padded_ne_nil 2 n) (fun _ => isDigit_of_mem_padded) (by omega) (.inl length),
    ofDigits_padded]

theorem readMark?_cons {c : Char} (visible : isBlank c = false) (r : List Char) :
    readMark? c (c :: r) = some r := by
  unfold readMark?
  rw [dropBlank_cons visible]
  exact if_pos rfl

theorem readNumber?_year {most n : Nat} (fits : (padded 4 n).length ≤ most) (r : List Char) :
    readNumber? most (padded 4 n ++ '-' :: r) = some (n, '-' :: r) := by
  rw [readNumber?_append (padded_ne_nil 4 n) (fun _ => isDigit_of_mem_padded) fits
    (.inr (stops_cons rfl r)), ofDigits_padded]

theorem readYear?_yearChars (y : Int) (r : List Char) :
    readYear? (yearChars y ++ '-' :: r) = some (y, '-' :: r) := by
  unfold yearChars
  split
  · rename_i short
    have four := length_padded (by omega) (by omega : y.toNat < 10 ^ 4)
    have number := readNumber?_year (Nat.le_of_eq four) r
    obtain ⟨c, s, digit, begins⟩ := exists_padded_eq_cons 4 y.toNat
    rw [begins, List.cons_append] at number ⊢
    unfold readYear?
    rw [dropBlank_cons (not_isBlank_of_isDigit digit)]
    split
    · rename_i same
      rw [(List.cons.inj same).1] at digit
      cases digit
    · rename_i same
      rw [(List.cons.inj same).1] at digit
      cases digit
    · rw [number]
      simp
      omega
  · have number (n : Nat) : readNumber? (padded 4 n ++ '-' :: r).length (padded 4 n ++ '-' :: r) =
        some (n, '-' :: r) := readNumber?_year (by simp) r
    have minus (s : List Char) : readYear? ('-' :: s) =
        (readNumber? s.length s).map fun p => (-(p.1 : Int), p.2) := rfl
    have plus (s : List Char) : readYear? ('+' :: s) =
        (readNumber? s.length s).map fun p => ((p.1 : Int), p.2) := rfl
    split
    · have back : -(y.natAbs : Int) = y := by omega
      rw [List.cons_append, minus, number, Option.map_some]
      dsimp only
      rw [back]
    · have back : (y.natAbs : Int) = y := by omega
      rw [List.cons_append, plus, number, Option.map_some]
      dsimp only
      rw [back]

theorem readFraction?_padded {width n : Nat} (positive : 0 < width) (most : width ≤ 9)
    (fits : n < 10 ^ width) {r : List Char} (stops : Stops r) :
    readFraction? ('.' :: padded width n ++ r) = some (n * 10 ^ (9 - width), r) := by
  have length := length_padded positive fits
  have all : ∀ c ∈ padded width n, isDigit c = true := fun _ => isDigit_of_mem_padded
  have span := spanDigits_append all stops
  have kept : (padded width n).take 9 = padded width n := List.take_of_length_le (by omega)
  rw [List.cons_append]
  unfold readFraction?
  simp only [span, padded_ne_nil, if_false, kept, ofDigits_padded, length]
  rfl

theorem readFraction?_fractionChars {n : Nat} (small : n < 1000000000) (r : List Char) :
    readFraction? (fractionChars n ++ 'Z' :: r) = some (n, 'Z' :: r) := by
  have stops : Stops ('Z' :: r) := stops_cons rfl r
  unfold fractionChars
  split
  · subst_vars
    rfl
  split
  · rename_i millis
    have whole : n / 1000000 * 10 ^ (9 - 3) = n := Nat.div_mul_cancel (Nat.dvd_of_mod_eq_zero millis)
    rw [readFraction?_padded (by omega) (by omega) (by omega) stops, whole]
  split
  · rename_i micros
    have whole : n / 1000 * 10 ^ (9 - 6) = n := Nat.div_mul_cancel (Nat.dvd_of_mod_eq_zero micros)
    rw [readFraction?_padded (by omega) (by omega) (by omega) stops, whole]
  · rw [readFraction?_padded (by omega) (by omega) (by omega) stops]
    simp

theorem readDate?_append (date : Date) (month : date.month < 100) (day : date.day < 100)
    (r : List Char) :
    readDate? (yearChars date.year ++
      '-' :: (padded 2 date.month ++ '-' :: (padded 2 date.day ++ r))) = some (date, r) := by
  unfold readDate?
  simp only [readYear?_yearChars, readMark?_cons (by decide : isBlank '-' = false),
    readField?_padded month, readField?_padded day, Option.bind_eq_bind, Option.bind_some]

theorem readTime?_append (time : TimeOfDay) (hour : time.hour < 100) (minute : time.minute < 100)
    (second : time.second < 100) (nanos : time.nanos < 1000000000) (r : List Char) :
    readTime? (padded 2 time.hour ++ ':' :: (padded 2 time.minute ++ ':' :: (padded 2 time.second ++
      (fractionChars time.nanos ++ 'Z' :: r)))) = some (time, 'Z' :: r) := by
  unfold readTime?
  simp only [readField?_padded hour, readField?_padded minute, readField?_padded second,
    readMark?_cons (by decide : isBlank ':' = false), readFraction?_fractionChars nanos,
    Option.bind_eq_bind, Option.bind_some]

def date (t : Timestamp) : Date := Date.ofDays (t.nanos / 1000000000 / 86400)

def timeOfDay (t : Timestamp) : TimeOfDay :=
  let ofDay := (t.nanos / 1000000000 % 86400).toNat
  ⟨ofDay / 3600, ofDay / 60 % 60, ofDay % 60 + (if t.leap then 1 else 0),
    (t.nanos % 1000000000).toNat⟩

theorem exists_lies (t : Timestamp) : ∃ era year month day,
    Date.Lies t.date (t.nanos / 1000000000 / 86400) era year month day := Date.lies_ofDays _

theorem chars_eq (t : Timestamp) : t.chars =
    yearChars t.date.year ++ '-' :: (padded 2 t.date.month ++ '-' :: (padded 2 t.date.day ++
      'T' :: (padded 2 t.timeOfDay.hour ++ ':' :: (padded 2 t.timeOfDay.minute ++
        ':' :: (padded 2 t.timeOfDay.second ++ (fractionChars t.timeOfDay.nanos ++ ['Z'])))))) := by
  simp [chars, date, timeOfDay]

/-- The leap second is second 60 of its minute, and there is no other such second. -/
theorem second_eq (t : Timestamp) : (t.timeOfDay.second == 60) = t.leap ∧
    (if t.leap then 59 else t.timeOfDay.second) = (t.nanos / 1000000000 % 60).toNat := by
  have leap := t.leap_second
  unfold timeOfDay
  cases same : t.leap with
  | true =>
    have last := leap same
    simp
    omega
  | false =>
    simp
    omega

theorem timeOfDay_bounds (t : Timestamp) : t.timeOfDay.hour ≤ 23 ∧ t.timeOfDay.minute ≤ 59 ∧
    t.timeOfDay.second ≤ 60 ∧ t.timeOfDay.nanos < 1000000000 := by
  unfold timeOfDay
  dsimp only
  split
  all_goals omega

theorem ofLocal?_date (t : Timestamp) : ofLocal? t.date t.timeOfDay 0 = some t := by
  obtain ⟨era, year, month, day, lies⟩ := t.exists_lies
  have earliest := t.earliest_le
  have latest := t.le_latest
  have years := lies.year_bounds (by omega) (by omega)
  obtain ⟨hour, minute, second, nanos⟩ := t.timeOfDay_bounds
  obtain ⟨isLeap, unleaped⟩ := t.second_eq
  have known : ¬ (!t.date.isValid || decide (t.date.year < -262143) ||
      decide (262142 < t.date.year)) = true := by
    simp only [lies.isValid, Bool.not_true, Bool.false_or, Bool.or_eq_true, decide_eq_true_eq]
    omega
  have inDay : ¬ (23 < t.timeOfDay.hour || 59 < t.timeOfDay.minute || 60 < t.timeOfDay.second) = true := by
    simp only [Bool.or_eq_true, decide_eq_true_eq]
    omega
  have instant : (t.date.toDays * 86400 + ((t.timeOfDay.hour : Int) * 3600 +
      t.timeOfDay.minute * 60 + ((t.nanos / 1000000000 % 60).toNat : Nat)) - 0) * 1000000000 +
      t.timeOfDay.nanos = t.nanos := by
    rw [lies.toDays]
    unfold timeOfDay
    dsimp only
    omega
  unfold ofLocal?
  simp only [if_neg known, if_neg inDay, isLeap]
  rw [unleaped, instant]
  unfold ofNanos?
  rw [dif_pos ⟨earliest, latest⟩]
  exact dif_pos t.leap_second

theorem ofText?_text (t : Timestamp) : ofText? t.text = some t := by
  obtain ⟨era, year, month, day, lies⟩ := t.exists_lies
  obtain ⟨months, days⟩ := lies.numbers_le
  obtain ⟨hour, minute, second, nanos⟩ := t.timeOfDay_bounds
  have date := readDate?_append t.date (by omega) (by omega)
  have time := readTime?_append t.timeOfDay (by omega) (by omega) (by omega) nanos
  have offset : readOffset? (dropBlank ['Z']) = some (0, []) := by decide
  unfold ofText? text
  rw [String.toList_ofList, chars_eq]
  unfold ofChars?
  rw [date]
  simp only [Option.bind_eq_bind, Option.bind_some, readJoin?]
  rw [time]
  simp only [Option.bind_some, offset]
  exact t.ofLocal?_date

end Orchestration.Timestamp
