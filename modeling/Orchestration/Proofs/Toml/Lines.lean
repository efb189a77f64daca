import Orchestration.Toml.Reader
import Orchestration.Proofs.Text.Digits

namespace Orchestration.Toml

open Text

structure Consists (kind : Char → Bool) (cs : List Char) : Prop where
  nonempty : cs ≠ []
  all : ∀ c ∈ cs, kind c = true

theorem consists_iff {kind : Char → Bool} {cs : List Char} :
    Consists kind cs ↔ (!cs.isEmpty && cs.all kind) = true := by
  rw [Bool.and_eq_true, Bool.not_eq_true', List.isEmpty_eq_false_iff, List.all_eq_true]
  exact ⟨fun consists => ⟨consists.nonempty, consists.all⟩, fun ⟨nonempty, all⟩ => ⟨nonempty, all⟩⟩

instance (kind : Char → Bool) (cs : List Char) : Decidable (Consists kind cs) :=
  decidable_of_iff _ consists_iff.symm

theorem consists_digits (n : Nat) : Consists isDigit (digits n) :=
  ⟨digits_ne_nil n, fun _ member => isDigit_of_mem_digits member⟩

namespace Consists

variable {kind : Char → Bool} {cs : List Char}

theorem append_ne (consists : Consists kind cs) {d : Char} (other : kind d = false)
    (r t : List Char) : cs ++ r ≠ d :: t := by
  cases cs with
  | nil => exact absurd rfl consists.nonempty
  | cons c cs =>
    intro same
    have first := consists.all c (List.mem_cons_self ..)
    rw [(List.cons.inj same).1, other] at first
    cases first

theorem skipGap_append (consists : Consists kind cs) (space : kind ' ' = false)
    (tab : kind '\t' = false) (r : List Char) : skipGap (cs ++ r) = cs ++ r := by
  cases cs with
  | nil => exact absurd rfl consists.nonempty
  | cons c cs =>
    have solid : isGap c = false := by
      by_contra gap
      have blank : c = ' ' ∨ c = '\t' := by
        rw [Bool.not_eq_false] at gap
        simpa [isGap] using gap
      rcases blank with rfl | rfl
      · exact consists.append_ne space [] _ (List.append_nil _)
      · exact consists.append_ne tab [] _ (List.append_nil _)
    exact List.dropWhile_cons_of_neg (by simp [solid])

theorem takeWhile_append (consists : Consists kind cs) {c : Char} (other : kind c = false)
    (r : List Char) : (cs ++ c :: r).takeWhile kind = cs := by
  rw [List.takeWhile_append_of_pos consists.all, List.takeWhile_cons_of_neg (by simp [other]),
    List.append_nil]

end Consists

theorem readDigits?_of_isDigit {d : Char} (digit : isDigit d = true) {r : List Char}
    (plain : r.head? ≠ some '_') : readDigits? isDigit (d :: r) =
      match readDigits? isDigit r with
      | some (ds, t) => some (d :: ds, t)
      | none => some ([d], r) := by
  rw [readDigits?.eq_def isDigit (d :: r)]
  dsimp only
  rw [if_pos digit]
  split
  case h_1 => exact absurd rfl plain
  case h_2 => rfl

theorem readDigits?_append {ds : List Char} (consists : Consists isDigit ds) (r : List Char) :
    readDigits? isDigit (ds ++ '\n' :: r) = some (ds, '\n' :: r) := by
  obtain ⟨nonempty, all⟩ := consists
  induction ds with
  | nil => exact absurd rfl nonempty
  | cons d ds ih =>
    have digit := all d (List.mem_cons_self ..)
    cases ds with
    | nil =>
      have ends : readDigits? isDigit ('\n' :: r) = none := by
        unfold readDigits?
        exact if_neg (by decide)
      show readDigits? isDigit (d :: '\n' :: r) = some ([d], '\n' :: r)
      rw [readDigits?_of_isDigit digit (by simp), ends]
    | cons e ds =>
      have others : ∀ c ∈ e :: ds, isDigit c = true := fun c member =>
        all c (List.mem_cons_of_mem _ member)
      have rest := ih (List.cons_ne_nil e ds) others
      have plain : e ≠ '_' := by
        rintro rfl
        exact absurd (others '_' (List.mem_cons_self ..)) (by decide)
      rw [List.cons_append, readDigits?_of_isDigit digit (by simpa using plain), rest]

theorem readFixed?_append {ds : List Char} (consists : Consists isDigit ds) (count : Nat)
    (r : List Char) : readFixed? count (ds ++ '\n' :: r) =
      if count ≤ ds.length then some (ofDigits (ds.take count), ds.drop count ++ '\n' :: r)
      else none := by
  unfold readFixed?
  by_cases fits : count ≤ ds.length
  · have digits : (ds.take count).all isDigit = true :=
      List.all_eq_true.mpr fun c member => consists.all c (List.mem_of_mem_take member)
    rw [if_pos fits, List.take_append_of_le_length fits, List.drop_append_of_le_length fits]
    exact if_pos ⟨List.length_take_of_le fits, digits⟩
  · -- The end of the line is among what is taken.
    have within : '\n' ∈ (ds ++ '\n' :: r).take count := by
      obtain ⟨more, rest⟩ : ∃ more, count - ds.length = more + 1 := ⟨count - ds.length - 1, by omega⟩
      rw [List.take_append, List.mem_append, rest, List.take_succ_cons]
      exact .inr (List.mem_cons_self ..)
    rw [if_neg fits]
    refine if_neg fun both => ?_
    exact absurd (List.all_eq_true.mp both.2 '\n' within) (by decide)

theorem exists_drop_append {ds : List Char} (consists : Consists isDigit ds) (count : Nat)
    (r : List Char) : ∃ c t, ds.drop count ++ '\n' :: r = c :: t ∧ c ≠ '-' ∧ c ≠ ':' := by
  cases left : ds.drop count with
  | nil => exact ⟨'\n', r, rfl, by decide, by decide⟩
  | cons c t =>
    have more : Consists isDigit (c :: t) := by
      refine ⟨List.cons_ne_nil c t, fun d member => consists.all d ?_⟩
      rw [← left] at member
      exact List.mem_of_mem_drop member
    refine ⟨c, t ++ '\n' :: r, rfl, ?_, ?_⟩
    · rintro rfl
      exact more.append_ne rfl [] _ (List.append_nil _)
    · rintro rfl
      exact more.append_ne rfl [] _ (List.append_nil _)

theorem skipMoment?_append {ds : List Char} (consists : Consists isDigit ds) (r : List Char) :
    skipMoment? (ds ++ '\n' :: r) = none := by
  -- A date has a dash after four digits, and a time a colon after two.
  have date : skipDate? (ds ++ '\n' :: r) = none := by
    unfold skipDate?
    rw [readFixed?_append consists]
    by_cases fits : 4 ≤ ds.length
    · obtain ⟨c, t, rest, dash, -⟩ := exists_drop_append consists 4 r
      rw [if_pos fits, rest]
      simp [dash]
    · rw [if_neg fits]
      rfl
  have time : skipTime? (ds ++ '\n' :: r) = none := by
    unfold skipTime? skipMinutes?
    rw [readFixed?_append consists]
    by_cases fits : 2 ≤ ds.length
    · obtain ⟨c, t, rest, -, colon⟩ := exists_drop_append consists 2 r
      rw [if_pos fits, rest]
      simp [colon]
    · rw [if_neg fits]
      rfl
  unfold skipMoment?
  rw [date]
  exact time

/-- No letter for a base comes after a leading zero. -/
theorem digits_append_eq {n : Nat} {b : Char} {r t : List Char}
    (same : digits n ++ '\n' :: r = '0' :: b :: t) : b = '\n' := by
  obtain ⟨c, ds, -, written⟩ := exists_digits_eq_cons n
  rw [written, List.cons_append] at same
  obtain ⟨rfl, after⟩ := List.cons.inj same
  rw [digits_leading_zero written] at after
  exact (List.cons.inj after).1.symm

section

variable {n : Nat} (small : n ≤ 9223372036854775807) (r : List Char)

include small

theorem readUnsigned?_digits :
    readUnsigned? false (digits n ++ '\n' :: r) = some (.integer n, '\n' :: r) := by
  have consists := consists_digits n
  have read := readDigits?_append consists r
  have alone : ¬ ((digits n).head? = some '0' ∧ (digits n).length ≠ 1) := by
    rintro ⟨zero, more⟩
    obtain ⟨cs, written⟩ := List.head?_eq_some_iff.mp zero
    rw [written, digits_leading_zero written] at more
    exact more rfl
  have whole : ofInt? (ofDigits (digits n)) = some (.integer n) := by
    rw [ofDigits_digits]
    exact if_pos ⟨by omega, by omega⟩
  unfold readUnsigned?
  split
  case h_1 same => exact absurd same (consists.append_ne rfl _ _)
  case h_2 same => exact absurd same (consists.append_ne rfl _ _)
  case h_3 =>
    rw [read, Option.bind_eq_bind, Option.bind_some]
    dsimp only
    rw [if_neg alone]
    simp [readPlaces?, readExponent?, whole]

theorem readNumber?_digits :
    readNumber? (digits n ++ '\n' :: r) = some (.integer n, '\n' :: r) := by
  have consists := consists_digits n
  have sign : readSign (digits n ++ '\n' :: r) = (false, digits n ++ '\n' :: r) := by
    unfold readSign
    split
    case h_1 same => exact absurd same (consists.append_ne rfl _ _)
    case h_2 same => exact absurd same (consists.append_ne rfl _ _)
    case h_3 => rfl
  unfold readNumber?
  split
  case h_1 same => exact absurd (digits_append_eq same) (by decide)
  case h_2 same => exact absurd (digits_append_eq same) (by decide)
  case h_3 same => exact absurd (digits_append_eq same) (by decide)
  case h_4 =>
    rw [sign]
    exact readUnsigned?_digits small r

theorem readScalar?_digits :
    readScalar? (digits n ++ '\n' :: r) = some (.integer n, '\n' :: r) := by
  have consists := consists_digits n
  have moment := skipMoment?_append consists r
  unfold readScalar?
  split
  case h_1 same => exact absurd same (consists.append_ne rfl _ _)
  case h_2 same => exact absurd same (consists.append_ne rfl _ _)
  case h_3 same =>
    rw [moment]
    refine (if_neg ?_).trans (readNumber?_digits small r)
    rintro (rfl | rfl)
    · exact consists.append_ne rfl _ _ same
    · exact consists.append_ne rfl _ _ same
  case h_4 same => exact absurd same (by simp)

end

/-- The text stands for `v` where the line ends after it, and begins with no gap. -/
structure Spells (cs : List Char) (v : Toml) : Prop where
  starts : ∀ r, skipGap (cs ++ r) = cs ++ r
  reads : ∀ room fuel r, readValue? room (fuel + 1) (cs ++ '\n' :: r) = some (v, '\n' :: r)

theorem spells_digits {n : Nat} (small : n ≤ 9223372036854775807) : Spells (digits n) (.integer n) := by
  have consists := consists_digits n
  constructor
  case starts => exact consists.skipGap_append rfl rfl
  case reads =>
    intro room fuel r
    unfold readValue?
    split
    case h_1 same => exact absurd same (consists.append_ne rfl _ _)
    case h_2 same => exact absurd same (consists.append_ne rfl _ _)
    case h_3 => exact readScalar?_digits small r

theorem readKey?_append {name : String} (bare : Consists isBare name.toList) {c d : Char}
    {r t : List Char} (ends : isBare c = false) (next : skipGap (c :: r) = d :: t) (single : d ≠ '.')
    (parts : Nat) : readKey? (parts + 1) (name.toList ++ c :: r) = some (⟨[], name⟩, d :: t) := by
  have read : readName? (name.toList ++ c :: r) = some (name, c :: r) := by
    unfold readName?
    split
    case h_1 same => exact absurd same (bare.append_ne rfl _ _)
    case h_2 same => exact absurd same (bare.append_ne rfl _ _)
    case h_3 =>
      rw [bare.takeWhile_append ends]
      split
      case h_1 none => exact absurd none bare.nonempty
      case h_2 => rw [List.drop_left, String.ofList_toList]
  unfold readKey?
  rw [bare.skipGap_append rfl rfl, read, Option.bind_eq_bind, Option.bind_some]
  dsimp only
  rw [next]
  split
  case h_1 same => exact absurd (List.cons.inj same).1 single
  case h_2 => rfl

theorem endOfLine?_of_ne {cs : List Char} (solid : skipGap cs = cs) (nonempty : cs ≠ [])
    (comment : ∀ t, cs ≠ '#' :: t) (feed : ∀ t, cs ≠ '\n' :: t) (carriage : ∀ t, cs ≠ '\r' :: t) :
    endOfLine? cs = none := by
  have skip : skipComment cs = cs := by
    unfold skipComment
    split
    case h_1 => exact absurd rfl (comment _)
    case h_2 => rfl
  unfold endOfLine?
  rw [solid, skip]
  split
  case h_1 => exact absurd rfl nonempty
  case h_2 =>
    unfold newline?
    split
    case h_1 => exact absurd rfl (feed _)
    case h_2 => exact absurd rfl (carriage _)
    case h_3 => rfl

def Holds (cs : List Char) (lines : List Line) : Prop :=
  ∀ fuel, cs.length < fuel → readLines? fuel cs = some lines

theorem holds_nil : Holds [] [] := by
  intro fuel enough
  cases fuel with
  | zero => cases enough
  | succ fuel => rfl

namespace Holds

variable {cs r : List Char} {lines : List Line} {line : Line} {v : Toml}

theorem blank (holds : Holds r lines) : Holds ('\n' :: r) lines := by
  intro fuel enough
  cases fuel with
  | zero => cases enough
  | succ fuel => exact holds fuel (Nat.lt_of_succ_lt_succ enough)

theorem cons (holds : Holds r lines) (solid : skipGap cs = cs) (ends : endOfLine? cs = none)
    (read : readLine? cs = some (line, '\n' :: r)) (shorter : r.length < cs.length) :
    Holds cs (line :: lines) := by
  intro fuel enough
  cases fuel with
  | zero => cases enough
  | succ fuel =>
    have rest := holds fuel (by omega)
    unfold readLines?
    rw [solid]
    split
    case h_1 => cases shorter
    case h_2 =>
      rw [ends, read]
      dsimp only
      rw [Option.bind_eq_bind, Option.bind_some]
      dsimp only
      rw [show endOfLine? ('\n' :: r) = some r from rfl]
      simp [rest]

theorem header (holds : Holds r lines) (name : String) (bare : Consists isBare name.toList) :
    Holds ('[' :: (name.toList ++ ']' :: '\n' :: r)) (.table ⟨[], name⟩ :: lines) := by
  apply holds.cons
  case solid => rfl
  case ends => exact endOfLine?_of_ne rfl (by simp) (by simp) (by simp) (by simp)
  case shorter =>
    simp
    omega
  case read =>
    have key : readKey? depth (name.toList ++ ']' :: '\n' :: r) =
        some (⟨[], name⟩, ']' :: '\n' :: r) := readKey?_append bare rfl rfl (by decide) 78
    unfold readLine?
    split
    case h_1 same => exact absurd (List.cons.inj same).2 (bare.append_ne rfl _ _)
    case h_2 same =>
      obtain rfl := (List.cons.inj same).2
      rw [key]
      rfl
    case h_3 other => exact absurd rfl (other _)

theorem assign (holds : Holds r lines) (name : String) (bare : Consists isBare name.toList)
    (spells : Spells cs v) :
    Holds (name.toList ++ ' ' :: '=' :: ' ' :: (cs ++ '\n' :: r))
      (.assign ⟨[], name⟩ v :: lines) := by
  have solid := bare.skipGap_append rfl rfl (' ' :: '=' :: ' ' :: (cs ++ '\n' :: r))
  apply holds.cons solid
  case ends =>
    exact endOfLine?_of_ne solid (by simp) (bare.append_ne rfl _) (bare.append_ne rfl _)
      (bare.append_ne rfl _)
  case shorter =>
    simp
    omega
  case read =>
    have key : readKey? depth (name.toList ++ ' ' :: '=' :: ' ' :: (cs ++ '\n' :: r)) =
        some (⟨[], name⟩, '=' :: ' ' :: (cs ++ '\n' :: r)) :=
      readKey?_append bare rfl rfl (by decide) 78
    have gap : skipGap (' ' :: (cs ++ '\n' :: r)) = cs ++ '\n' :: r := spells.starts ('\n' :: r)
    unfold readLine?
    split
    case h_1 same => exact absurd same (bare.append_ne rfl _ _)
    case h_2 same => exact absurd same (bare.append_ne rfl _ _)
    case h_3 => simp only [key, gap, spells.reads, Option.bind_eq_bind, Option.bind_some]

end Holds

end Orchestration.Toml
