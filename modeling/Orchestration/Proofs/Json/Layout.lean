import Orchestration.Proofs.Json.Members
import Orchestration.Proofs.Json.Tokens
import Mathlib.Data.List.DropRight

namespace Orchestration.Json

open Orchestration.Text

/-- A value that text without fractions stands for: its numbers are whole. -/
inductive Legible : Json → Prop
  | null : Legible .null
  | bool (b : Bool) : Legible (.bool b)
  | int {n : Int} (word : isWord n = true) : Legible (.int n)
  | string (s : String) : Legible (.string s)
  | array {items : List Json} (each : ∀ v ∈ items, Legible v) : Legible (.array items)
  | object {members : List (String × Json)} (each : ∀ member ∈ members, Legible member.2) :
      Legible (.object members)

/-- A value without fractions as it is kept: the members of its objects are sorted. -/
inductive Exact : Json → Prop
  | null : Exact .null
  | bool (b : Bool) : Exact (.bool b)
  | int {n : Int} (word : isWord n = true) : Exact (.int n)
  | string (s : String) : Exact (.string s)
  | array {items : List Json} (each : ∀ v ∈ items, Exact v) : Exact (.array items)
  | object {members : List (String × Json)} (sorted : Sorted members)
      (each : ∀ member ∈ members, Exact member.2) : Exact (.object members)

theorem Exact.legible {v : Json} (exact : Exact v) : Legible v := by
  induction exact with
  | null => exact .null
  | bool b => exact .bool b
  | int word => exact .int word
  | string s => exact .string s
  | array _ ih => exact .array ih
  | object _ _ ih => exact .object ih

theorem exact_ofMembers {ms : List (String × Json)} (each : ∀ m ∈ ms, m.2.Exact) :
    (ofMembers ms).Exact := by
  refine .object (sorted_setMembers .nil ms) fun m member => each m ?_
  exact (mem_of_mem_setMembers member).resolve_left List.not_mem_nil

mutual

def isExact : Json → Bool
  | .null | .bool _ | .string _ => true
  | .int n => isWord n
  | .number _ | .unreadable => false
  | .array items => areExact items
  | .object members => decide (Sorted members) && areExactMembers members

def areExact : List Json → Bool
  | [] => true
  | v :: vs => v.isExact && areExact vs

def areExactMembers : List (String × Json) → Bool
  | [] => true
  | (_, v) :: ms => v.isExact && areExactMembers ms

end

theorem areExact_iff {vs : List Json} : areExact vs = true ↔ ∀ v ∈ vs, v.isExact = true := by
  induction vs with
  | nil => simp [areExact]
  | cons v vs ih => simp only [areExact, Bool.and_eq_true, ih, List.forall_mem_cons]

theorem areExactMembers_iff {ms : List (String × Json)} :
    areExactMembers ms = true ↔ ∀ m ∈ ms, m.2.isExact = true := by
  induction ms with
  | nil => simp [areExactMembers]
  | cons m ms ih => simp only [areExactMembers, Bool.and_eq_true, ih, List.forall_mem_cons]

theorem isExact_of_exact {v : Json} (exact : Exact v) : v.isExact = true := by
  induction exact with
  | null | bool | string => rfl
  | int word => exact word
  | array each ih => exact areExact_iff.mpr ih
  | object sorted each ih =>
    rw [isExact, decide_eq_true sorted, Bool.true_and]
    exact areExactMembers_iff.mpr ih

mutual

theorem exact_of_isExact : ∀ v : Json, v.isExact = true → Exact v
  | .null, _ => .null
  | .bool b, _ => .bool b
  | .string s, _ => .string s
  | .int _, word => .int word
  | .array items, exact => .array (exact_of_areExact items exact)
  | .object members, exact => by
    obtain ⟨sorted, each⟩ := Bool.and_eq_true_iff.mp exact
    exact .object (of_decide_eq_true sorted) (exact_of_areExactMembers members each)

theorem exact_of_areExact : ∀ vs, areExact vs = true → ∀ v ∈ vs, Exact v
  | [], _ => fun _ member => nomatch member
  | v :: vs, exact => by
    obtain ⟨here, there⟩ := Bool.and_eq_true_iff.mp exact
    exact List.forall_mem_cons.mpr ⟨exact_of_isExact v here, exact_of_areExact vs there⟩

theorem exact_of_areExactMembers : ∀ ms, areExactMembers ms = true → ∀ m ∈ ms, Exact m.2
  | [], _ => fun _ member => nomatch member
  | (_, v) :: ms, exact => by
    obtain ⟨here, there⟩ := Bool.and_eq_true_iff.mp exact
    exact List.forall_mem_cons.mpr ⟨exact_of_isExact v here, exact_of_areExactMembers ms there⟩

end

instance : DecidablePred Exact := fun v =>
  decidable_of_iff _ ⟨exact_of_isExact v, isExact_of_exact⟩

structure Layout where
  line : Nat → List Char
  gap : List Char
  line_space : ∀ depth, ∀ c ∈ line depth, isSpace c = true
  gap_space : ∀ c ∈ gap, isSpace c = true

namespace Layout

def compact : Layout := ⟨fun _ => [], [], by simp, by simp⟩

def pretty : Layout where
  line := newline
  gap := [' ']
  line_space := by
    intro depth c member
    rcases List.mem_cons.mp member with rfl | blank
    · rfl
    · rw [List.eq_of_mem_replicate blank]
      rfl
  gap_space := by simp [isSpace]

@[simp] theorem compact_line (depth : Nat) : compact.line depth = [] := rfl

@[simp] theorem compact_gap : compact.gap = [] := rfl

@[simp] theorem pretty_line (depth : Nat) : pretty.line depth = newline depth := rfl

@[simp] theorem pretty_gap : pretty.gap = [' '] := rfl

mutual

def chars (l : Layout) (depth : Nat) : Json → List Char
  | .array [] => ['[', ']']
  | .object [] => ['\x7b', '\x7d']
  | .array items => '[' :: l.elements (depth + 1) items ++ l.line depth ++ [']']
  | .object members => '\x7b' :: l.members (depth + 1) members ++ l.line depth ++ ['\x7d']
  | v => v.chars

def elements (l : Layout) (depth : Nat) : List Json → List Char
  | [] => []
  | [v] => l.line depth ++ l.chars depth v
  | v :: vs => l.line depth ++ l.chars depth v ++ ',' :: l.elements depth vs

def members (l : Layout) (depth : Nat) : List (String × Json) → List Char
  | [] => []
  | [(k, v)] => l.line depth ++ quote k ++ ':' :: l.gap ++ l.chars depth v
  | (k, v) :: ms =>
    l.line depth ++ quote k ++ ':' :: l.gap ++ l.chars depth v ++ ',' :: l.members depth ms

end

mutual

theorem compact_chars (depth : Nat) : ∀ v, compact.chars depth v = v.chars
  | .null | .unreadable | .bool _ | .int _ | .number _ | .string _ => rfl
  | .array [] | .object [] => rfl
  | .array (v :: vs) => by
    have rest := compact_elements (depth + 1) (v :: vs) (by simp)
    simp [chars, Json.chars, rest]
  | .object (m :: ms) => by
    have rest := compact_members (depth + 1) (m :: ms) (by simp)
    simp [chars, Json.chars, rest]

theorem compact_elements (depth : Nat) :
    ∀ vs, vs ≠ [] → elementChars vs = compact.elements depth vs ++ [']']
  | [], nonempty => absurd rfl nonempty
  | [v], _ => by
    have value := compact_chars depth v
    simp [elements, elementChars, value]
  | v :: w :: vs, _ => by
    have value := compact_chars depth v
    have rest := compact_elements depth (w :: vs) (by simp)
    simp [elements, elementChars, value, rest]

theorem compact_members (depth : Nat) :
    ∀ ms, ms ≠ [] → memberChars ms = compact.members depth ms ++ ['\x7d']
  | [], nonempty => absurd rfl nonempty
  | [(k, v)], _ => by
    have value := compact_chars depth v
    simp [members, memberChars, value]
  | (k, v) :: m :: ms, _ => by
    have value := compact_chars depth v
    have rest := compact_members depth (m :: ms) (by simp)
    simp [members, memberChars, value, rest]

end

mutual

theorem pretty_chars (depth : Nat) : ∀ v, pretty.chars depth v = v.indented depth
  | .null | .unreadable | .bool _ | .int _ | .number _ | .string _ => rfl
  | .array [] | .object [] => rfl
  | .array (v :: vs) => by
    have rest := pretty_elements (depth + 1) (v :: vs)
    simp [chars, indented, rest]
  | .object (m :: ms) => by
    have rest := pretty_members (depth + 1) (m :: ms)
    simp [chars, indented, rest]

theorem pretty_elements (depth : Nat) : ∀ vs, pretty.elements depth vs = indentedElements depth vs
  | [] => rfl
  | [v] => by
    have value := pretty_chars depth v
    simp [elements, indentedElements, value]
  | v :: w :: vs => by
    have value := pretty_chars depth v
    have rest := pretty_elements depth (w :: vs)
    simp [elements, indentedElements, value, rest]

theorem pretty_members (depth : Nat) : ∀ ms, pretty.members depth ms = indentedMembers depth ms
  | [] => rfl
  | [(k, v)] => by
    have value := pretty_chars depth v
    simp [members, indentedMembers, value]
  | (k, v) :: m :: ms => by
    have value := pretty_chars depth v
    have rest := pretty_members depth (m :: ms)
    simp [members, indentedMembers, value, rest]

end

end Layout

theorem skipSpace_append {w : List Char} (blank : ∀ c ∈ w, isSpace c = true) (r : List Char) :
    skipSpace (w ++ r) = skipSpace r := List.dropWhile_append_of_pos blank

theorem skipSpace_cons {c : Char} (other : isSpace c = false) (r : List Char) :
    skipSpace (c :: r) = c :: r := by
  unfold skipSpace
  rw [List.dropWhile_cons_of_neg (by simp [other])]

theorem Ends.append {w r : List Char} (blank : ∀ c ∈ w, isSpace c = true) (ends : Ends r) :
    Ends (w ++ r) := by
  cases w with
  | nil => exact ends
  | cons c w =>
    apply ends_cons
    have space := blank c (List.mem_cons_self ..)
    simp only [isSpace, Bool.or_eq_true, beq_iff_eq] at space
    rcases space with ((rfl | rfl) | rfl) | rfl
    all_goals decide

theorem skipSpace_skipSpace (cs : List Char) : skipSpace (skipSpace cs) = skipSpace cs :=
  List.dropWhile_idempotent isSpace cs

theorem readValue?_skipSpace (fuel : Nat) (cs : List Char) :
    readValue? fuel (skipSpace cs) = readValue? fuel cs := by
  cases fuel with
  | zero => rfl
  | succ fuel => simp only [readValue?, skipSpace_skipSpace]

theorem readElements?_skipSpace (fuel : Nat) (cs : List Char) :
    readElements? fuel (skipSpace cs) = readElements? fuel cs := by
  cases fuel with
  | zero => rfl
  | succ fuel => simp only [readElements?, readValue?_skipSpace]

theorem readMembers?_skipSpace (fuel : Nat) (cs : List Char) :
    readMembers? fuel (skipSpace cs) = readMembers? fuel cs := by
  cases fuel with
  | zero => rfl
  | succ fuel => simp only [readMembers?, skipSpace_skipSpace]

def Opens (c : Char) : Prop := isSpace c = false ∧ c ≠ ']' ∧ c ≠ '\x7d'

theorem opens_of_isDigit {c : Char} (digit : isDigit c = true) : Opens c := by
  refine ⟨?_, ?_, ?_⟩
  · by_contra space
    simp only [isSpace, Bool.not_eq_false, Bool.or_eq_true, beq_iff_eq] at space
    rcases space with ((rfl | rfl) | rfl) | rfl
    all_goals cases digit
  · rintro rfl
    cases digit
  · rintro rfl
    cases digit

theorem exists_signed_eq_cons (n : Int) : ∃ c r, (c = '-' ∨ isDigit c = true) ∧ signed n = c :: r := by
  unfold signed
  split
  · exact ⟨'-', _, .inl rfl, rfl⟩
  · obtain ⟨c, r, digit, begins⟩ := exists_digits_eq_cons n.natAbs
    exact ⟨c, r, .inr digit, begins⟩

theorem opens_of_signed {n : Int} {c : Char} {r : List Char} (begins : signed n = c :: r) : Opens c := by
  obtain ⟨d, s, first, same⟩ := exists_signed_eq_cons n
  obtain ⟨rfl, rfl⟩ := List.cons.inj (begins.symm.trans same)
  rcases first with rfl | digit
  · exact ⟨rfl, by decide, by decide⟩
  · exact opens_of_isDigit digit

theorem readValue?_signed {n : Int} (word : isWord n = true) (fuel : Nat) {r : List Char}
    (ends : Ends r) : readValue? (fuel + 1) (signed n ++ r) = some (.int n, r) := by
  have number := readNumber?_signed word ends
  obtain ⟨c, ds, first, begins⟩ := exists_signed_eq_cons n
  obtain ⟨visible, -, -⟩ := opens_of_signed begins
  rw [begins, List.cons_append] at number ⊢
  unfold readValue?
  rw [skipSpace_cons visible]
  split
  case h_7 => exact number
  all_goals
    rename_i same
    rw [(List.cons.inj same).1] at first
    rcases first with minus | digit
    · exact absurd minus (by decide)
    · cases digit

theorem ofReadMembers_some (ms : List (String × Json)) :
    ofReadMembers (ms.map fun m => (some m.1, m.2)) = .object ms := by
  have read : (ms.map fun m => (some m.1, m.2)).mapM (fun m => m.1.map (·, m.2)) = some ms := by
    induction ms with
    | nil => rfl
    | cons m ms ih => simp [List.mapM_cons, ih]
  unfold ofReadMembers
  split
  case h_1 found => exact congrArg object (Option.some.inj (found.symm.trans read))
  case h_2 failed => exact absurd (failed.symm.trans read) (by simp)

namespace Layout

variable (l : Layout) {depth : Nat}

theorem exists_chars_eq_cons (depth : Nat) (v : Json) :
    ∃ c r, Opens c ∧ l.chars depth v = c :: r := by
  have number (n : Int) (s : List Char) : ∃ c r, Opens c ∧ signed n ++ s = c :: r := by
    obtain ⟨c, r, -, begins⟩ := exists_signed_eq_cons n
    refine ⟨c, r ++ s, opens_of_signed begins, ?_⟩
    rw [begins]
    rfl
  have brackets : Opens 'n' ∧ Opens 't' ∧ Opens 'f' ∧ Opens '"' ∧ Opens '[' ∧ Opens '\x7b' := by
    unfold Opens
    decide
  obtain ⟨null, yes, no, quote, square, curly⟩ := brackets
  cases v with
  | null => exact ⟨'n', _, null, rfl⟩
  | unreadable => exact ⟨'n', _, null, rfl⟩
  | bool b =>
    cases b with
    | true => exact ⟨'t', _, yes, rfl⟩
    | false => exact ⟨'f', _, no, rfl⟩
  | int n =>
    obtain ⟨c, r, opens, begins⟩ := number n []
    exact ⟨c, r, opens, (List.append_nil _).symm.trans begins⟩
  | number n => exact number n.mantissa ('e' :: signed n.exponent)
  | string s => exact ⟨'"', _, quote, rfl⟩
  | array items => cases items <;> exact ⟨'[', _, square, rfl⟩
  | object members => cases members <;> exact ⟨'\x7b', _, curly, rfl⟩

def Recovers (depth : Nat) (v : Json) : Prop :=
  ∀ fuel r, (l.chars depth v).length < fuel → Ends r →
    readValue? fuel (l.chars depth v ++ r) = some (v, r)

variable {l} {w r : List Char} {fuel : Nat}

theorem Recovers.of_succ {v : Json} (reads : ∀ fuel r, (l.chars depth v).length ≤ fuel → Ends r →
    readValue? (fuel + 1) (l.chars depth v ++ r) = some (v, r)) : l.Recovers depth v := by
  intro fuel r enough ends
  cases fuel with
  | zero => omega
  | succ fuel => exact reads fuel r (by omega) ends

theorem Recovers.skip {v : Json} (recovers : l.Recovers depth v) (blank : ∀ c ∈ w, isSpace c = true)
    (enough : (l.chars depth v).length < fuel) (ends : Ends r) :
    readValue? fuel (w ++ (l.chars depth v ++ r)) = some (v, r) := by
  rw [← readValue?_skipSpace, skipSpace_append blank, readValue?_skipSpace]
  exact recovers fuel r enough ends

theorem readElements?_elements {vs : List Json} (nonempty : vs ≠ [])
    (each : ∀ v ∈ vs, l.Recovers depth v) (blank : ∀ c ∈ w, isSpace c = true)
    (enough : (l.elements depth vs).length + 1 < fuel) :
    readElements? fuel (l.elements depth vs ++ (w ++ ']' :: r)) = some (vs, r) := by
  induction vs generalizing fuel with
  | nil => exact absurd rfl nonempty
  | cons v vs ih =>
    have here := each v (List.mem_cons_self ..)
    have line := l.line_space depth
    obtain ⟨fuel, rfl⟩ : ∃ n, fuel = n + 1 := ⟨fuel - 1, by omega⟩
    cases vs with
    | nil =>
      have closes : Ends (w ++ ']' :: r) := (ends_cons (by decide) r).append blank
      simp only [elements, List.length_append] at enough
      have value := here.skip line (by omega : _ < fuel) closes
      simp only [elements, List.append_assoc, readElements?, value, Option.bind_eq_bind,
        Option.bind_some, skipSpace_append blank]
      rfl
    | cons v' vs =>
      simp only [elements, List.length_append, List.length_cons] at enough
      have goes : Ends (',' :: (l.elements depth (v' :: vs) ++ (w ++ ']' :: r))) :=
        ends_cons (by decide) _
      have value := here.skip line (by omega : _ < fuel) goes
      have rest := ih (by simp) (fun v member => each v (List.mem_cons_of_mem _ member))
        (by omega : (l.elements depth (v' :: vs)).length + 1 < fuel)
      have comma : skipSpace (',' :: (l.elements depth (v' :: vs) ++ (w ++ ']' :: r))) =
          ',' :: (l.elements depth (v' :: vs) ++ (w ++ ']' :: r)) := rfl
      simp only [elements, List.append_assoc, List.cons_append, readElements?, value,
        Option.bind_eq_bind, Option.bind_some, comma, rest]

theorem readMembers?_members {ms : List (String × Json)} (nonempty : ms ≠ [])
    (each : ∀ member ∈ ms, l.Recovers depth member.2) (blank : ∀ c ∈ w, isSpace c = true)
    (enough : (l.members depth ms).length + 1 < fuel) :
    readMembers? fuel (l.members depth ms ++ (w ++ '\x7d' :: r)) =
      some (ms.map fun (k, v) => (some k, v), r) := by
  induction ms generalizing fuel with
  | nil => exact absurd rfl nonempty
  | cons m ms ih =>
    obtain ⟨k, v⟩ := m
    have here : l.Recovers depth v := each (k, v) (List.mem_cons_self ..)
    have key (s : List Char) : skipSpace (l.line depth ++ '"' :: s) = '"' :: s :=
      skipSpace_append (l.line_space depth) _
    have colon (s : List Char) : skipSpace (':' :: s) = ':' :: s := rfl
    obtain ⟨fuel, rfl⟩ : ∃ n, fuel = n + 1 := ⟨fuel - 1, by omega⟩
    cases ms with
    | nil =>
      have closes : Ends (w ++ '\x7d' :: r) := (ends_cons (by decide) r).append blank
      simp only [members, List.length_append, List.length_cons] at enough
      have value := here.skip l.gap_space (by omega : _ < fuel) closes
      simp only [members, quote, List.append_assoc, List.cons_append, List.nil_append, readMembers?,
        key, readString?_flatMap, colon, value, Option.bind_eq_bind, Option.bind_some,
        skipSpace_append blank]
      rfl
    | cons m' ms =>
      simp only [members, List.length_append, List.length_cons] at enough
      have goes : Ends (',' :: (l.members depth (m' :: ms) ++ (w ++ '\x7d' :: r))) :=
        ends_cons (by decide) _
      have value := here.skip l.gap_space (by omega : _ < fuel) goes
      have rest := ih (by simp) (fun m member => each m (List.mem_cons_of_mem _ member))
        (by omega : (l.members depth (m' :: ms)).length + 1 < fuel)
      have comma : skipSpace (',' :: (l.members depth (m' :: ms) ++ (w ++ '\x7d' :: r))) =
          ',' :: (l.members depth (m' :: ms) ++ (w ++ '\x7d' :: r)) := rfl
      simp only [members, quote, List.append_assoc, List.cons_append, List.nil_append, readMembers?,
        key, readString?_flatMap, colon, value, Option.bind_eq_bind, Option.bind_some, comma, rest]
      rfl

theorem skipSpace_elements (l : Layout) (depth : Nat) (v : Json) (vs : List Json) (s : List Char) :
    ∃ c t, Opens c ∧ skipSpace (l.elements depth (v :: vs) ++ s) = c :: t := by
  obtain ⟨c, t, opens, begins⟩ := l.exists_chars_eq_cons depth v
  have line := skipSpace_append (l.line_space depth)
  cases vs
  all_goals
    simp only [elements, List.append_assoc, line, begins, List.cons_append, skipSpace_cons opens.1]
    exact ⟨c, _, opens, rfl⟩

theorem skipSpace_members (l : Layout) (depth : Nat) (m : String × Json) (ms : List (String × Json))
    (s : List Char) : ∃ t, skipSpace (l.members depth (m :: ms) ++ s) = '"' :: t := by
  obtain ⟨k, v⟩ := m
  have key (t : List Char) : skipSpace (l.line depth ++ '"' :: t) = '"' :: t :=
    skipSpace_append (l.line_space depth) _
  cases ms
  all_goals
    simp only [members, quote, List.append_assoc, List.cons_append, key]
    exact ⟨_, rfl⟩

theorem recovers_of_legible {v : Json} (legible : Legible v) : ∀ depth, l.Recovers depth v := by
  induction legible with
  | null => exact fun depth => .of_succ fun fuel r _ _ => rfl
  | bool b => exact fun depth => .of_succ fun fuel r _ _ => by cases b <;> rfl
  | int word => exact fun depth => .of_succ fun fuel r _ ends => readValue?_signed word fuel ends
  | string s =>
    refine fun depth => .of_succ fun fuel r _ _ => ?_
    have body := readString?_flatMap s r
    have first (t : List Char) : skipSpace ('"' :: t) = '"' :: t := rfl
    simp only [chars, Json.chars, quote, List.append_assoc, List.cons_append, List.nil_append,
      readValue?, first, body]
    rfl
  | array each ih =>
    rename_i items
    refine fun depth => .of_succ fun fuel r enough _ => ?_
    have first (t : List Char) : skipSpace ('[' :: t) = '[' :: t := rfl
    cases items with
    | nil => rfl
    | cons v vs =>
      simp only [chars, List.length_append, List.length_cons] at enough
      have inner := readElements?_elements (w := l.line depth) (r := r) (List.cons_ne_nil v vs)
        (fun v member => ih v member (depth + 1)) (l.line_space depth) (by omega : _ < fuel)
      -- No element begins with the closing bracket, so that the reader does not take the array for empty.
      obtain ⟨c, t, opens, begins⟩ := skipSpace_elements l (depth + 1) v vs (l.line depth ++ ']' :: r)
      rw [← readElements?_skipSpace, begins] at inner
      simp only [chars, List.append_assoc, List.cons_append, List.nil_append, readValue?, first,
        begins]
      split
      · rename_i same
        exact absurd (List.cons.inj same).1 opens.2.1
      · rw [inner]
        rfl
  | object each ih =>
    rename_i members
    refine fun depth => .of_succ fun fuel r enough _ => ?_
    have first (t : List Char) : skipSpace ('\x7b' :: t) = '\x7b' :: t := rfl
    cases members with
    | nil => rfl
    | cons m ms =>
      simp only [chars, List.length_append, List.length_cons] at enough
      have inner := readMembers?_members (w := l.line depth) (r := r) (List.cons_ne_nil m ms)
        (fun m member => ih m member (depth + 1)) (l.line_space depth) (by omega : _ < fuel)
      obtain ⟨t, begins⟩ := skipSpace_members l (depth + 1) m ms (l.line depth ++ '\x7d' :: r)
      rw [← readMembers?_skipSpace, begins] at inner
      simp only [chars, List.append_assoc, List.cons_append, List.nil_append, readValue?, first,
        begins]
      show (readMembers? fuel ('"' :: t)).map _ = _
      rw [inner, Option.map_some]
      dsimp only
      rw [ofReadMembers_some]

theorem ofChars?_chars {v : Json} (legible : Legible v) (depth : Nat) :
    ofChars? (l.chars depth v) = some v := by
  have read := recovers_of_legible (l := l) legible depth ((l.chars depth v).length + 1) [] (by omega)
    ends_nil
  rw [List.append_nil] at read
  unfold ofChars?
  rw [read]
  rfl

end Layout

theorem ofText?_text {v : Json} (legible : Legible v) : ofText? v.text = some v := by
  unfold ofText? text
  rw [String.toList_ofList, ← Layout.compact_chars 0]
  exact Layout.ofChars?_chars legible 0

theorem ofText?_prettyText {v : Json} (legible : Legible v) : ofText? v.prettyText = some v := by
  unfold ofText? prettyText
  rw [String.toList_ofList, ← Layout.pretty_chars 0]
  exact Layout.ofChars?_chars legible 0

end Orchestration.Json
