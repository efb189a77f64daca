import Orchestration.Proofs.Entries
import Orchestration.Proofs.Toml.Lines
import Orchestration.Toml.Writer

namespace Orchestration.Toml

open Text

def Datum.value : Datum → Toml
  | .number n => .integer n.toNat
  | .word w => .string w.text

def Datum.number? : Datum → Option UInt64
  | .number n => some n
  | .word _ => none

def numbers (data : List (Word × Datum)) : List UInt64 := data.filterMap (·.2.number?)

def entriesOf (data : List (Word × Datum)) : Entries := data.map fun (name, d) => (name.text, d.value)

def tablesOf (sections : List Section) : Entries :=
  sections.map fun s => (s.name.text, .table .header (entriesOf s.data))

def linesOf (data : List (Word × Datum)) : List Line :=
  data.map fun (name, d) => .assign ⟨[], name.text⟩ d.value

def Section.lines (s : Section) : List Line := .table ⟨[], s.name.text⟩ :: linesOf s.data

namespace Sheet

def numbers (s : Sheet) : List UInt64 := s.sections.flatMap fun s => Toml.numbers s.data

/-- The document that a sheet stands for. -/
def value (s : Sheet) : Toml := .table .header (tablesOf s.sections)

end Sheet

section Fits

theorem Datum.write?_isSome_iff (d : Datum) :
    d.write?.isSome ↔ ∀ n, d.number? = some n → n.toNat < 2 ^ 63 := by
  cases d with
  | word => exact iff_of_true rfl nofun
  | number n =>
    have read (m : UInt64) : (Datum.number n).number? = some m ↔ m = n := by
      rw [number?, Option.some.injEq, eq_comm]
    unfold write?
    simp only [read, forall_eq]
    split
    · exact iff_of_true rfl (by omega)
    · exact iff_of_false Bool.false_ne_true (by omega)

theorem writeLines?_isSome_iff (data : List (Word × Datum)) :
    (writeLines? data).isSome ↔ ∀ n ∈ numbers data, n.toNat < 2 ^ 63 := by
  induction data with
  | nil => exact iff_of_true rfl nofun
  | cons entry data ih =>
    obtain ⟨name, d⟩ := entry
    have both : (writeLines? ((name, d) :: data)).isSome ↔ d.write?.isSome ∧ (writeLines? data).isSome := by
      rw [writeLines?]
      cases d.write? <;> cases writeLines? data <;> simp
    rw [both, ih, d.write?_isSome_iff]
    unfold numbers
    simp only [List.mem_filterMap, List.exists_mem_cons_iff, or_imp, forall_and]

theorem Section.write?_isSome_iff (s : Section) :
    s.write?.isSome ↔ ∀ n ∈ numbers s.data, n.toNat < 2 ^ 63 := by
  rw [write?, Option.isSome_map, writeLines?_isSome_iff]

theorem writeSections?_cons (s s' : Section) (sections : List Section) :
    writeSections? (s :: s' :: sections) = s.write?.bind fun first =>
      (writeSections? (s' :: sections)).map fun rest => first ++ '\n' :: rest := by
  simp only [Option.map_eq_bind]
  rfl

theorem writeSections?_isSome_iff (sections : List Section) :
    (writeSections? sections).isSome ↔ ∀ s ∈ sections, s.write?.isSome := by
  induction sections with
  | nil => exact iff_of_true rfl nofun
  | cons s sections ih =>
    rw [List.forall_mem_cons, ← ih]
    cases sections with
    | nil => exact (and_iff_left rfl).symm
    | cons s' sections =>
      rw [writeSections?_cons]
      cases s.write? <;> cases writeSections? (s' :: sections) <;> simp

/-- A sheet is written if each of its numbers fits. -/
theorem Sheet.write?_isSome_iff (s : Sheet) : s.write?.isSome ↔ ∀ n ∈ s.numbers, n.toNat < 2 ^ 63 := by
  rw [write?, Option.isSome_map, writeSections?_isSome_iff]
  simp only [Section.write?_isSome_iff, numbers, List.mem_flatMap]
  exact ⟨fun each n ⟨s, listed, member⟩ => each s listed n member,
    fun each s listed n member => each n ⟨s, listed, member⟩⟩

end Fits

section Reads

variable {cs r : List Char} {lines : List Line}

theorem isPlain_of_isBare {c : Char} (bare : isBare c = true) : isPlain c = true := by
  have ascii : ∀ n < 128, isBare (.ofNat n) = true → isPlain (.ofNat n) = true := by decide +kernel
  by_cases small : c.toNat < 128
  · rw [← Char.ofNat_toNat c] at bare ⊢
    exact ascii c.toNat small bare
  · simp only [isPlain, Bool.or_eq_true, Bool.and_eq_true, decide_eq_true_eq, bne_iff_ne]
    omega

theorem readQuoted?_bare (bare : ∀ c ∈ cs, isBare c = true) (r : List Char) :
    readQuoted? (cs ++ '"' :: r) = some (cs, r) := by
  induction cs with
  | nil => rfl
  | cons c cs ih =>
    have here := bare c (List.mem_cons_self ..)
    have plain := isPlain_of_isBare here
    have slash : c ≠ '\\' := by
      rintro rfl
      exact absurd here (by decide)
    have rest := ih fun d member => bare d (List.mem_cons_of_mem _ member)
    rw [List.cons_append]
    unfold readQuoted?
    split
    case h_1 same => cases same
    case h_2 same =>
      cases (List.cons.inj same).1
      exact absurd here (by decide)
    case h_3 same => exact absurd (List.cons.inj same).1 slash
    case h_4 same => exact absurd (List.cons.inj same).1 slash
    case h_5 same => exact absurd (List.cons.inj same).1 slash
    case h_6 same =>
      obtain ⟨rfl, rfl⟩ := List.cons.inj same
      rw [rest]
      simp [plain, slash]

theorem Word.consists (w : Word) : Consists isBare w.text.toList :=
  ⟨w.bare.1, List.all_eq_true.mp w.bare.2⟩

theorem Word.spells (w : Word) : Spells ('"' :: w.text.toList ++ ['"']) (.string w.text) := by
  have read (r : List Char) : readString? ('"' :: (w.text.toList ++ '"' :: r)) =
      some (w.text.toList, r) := by
    have quoted := readQuoted?_bare w.consists.all r
    unfold readString?
    split
    case h_1 same => exact absurd (List.cons.inj same).2 (w.consists.append_ne rfl _ _)
    case h_2 same =>
      obtain rfl := (List.cons.inj same).2
      exact quoted
    case h_3 same => cases (List.cons.inj same).1
    case h_4 same => cases (List.cons.inj same).1
    case h_5 single _ _ => exact (single _ rfl).elim
  constructor
  case starts => exact fun _ => rfl
  case reads =>
    intro room fuel r
    have scalar := read ('\n' :: r)
    simp only [List.cons_append, List.append_assoc, List.nil_append]
    show readScalar? ('"' :: (w.text.toList ++ '"' :: '\n' :: r)) = _
    unfold readScalar?
    simp [scalar]

theorem Datum.spells {d : Datum} (written : d.write? = some cs) : Spells cs d.value := by
  cases d with
  | word w =>
    obtain rfl := Option.some.inj written
    exact w.spells
  | number n =>
    obtain ⟨small, same⟩ := Option.ite_none_right_eq_some.mp written
    obtain rfl := Option.some.inj same
    exact spells_digits small

theorem Holds.data (holds : Holds r lines) {data : List (Word × Datum)}
    (written : writeLines? data = some cs) : Holds (cs ++ r) (linesOf data ++ lines) := by
  induction data generalizing cs with
  | nil =>
    obtain rfl := Option.some.inj written
    exact holds
  | cons entry data ih =>
    obtain ⟨name, d⟩ := entry
    rw [writeLines?] at written
    obtain ⟨value, here, written⟩ := Option.bind_eq_some_iff.mp written
    obtain ⟨rest, later, written⟩ := Option.bind_eq_some_iff.mp written
    obtain rfl := Option.some.inj written
    have all := (ih later).assign name.text name.consists (Datum.spells here)
    simpa [linesOf] using all

theorem Holds.section (holds : Holds r lines) {s : Section} (written : s.write? = some cs) :
    Holds (cs ++ r) (s.lines ++ lines) := by
  obtain ⟨text, body, rfl⟩ := Option.map_eq_some_iff.mp written
  have all := (holds.data body).header s.name.text s.name.consists
  simpa [Section.lines] using all

theorem holds_sections {sections : List Section} (written : writeSections? sections = some cs) :
    Holds cs (sections.flatMap Section.lines) := by
  induction sections generalizing cs with
  | nil =>
    obtain rfl := Option.some.inj written
    exact holds_nil
  | cons s sections ih =>
    cases sections with
    | nil =>
      have alone := holds_nil.section (s := s) written
      simpa using alone
    | cons s' sections =>
      rw [writeSections?_cons] at written
      obtain ⟨first, here, written⟩ := Option.bind_eq_some_iff.mp written
      obtain ⟨rest, later, rfl⟩ := Option.map_eq_some_iff.mp written
      exact (ih later).blank.section here

theorem skipByteOrderMark_of_written {sections : List Section}
    (written : writeSections? sections = some cs) : skipByteOrderMark cs = cs := by
  have marked {s : Section} {first : List Char} (written : s.write? = some first) (r : List Char) :
      skipByteOrderMark (first ++ r) = first ++ r := by
    obtain ⟨body, -, rfl⟩ := Option.map_eq_some_iff.mp written
    rfl
  cases sections with
  | nil =>
    obtain rfl := Option.some.inj written
    rfl
  | cons s sections =>
    cases sections with
    | nil =>
      rw [← List.append_nil cs]
      exact marked written []
    | cons s' sections =>
      rw [writeSections?_cons] at written
      obtain ⟨first, here, written⟩ := Option.bind_eq_some_iff.mp written
      obtain ⟨rest, -, rfl⟩ := Option.map_eq_some_iff.mp written
      exact marked here _

end Reads

section Builds

variable {es inner : Entries} {name : String}

theorem lookup_eq_none_of_not_mem {key : String} (new : key ∉ es.map (·.1)) : es.lookup key = none := by
  rw [List.lookup_eq_none_iff]
  intro entry member
  exact bne_iff_ne.mpr fun same => new (same ▸ List.mem_map_of_mem member)

theorem add?_table (new : es.lookup name = none) (heading : List String) :
    Document.add? ⟨es, heading⟩ (.table ⟨[], name⟩) =
      some ⟨es ++ [(name, .table .header [])], [name]⟩ := by
  have declared : declareTable? name es = some (es ++ [(name, .table .header [])]) := by
    unfold declareTable?
    rw [new]
    exact congrArg some (put_of_new new _)
  simp [Document.add?, alter?, declared, Key.path]

theorem add?_assign (new : es.lookup name = none) {key : String} (free : inner.lookup key = none)
    (v : Toml) :
    Document.add? ⟨es ++ [(name, .table .header inner)], [name]⟩ (.assign ⟨[], key⟩ v) =
      some ⟨es ++ [(name, .table .header (inner ++ [(key, v)]))], [name]⟩ := by
  have found : List.lookup name (es ++ [(name, table .header inner)]) = some (.table .header inner) := by
    rw [List.lookup_append, new]
    simp
  have assigned : assign? ⟨[], key⟩ v .header inner = some (inner ++ [(key, v)]) := by
    simp [assign?, alter?, free, put_of_new free]
  simp [Document.add?, alter?, found, Origin.admits, assigned, put_append new]

theorem foldlM_linesOf (new : es.lookup name = none) {data : List (Word × Datum)}
    (distinct : ((inner ++ entriesOf data).map (·.1)).Nodup) :
    (linesOf data).foldlM Document.add? ⟨es ++ [(name, .table .header inner)], [name]⟩ =
      some ⟨es ++ [(name, .table .header (inner ++ entriesOf data))], [name]⟩ := by
  induction data generalizing inner with
  | nil => simp [linesOf, entriesOf]
  | cons entry data ih =>
    obtain ⟨key, d⟩ := entry
    have split : inner ++ entriesOf ((key, d) :: data) =
        inner ++ [(key.text, d.value)] ++ entriesOf data := by
      simp [entriesOf]
    have free : inner.lookup key.text = none := by
      apply lookup_eq_none_of_not_mem
      intro member
      rw [List.map_append] at distinct
      have apart := (List.nodup_append.mp distinct).2.2
      exact apart key.text member key.text (List.mem_cons_self ..) rfl
    rw [split] at distinct ⊢
    have added := add?_assign new free d.value
    rw [linesOf, List.map_cons, List.foldlM_cons]
    dsimp only
    rw [added]
    exact ih distinct

theorem foldlM_sections {sections : List Section} (heading : List String)
    (distinct : ((es ++ tablesOf sections).map (·.1)).Nodup) :
    ∃ heading', (sections.flatMap Section.lines).foldlM Document.add? ⟨es, heading⟩ =
      some ⟨es ++ tablesOf sections, heading'⟩ := by
  induction sections generalizing es heading with
  | nil => exact ⟨heading, by simp [tablesOf]⟩
  | cons s sections ih =>
    have split : es ++ tablesOf (s :: sections) =
        es ++ [(s.name.text, .table .header (entriesOf s.data))] ++ tablesOf sections := by
      simp [tablesOf]
    have new : es.lookup s.name.text = none := by
      apply lookup_eq_none_of_not_mem
      intro member
      rw [List.map_append] at distinct
      have apart := (List.nodup_append.mp distinct).2.2
      exact apart s.name.text member s.name.text (List.mem_cons_self ..) rfl
    have keys : (([] ++ entriesOf s.data : Entries).map (·.1)).Nodup := by
      rw [List.nil_append, entriesOf, List.map_map]
      exact s.distinct
    have body := foldlM_linesOf new keys
    rw [split] at distinct ⊢
    obtain ⟨heading', rest⟩ := ih [s.name.text] distinct
    refine ⟨heading', ?_⟩
    rw [List.flatMap_cons, List.foldlM_append, Section.lines, List.foldlM_cons, add?_table new]
    simp [body, rest]

theorem Sheet.ofLines?_lines (s : Sheet) :
    ofLines? (s.sections.flatMap Section.lines) = some s.value := by
  have distinct : (([] ++ tablesOf s.sections : Entries).map (·.1)).Nodup := by
    rw [List.nil_append, tablesOf, List.map_map]
    exact s.distinct
  obtain ⟨heading, built⟩ := foldlM_sections [] distinct
  rw [ofLines?, built]
  rfl

end Builds

/-- What is written of a sheet reads as the document that it stands for. -/
theorem Sheet.ofText?_write? {s : Sheet} {text : String} (written : s.write? = some text) :
    ofText? text = some s.value := by
  obtain ⟨cs, sections, rfl⟩ := Option.map_eq_some_iff.mp written
  have holds := holds_sections sections
  have marked := skipByteOrderMark_of_written sections
  unfold ofText?
  dsimp only
  rw [String.toList_ofList, marked, holds _ (Nat.lt_succ_self _), Option.bind_some, s.ofLines?_lines]

end Orchestration.Toml
