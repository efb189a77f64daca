import Orchestration.CommandLine.Program
import Orchestration.Proofs.Entries
import Orchestration.Proofs.Text.Digits

namespace Orchestration.CommandLine

open Text

def attached (name value : String) : String := "--" ++ name ++ "=" ++ value

def RunRequest.words (r : RunRequest) : List String :=
  (r.name.map (attached "name")).toList ++
    ((r.budget.map fun c => attached "budget" (decimal c.value)).toList ++
      ((if r.tolerant then ["--tolerant"] else []) ++
        (r.tags.map (attached "tag") ++
          ((r.input.map (attached "input")).toList ++ ["--", r.path]))))

def Command.words : Command → List String
  | .validate path => ["validate", "--", path]
  | .run request => "run" :: request.words
  | .config => ["config"]

/-- The words that ask for it, one of many ways. -/
def Invocation.words (i : Invocation) : List String :=
  (i.settings.map (attached "config")).toList ++ i.command.words

theorem Word.classify_attached {name : String} (plain : '=' ∉ name.toList) (value : String) :
    classify (attached name value) = .long name (some value) := by
  have chars : (attached name value).toList = '-' :: '-' :: (name.toList ++ '=' :: value.toList) := by
    simp [attached, String.toList_append]
  have before : ∀ c ∈ name.toList, (c != '=') = true := by
    intro c member
    rw [bne_iff_ne]
    exact fun same => plain (same ▸ member)
  have taken : (name.toList ++ '=' :: value.toList).takeWhile (· != '=') = name.toList := by
    rw [List.takeWhile_append_of_pos before]
    simp
  have rest : (name.toList ++ '=' :: value.toList).dropWhile (· != '=') = '=' :: value.toList := by
    rw [List.dropWhile_append_of_pos before]
    simp
  obtain ⟨c, r, split⟩ := List.exists_cons_of_ne_nil (l := name.toList ++ '=' :: value.toList) (by simp)
  unfold classify
  rw [split] at chars taken rest
  simp [chars, taken, rest]

namespace Level

variable {level : Level} {name : String} {o : Switch} {g g' : Given} {words : List String}

theorem read_attached {value : String} (plain : '=' ∉ name.toList)
    (found : level.options.find? (·.name == name) = some o) (valued : o.arity ≠ .flag)
    (added : g.add? o value = .ok g') (words : List String) :
    level.read .any (attached name value :: words) g = level.read .any words g' := by
  conv_lhs => unfold read
  simp only [Word.classify_attached plain, found, valued, if_false, added]
  rfl

theorem name_of_found (found : level.options.find? (·.name == name) = some o) : o.name = name := by
  simpa using List.find?_some found

theorem add?_of_single (free : o.arity = .repeated ∨ ¬ g.has o.name) (value : String)
    (accepted : o.accepts value) :
    g.add? o value = .ok { g with options := g.options ++ [(o.name, value)] } := by
  unfold Given.add?
  rw [if_neg]
  rintro (⟨once, had⟩ | refused)
  · rcases free with repeated | absent
    · exact once repeated
    · exact absent had
  · exact refused accepted

theorem read_optional (name : String) (plain : '=' ∉ name.toList)
    (found : level.options.find? (·.name == name) = some o) (valued : o.arity ≠ .flag)
    (free : ¬ g.has name) {value : Option String} (accepted : ∀ v, value = some v → o.accepts v)
    (words : List String) :
    level.read .any ((value.map (attached name)).toList ++ words) g =
      level.read .any words { g with options := g.options ++ (value.map (name, ·)).toList } := by
  cases value with
  | none => simp
  | some v =>
    have named := name_of_found found
    have added := add?_of_single (g := g) (.inr (named ▸ free)) v (accepted v rfl)
    rw [named] at added
    exact read_attached plain found valued added words

theorem read_repeated (name : String) (plain : '=' ∉ name.toList)
    (found : level.options.find? (·.name == name) = some o) (repeated : o.arity = .repeated)
    (accepted : ∀ v, o.accepts v) (values words : List String) (g : Given) :
    level.read .any (values.map (attached name) ++ words) g =
      level.read .any words { g with options := g.options ++ values.map (name, ·) } := by
  induction values generalizing g with
  | nil => simp
  | cons v values ih =>
    have named := name_of_found found
    have added := add?_of_single (g := g) (.inl repeated) v (accepted v)
    rw [named] at added
    rw [List.map_cons, List.cons_append, read_attached plain found (by simp [repeated]) added, ih]
    simp

theorem read_last {path : String} (named : path ≠ "") (room : g.operands.length < level.operands) :
    level.read .any ["--", path] g = .ok ({ g with operands := g.operands ++ [path] }, []) := by
  have terminator : Word.classify "--" = .terminator := rfl
  simp [read, terminator, named, Nat.not_le.mpr room]

end Level

def RunRequest.given (r : RunRequest) : Given :=
  ⟨[r.path], (r.name.map ("name", ·)).toList ++
    ((r.budget.map fun c => ("budget", decimal c.value)).toList ++
      ((if r.tolerant then [("tolerant", "")] else []) ++
        (r.tags.map ("tag", ·) ++ (r.input.map ("input", ·)).toList)))⟩

theorem Level.readBudget?_decimal (c : Cents) : readBudget? (decimal c.value) = some c := by
  unfold readBudget? decimal
  rw [String.toList_ofList, readSigned?_signed, Option.bind_some]
  exact dif_pos ⟨c.lower, c.upper⟩

section Tags

variable (tags : List String) {key : String} (other : key ≠ "tag")

include other

theorem lookup_tags (rest : List (String × String)) :
    (tags.map ("tag", ·) ++ rest).lookup key = rest.lookup key := by
  induction tags with
  | nil => rfl
  | cons tag tags ih => simp [lookup_cons_eq, ih, other]

theorem lookup_tags_only : (tags.map ("tag", ·)).lookup key = none := by
  have found := lookup_tags tags other []
  rwa [List.append_nil] at found

end Tags

theorem RunRequest.ofGiven?_given (r : RunRequest) :
    Command.ofGiven? "run" r.given = some (.run r) ∧ r.given.value? "config" = none := by
  obtain ⟨path, name, budget, tolerant, tags, input⟩ := r
  cases name <;> cases budget <;> cases tolerant <;> cases input
  all_goals
    simp [Command.ofGiven?, given, Given.value?, Given.has, Given.values, lookup_tags,
      lookup_tags_only, Level.readBudget?_decimal, lookup_cons_eq, List.filter_map, Function.comp_def]

def Level.ofRun : Level :=
  ⟨[settingsOption, ⟨"name", .single, fun _ => true⟩,
    ⟨"budget", .single, fun v => (readBudget? v).isSome⟩, ⟨"tolerant", .flag, fun _ => true⟩,
    ⟨"tag", .repeated, fun _ => true⟩, ⟨"input", .single, fun _ => true⟩], 1, false⟩

theorem Level.read_tolerant {g : Given} (free : ¬ g.has "tolerant") (tolerant : Bool)
    (words : List String) :
    ofRun.read .any ((if tolerant then ["--tolerant"] else []) ++ words) g =
      ofRun.read .any words
        { g with options := g.options ++ if tolerant then [("tolerant", "")] else [] } := by
  cases tolerant with
  | false => simp
  | true =>
    have flag : Word.classify "--tolerant" = .long "tolerant" none := rfl
    have found : ofRun.options.find? (·.name == "tolerant") =
      some ⟨"tolerant", .flag, fun _ => true⟩ := rfl
    have added := add?_of_single (o := ⟨"tolerant", .flag, fun _ => true⟩) (.inr free) "" rfl
    simp only [if_true, List.singleton_append]
    conv_lhs => unfold read
    simp only [flag, found, if_true, added]
    rfl

theorem Given.not_has_of_optional (name other : String) (apart : other ≠ name) {g : Given}
    (free : ¬ g.has name) (value : Option String) :
    ¬ Given.has { g with options := g.options ++ (value.map (other, ·)).toList } name := by
  unfold has at *
  cases value <;> simp_all

theorem RunRequest.read_words {r : RunRequest} (named : r.path ≠ "") :
    Level.ofRun.read .any r.words .empty = .ok (r.given, []) := by
  have budget : r.budget.map (fun c => attached "budget" (decimal c.value)) =
      (r.budget.map fun c => decimal c.value).map (attached "budget") := by
    rw [Option.map_map]
    rfl
  unfold words
  rw [Level.read_optional "name" (by decide) rfl (by decide) (by decide) (fun _ _ => rfl),
    budget, Level.read_optional "budget" (by decide) rfl (by decide) ?budget ?cents,
    Level.read_tolerant ?tolerant, Level.read_repeated "tag" (by decide) rfl rfl (fun _ => rfl),
    Level.read_optional "input" (by decide) rfl (by decide) ?input (fun _ _ => rfl),
    Level.read_last named ?room]
  case budget => exact Given.not_has_of_optional _ _ (by decide) (by decide) r.name
  case cents =>
    intro text given
    obtain ⟨c, -, rfl⟩ := Option.map_eq_some_iff.mp given
    simp [Level.readBudget?_decimal]
  case tolerant =>
    exact Given.not_has_of_optional _ _ (by decide)
      (Given.not_has_of_optional _ _ (by decide) (by decide) r.name) _
  case input =>
    have named := Given.not_has_of_optional "input" "name" (by decide)
      (by decide : ¬ Given.empty.has "input") r.name
    have before := Given.not_has_of_optional "input" "budget" (by decide) named
      (r.budget.map fun c => decimal c.value)
    unfold Given.has at *
    cases r.tolerant <;> simp_all
  case room => exact Nat.one_pos
  unfold given
  simp [Given.empty, Option.map_map, Function.comp_def]

namespace Command

def name : Command → String
  | .validate _ => "validate"
  | .run _ => "run"
  | .config => "config"

def given : Command → Given
  | .validate path => ⟨[path], []⟩
  | .run request => request.given
  | .config => .empty

theorem ofGiven?_given (c : Command) : ofGiven? c.name c.given = some c ∧ c.given.value? "config" = none := by
  cases c with
  | validate | config => exact ⟨rfl, rfl⟩
  | run request => exact request.ofGiven?_given

theorem words_eq {settings : Option String} {c : Command} (named : "" ∉ Invocation.paths ⟨settings, c⟩) :
    ∃ level rest, Level.ofCommand? c.name = some level ∧ c.words = c.name :: rest ∧
      level.read .any rest .empty = .ok (c.given, []) := by
  cases c with
  | validate path =>
    have named : path ≠ "" := by
      rintro rfl
      exact named (List.mem_append_right _ (List.mem_singleton_self ""))
    exact ⟨_, _, rfl, rfl, Level.read_last named Nat.one_pos⟩
  | run request =>
    have named : request.path ≠ "" := by
      intro empty
      exact named (List.mem_append_right _ (empty ▸ List.mem_singleton_self request.path))
    exact ⟨_, _, rfl, rfl, request.read_words named⟩
  | config => exact ⟨_, _, rfl, rfl, rfl⟩

theorem name_ne_help (c : Command) : c.name ≠ "help" := by
  cases c <;> simp [name]

end Command

theorem Level.read_front {settings : Option String} (named : settings ≠ some "") (c : Command)
    (rest : List String) :
    outer.read .any ((settings.map (attached "config")).toList ++ c.name :: rest) .empty =
      .ok (⟨[], (settings.map ("config", ·)).toList⟩, c.name :: rest) := by
  have operand : Word.classify c.name = .operand := by
    cases c <;> simp [Command.name, Word.classify]
  rw [read_optional "config" (by decide) rfl (by decide) (by decide) ?named]
  case named =>
    rintro path rfl
    exact decide_eq_true fun empty => named (congrArg some empty)
  unfold read
  simp only [operand, outer]
  rfl

/-- The words of an invocation lead to it. Only where they name no settings file does `fallback`. -/
theorem Invocation.ofWords_words {i : Invocation} (named : "" ∉ i.paths) {fallback : Option String}
    (usable : fallback ≠ some "") :
    ofWords fallback i.words = .ok { i with settings := i.settings.or fallback } := by
  obtain ⟨settings, c⟩ := i
  have file : settings ≠ some "" := by
    rintro rfl
    exact named (List.mem_append_left _ (List.mem_singleton_self ""))
  obtain ⟨level, rest, known, words, read⟩ := Command.words_eq named
  obtain ⟨command, back⟩ := c.ofGiven?_given
  have front : Given.value? ⟨[], (settings.map ("config", ·)).toList⟩ "config" = settings := by
    cases settings <;> rfl
  unfold ofWords Invocation.words
  dsimp only
  rw [words, Level.read_front file]
  simp only [bind, Except.bind, c.name_ne_help, if_false, known, read, command, back, front, usable,
    false_and, ne_eq, not_true_eq_false, Option.none_or]

structure Given.Careful (g : Given) : Prop where
  operands : "" ∉ g.operands
  settings : ("config", "") ∉ g.options

def Expected.Of (level : Level) : Expected → Prop
  | .value o => o ∈ level.options
  | .any | .operand => True

namespace Given.Careful

variable {level : Level} {o : Switch} {g g' : Given} {value : String}

theorem operand (careful : g.Careful) (named : value ≠ "") :
    Given.Careful { g with operands := g.operands ++ [value] } :=
  ⟨by simpa [careful.operands] using Ne.symm named, careful.settings⟩

theorem option (careful : g.Careful) (refuses : o.name = "config" → ¬ o.accepts "")
    (added : g.add? o value = .ok g') : g'.Careful := by
  unfold Given.add? at added
  split at added
  · cases added
  · rename_i passed
    cases added
    refine ⟨careful.operands, fun member => ?_⟩
    simp only [List.mem_append, careful.settings, false_or, List.mem_singleton, Prod.mk.injEq] at member
    exact passed (.inr (member.2 ▸ refuses member.1.symm))

theorem read (strict : ∀ o ∈ level.options, o.name = "config" → ¬ o.accepts "")
    (expected : Expected) {words rest : List String} (careful : g.Careful)
    (offered : expected.Of level)
    (read : level.read expected words g = .ok (g', rest)) : g'.Careful := by
  induction words generalizing expected g with
  | nil =>
    cases expected with
    | value o => cases read
    | any | operand =>
      cases read
      exact careful
  | cons w ws ih =>
    have next {g₁ : Given} (careful : g₁.Careful) (read : level.read .any ws g₁ = .ok (g', rest)) :
        g'.Careful := ih .any careful trivial read
    -- An option is added only with a value that it accepts.
    have added {o : Switch} {value : String} (listed : o ∈ level.options)
        (read : (g.add? o value >>= fun g => level.read .any ws g) = .ok (g', rest)) : g'.Careful := by
      cases answer : g.add? o value with
      | error stop =>
        rw [answer] at read
        cases read
      | ok g₁ =>
        rw [answer] at read
        exact next (careful.option (strict o listed) answer) read
    cases expected with
    | value o =>
      unfold Level.read at read
      split at read
      · exact added offered read
      · cases read
    | operand =>
      unfold Level.read at read
      split at read
      · cases read
      · rename_i room
        exact ih .operand (careful.operand (not_or.mp room).1) trivial read
    | any =>
      unfold Level.read at read
      split at read
      · exact ih .operand careful trivial read
      · split at read
        · cases read
          exact careful
        · split at read
          · cases read
          · rename_i named
            exact next (careful.operand named) read
      · split at read
        · cases read
        · split at read <;> cases read
      · rename_i name attached _
        split at read
        · rename_i o found _
          have listed := List.mem_of_find?_eq_some found
          split at read
          · exact added listed read
          · exact ih (.value o) careful listed read
        · rename_i o v found _
          split at read
          · cases read
          · exact added (List.mem_of_find?_eq_some found) read
        · split at read
          · cases read
          · split at read <;> cases read
        · cases read

end Given.Careful

theorem Level.strict {name : String} {level : Level} (known : ofCommand? name = some level) :
    ∀ o ∈ level.options, o.name = "config" → ¬ o.accepts "" := by
  unfold ofCommand? at known
  repeat' split at known
  all_goals cases known
  all_goals simp [settingsOption]

namespace Given

variable {g : Given}

theorem Careful.value? (careful : g.Careful) : g.value? "config" ≠ some "" := by
  intro found
  obtain ⟨first, rest, split, -⟩ := List.lookup_eq_some_iff.mp found
  apply careful.settings
  rw [split]
  exact List.mem_append_right _ (List.mem_cons_self ..)

theorem value?_of_has {name : String} (has : g.has name) : ∃ value, g.value? name = some value := by
  obtain ⟨entry, member, same⟩ := List.any_eq_true.mp has
  cases found : g.value? name with
  | some value => exact ⟨value, rfl⟩
  | none =>
    have apart := List.lookup_eq_none_iff.mp found entry member
    rw [eq_of_beq same] at apart
    simp at apart

theorem Careful.command (careful : g.Careful) {name : String} {c : Command}
    (made : Command.ofGiven? name g = some c) : "" ∉ Invocation.paths ⟨none, c⟩ := by
  have operands := careful.operands
  unfold Command.ofGiven? at made
  split at made
  case h_4 => cases made
  all_goals
    cases made
    simp_all [Invocation.paths]

theorem Careful.of_read {level : Level} {words rest : List String}
    (strict : ∀ o ∈ level.options, o.name = "config" → ¬ o.accepts "")
    (read : level.read .any words .empty = .ok (g, rest)) : g.Careful :=
  Careful.read strict .any ⟨by decide, by decide⟩ trivial read

end Given

theorem Invocation.ofWords_eq_ok {fallback : Option String} {words : List String} {i : Invocation}
    (read : ofWords fallback words = .ok i) :
    ∃ front name level behind back, Level.outer.read .any words .empty = .ok (front, name :: behind) ∧
      Level.ofCommand? name = some level ∧ level.read .any behind .empty = .ok (back, []) ∧
      ¬ (fallback = some "" ∧ ¬ (front.has "config" ∧ back.has "config")) ∧
      Command.ofGiven? name back = some i.command ∧
      i.settings = (back.value? "config").or ((front.value? "config").or fallback) := by
  unfold ofWords at read
  cases fronts : Level.outer.read .any words .empty with
  | error stop =>
    rw [fronts] at read
    cases read
  | ok answer =>
    obtain ⟨front, rest⟩ := answer
    rw [fronts] at read
    simp only [bind, Except.bind] at read
    split at read
    · cases read
    · rename_i name behind
      split at read
      · cases read
      · split at read
        · cases read
        · rename_i level known
          split at read
          · cases read
          · rename_i answer backs
            obtain ⟨back, rest⟩ := answer
            dsimp only at read
            split at read
            · cases read
            · rename_i all
              split at read
              · cases read
              · rename_i usable
                split at read
                · cases read
                · rename_i command made
                  cases read
                  rw [not_not] at all
                  rw [all] at backs
                  exact ⟨front, name, level, behind, back, rfl, known, backs, usable, made, rfl⟩

/-- No words lead to an invocation that names a file with an empty name. -/
theorem Invocation.named_of_ofWords {fallback : Option String} {words : List String} {i : Invocation}
    (read : ofWords fallback words = .ok i) : "" ∉ i.paths := by
  obtain ⟨front, name, level, behind, back, fronts, known, backs, usable, made, settings⟩ :=
    ofWords_eq_ok read
  have before := Given.Careful.of_read (by simp [Level.outer, Level.settingsOption]) fronts
  have after := Given.Careful.of_read (Level.strict known) backs
  have command := after.command made
  have file : i.settings ≠ some "" := by
    rw [settings]
    intro empty
    rcases Option.or_eq_some_iff.mp empty with found | ⟨absent, rest⟩
    · exact after.value? found
    · rcases Option.or_eq_some_iff.mp rest with found | ⟨-, unusable⟩
      · exact before.value? found
      · apply usable ⟨unusable, fun both => ?_⟩
        obtain ⟨value, found⟩ := Given.value?_of_has both.2
        cases absent.symm.trans found
  intro member
  rcases List.mem_append.mp member with here | there
  · exact file (Option.mem_toList.mp here)
  · exact command there

/-- There are words for an invocation exactly if it names no file with an empty name. -/
theorem Invocation.exists_words_iff (i : Invocation) :
    (∃ words, ofWords none words = .ok i) ↔ "" ∉ i.paths := by
  constructor
  · rintro ⟨words, read⟩
    exact named_of_ofWords read
  · intro named
    refine ⟨i.words, ?_⟩
    rw [ofWords_words named (by simp), Option.or_none]

end Orchestration.CommandLine
