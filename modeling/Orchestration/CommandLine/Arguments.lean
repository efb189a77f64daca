import Orchestration.Cents
import Orchestration.Text.Decimal

namespace Orchestration.CommandLine

open Text

structure RunRequest where
  path : String
  name : Option String
  budget : Option Cents
  tolerant : Bool
  tags : List String
  input : Option String

inductive Command where
  | validate (path : String)
  | run (request : RunRequest)
  | config

structure Invocation where
  settings : Option String
  command : Command

inductive Stop where
  | help
  | version
  | misuse
deriving DecidableEq

inductive Arity where
  | flag
  | single
  | repeated
deriving DecidableEq

structure Switch where
  name : String
  arity : Arity
  accepts : String → Bool

inductive Word where
  | terminator
  | long (name : String) (value : Option String)
  | short (name : Char)
  | operand

namespace Word

/-- A hyphen alone is an operand. -/
def classify (s : String) : Word :=
  match s.toList with
  | ['-', '-'] => .terminator
  | '-' :: '-' :: r =>
    let name := String.ofList (r.takeWhile (· != '='))
    match r.dropWhile (· != '=') with
    | [] => .long name none
    | _ :: value => .long name (some (String.ofList value))
  | '-' :: c :: _ => .short c
  | _ => .operand

end Word

structure Level where
  options : List Switch
  operands : Nat
  versioned : Bool

/-- What was given at one level. Flags have an empty value. -/
structure Given where
  operands : List String
  options : List (String × String)

namespace Given

def empty : Given := ⟨[], []⟩

def has (g : Given) (name : String) : Bool := g.options.any (·.1 == name)

def value? (g : Given) (name : String) : Option String := g.options.lookup name

def values (g : Given) (name : String) : List String :=
  (g.options.filter (·.1 == name)).map (·.2)

def add? (g : Given) (o : Switch) (value : String) : Except Stop Given :=
  if (o.arity ≠ .repeated ∧ g.has o.name) ∨ ¬ o.accepts value then .error .misuse
  else .ok { g with options := g.options ++ [(o.name, value)] }

end Given

inductive Expected where
  | any
  | value (option : Switch)
  | operand

namespace Level

/-- Reads words until one is left that is an operand too many: what was given, and the rest. -/
def read (level : Level) : Expected → List String → Given → Except Stop (Given × List String)
  | .value _, [], _ => .error .misuse
  | _, [], g => .ok (g, [])
  | .value o, w :: ws, g =>
    match Word.classify w with
    | .operand => do level.read .any ws (← g.add? o w)
    | _ => .error .misuse
  | .operand, w :: ws, g =>
    if w = "" ∨ level.operands ≤ g.operands.length then .error .misuse
    else level.read .operand ws { g with operands := g.operands ++ [w] }
  | .any, w :: ws, g =>
    match Word.classify w with
    | .terminator => level.read .operand ws g
    | .operand =>
      if level.operands ≤ g.operands.length then .ok (g, w :: ws)
      else if w = "" then .error .misuse
      else level.read .any ws { g with operands := g.operands ++ [w] }
    | .short c =>
      if c = 'h' then .error .help
      else if c = 'V' ∧ level.versioned then .error .version
      else .error .misuse
    | .long name attached =>
      match level.options.find? (·.name == name), attached with
      | some o, none =>
        if o.arity = .flag then do level.read .any ws (← g.add? o "")
        else level.read (.value o) ws g
      | some o, some v =>
        if o.arity = .flag then .error .misuse
        else do level.read .any ws (← g.add? o v)
      | none, none =>
        if name = "help" then .error .help
        else if name = "version" ∧ level.versioned then .error .version
        else .error .misuse
      | none, some _ => .error .misuse

def settingsOption : Switch := ⟨"config", .single, (· ≠ "")⟩

def readBudget? (s : String) : Option Cents := (readSigned? s.toList).bind Cents.ofInt?

def outer : Level := ⟨[settingsOption], 0, true⟩

def ofCommand? (name : String) : Option Level :=
  if name = "validate" then some ⟨[settingsOption], 1, false⟩
  else if name = "run" then
    some ⟨[settingsOption, ⟨"name", .single, fun _ => true⟩,
      ⟨"budget", .single, fun v => (readBudget? v).isSome⟩, ⟨"tolerant", .flag, fun _ => true⟩,
      ⟨"tag", .repeated, fun _ => true⟩, ⟨"input", .single, fun _ => true⟩], 1, false⟩
  else if name = "config" then some ⟨[settingsOption], 0, false⟩
  else none

end Level

def Command.ofGiven? (name : String) (g : Given) : Option Command :=
  match name, g.operands with
  | "validate", [path] => some (.validate path)
  | "run", [path] =>
    some (.run ⟨path, g.value? "name", (g.value? "budget").bind Level.readBudget?,
      g.has "tolerant", g.values "tag", g.value? "input"⟩)
  | "config", [] => some .config
  | _, _ => none

def helpStop : List String → Stop
  | [] => .help
  | [name] => if name = "help" ∨ (Level.ofCommand? name).isSome then .help else .misuse
  | _ => .misuse

namespace Invocation

/-- Reads the words of the command line. The settings file named after the command goes before the
one named in front of it, and both go before `fallback`. An empty `fallback` is misuse wherever it
would be looked at. -/
def ofWords (fallback : Option String) (words : List String) : Except Stop Invocation := do
  let (front, rest) ← Level.outer.read .any words .empty
  match rest with
  | [] => .error .misuse
  | name :: rest =>
    if name = "help" then .error (helpStop rest)
    else
      match Level.ofCommand? name with
      | none => .error .misuse
      | some level =>
        let (back, rest) ← level.read .any rest .empty
        if rest ≠ [] then .error .misuse
        else if fallback = some "" ∧ ¬ (front.has "config" ∧ back.has "config") then .error .misuse
        else
          match Command.ofGiven? name back with
          | none => .error .misuse
          | some command =>
            .ok ⟨(back.value? "config").or ((front.value? "config").or fallback), command⟩

end Invocation

end Orchestration.CommandLine
