import Orchestration.Json.Scalars
import Orchestration.Proofs.Json.Layout
import Orchestration.Proofs.Json.Members
import Orchestration.Proofs.Time.Text
import Orchestration.Proofs.Uuid
import Mathlib.Data.List.Nodup
import Mathlib.Data.Option.Basic

namespace Orchestration

namespace Json

mutual

def depth : Json → Nat
  | .array items => itemsDepth items + 1
  | .object members => membersDepth members + 1
  | _ => 0

def itemsDepth : List Json → Nat
  | [] => 0
  | v :: vs => max v.depth (itemsDepth vs)

def membersDepth : List (String × Json) → Nat
  | [] => 0
  | (_, v) :: ms => max v.depth (membersDepth ms)

end

theorem itemsDepth_le_iff {vs : List Json} {room : Nat} :
    itemsDepth vs ≤ room ↔ ∀ v ∈ vs, v.depth ≤ room := by
  induction vs with
  | nil => simp [itemsDepth]
  | cons v vs ih => simp only [itemsDepth, Nat.max_le, ih, List.forall_mem_cons]

theorem membersDepth_le_iff {ms : List (String × Json)} {room : Nat} :
    membersDepth ms ≤ room ↔ ∀ m ∈ ms, m.2.depth ≤ room := by
  induction ms with
  | nil => simp [membersDepth]
  | cons m ms ih =>
    obtain ⟨k, v⟩ := m
    simp only [membersDepth, Nat.max_le, ih, List.forall_mem_cons]

theorem room_of_array {items : List Json} {room : Nat} (fits : (array items).depth ≤ room) :
    ∃ inner, room = inner + 1 ∧ ∀ v ∈ items, v.depth ≤ inner := by
  have level : itemsDepth items + 1 ≤ room := fits
  exact ⟨room - 1, by omega, itemsDepth_le_iff.mp (by omega)⟩

theorem room_of_object {members : List (String × Json)} {room : Nat}
    (fits : (object members).depth ≤ room) :
    ∃ inner, room = inner + 1 ∧ ∀ m ∈ members, m.2.depth ≤ inner := by
  have level : membersDepth members + 1 ≤ room := fits
  exact ⟨room - 1, by omega, membersDepth_le_iff.mp (by omega)⟩

end Json

namespace Decoder

variable {α : Type} {d : Decoder α} {j : Json} {a : α}

/-- The value `a` is decoded from `j`, which text can stand for, wherever there is room for it. -/
structure Returns (d : Decoder α) (j : Json) (a : α) : Prop where
  legible : j.Legible
  reads : ∀ room, j.depth ≤ room → d room j = some a

def Recovers (d : Decoder α) (j : Json) (a : α) : Prop :=
  d.ofText? j.text = some a ∧ d.ofText? j.prettyText = some a

theorem Returns.recovers (returns : d.Returns j a) (fits : j.depth ≤ Json.textDepth) :
    d.Recovers j a := by
  have read := returns.reads Json.textDepth fits
  constructor
  · unfold ofText?
    rw [Json.ofText?_text returns.legible]
    exact read
  · unfold ofText?
    rw [Json.ofText?_prettyText returns.legible]
    exact read

theorem string_returns (s : String) : string.Returns (.string s) s := ⟨.string s, fun _ _ => rfl⟩

theorem bool_returns (b : Bool) : bool.Returns (.bool b) b := ⟨.bool b, fun _ _ => rfl⟩

theorem natural_of_lt {n bound : Nat} (small : n < bound) (room : Nat) :
    natural bound room (.int n) = some n := by
  show (if 0 ≤ (n : Int) ∧ (n : Int) < bound then some (n : Int).toNat else none) = some n
  rw [if_pos (by omega)]
  rfl

theorem uint32_returns (n : UInt32) : uint32.Returns (.ofUInt32 n) n := by
  have small := n.toNat_lt
  constructor
  case legible => exact .int (by simp [Json.isWord]; omega)
  case reads =>
    intro room _
    unfold uint32 Json.ofUInt32
    rw [natural_of_lt small, Option.map_some, UInt32.ofNat_toNat]

theorem uint64_returns (n : UInt64) : uint64.Returns (.ofUInt64 n) n := by
  have small := n.toNat_lt
  constructor
  case legible => exact .int (by simp [Json.isWord]; omega)
  case reads =>
    intro room _
    unfold uint64 Json.ofUInt64
    rw [natural_of_lt small, Option.map_some, UInt64.ofNat_toNat]

theorem cents_returns (c : Cents) : cents.Returns (.ofCents c) c := by
  have lower := c.lower
  have upper := c.upper
  constructor
  case legible => exact .int (by simp [Json.isWord]; omega)
  case reads => exact fun room _ => dif_pos ⟨lower, upper⟩

theorem uuid_returns (u : Uuid) : uuid.Returns (.ofUuid u) u :=
  ⟨.string _, fun _ _ => u.ofText?_text⟩

theorem timestamp_returns (t : Timestamp) : timestamp.Returns (.ofTimestamp t) t :=
  ⟨.string _, fun _ _ => t.ofText?_text⟩

theorem list_returns {js : List Json} {as : List α} (each : List.Forall₂ d.Returns js as) :
    (list d).Returns (.array js) as := by
  constructor
  case legible =>
    apply Json.Legible.array
    induction each with
    | nil => exact List.forall_mem_nil _
    | cons first rest ih => exact List.forall_mem_cons.mpr ⟨first.legible, ih⟩
  case reads =>
    intro room fits
    obtain ⟨room, rfl, inside⟩ := Json.room_of_array fits
    clear fits
    show js.mapM (d room) = some as
    induction each with
    | nil => rfl
    | cons first rest ih =>
      obtain ⟨here, there⟩ := List.forall_mem_cons.mp inside
      simp [List.mapM_cons, first.reads room here, ih there]

theorem list_returns_map {as : List α} {f : α → Json} (each : ∀ a ∈ as, d.Returns (f a) a) :
    (list d).Returns (.array (as.map f)) as := by
  apply list_returns
  rw [List.forall₂_map_left_iff]
  exact List.forall₂_same.mpr each

theorem strings_returns (ss : List String) : (list string).Returns (.ofStrings ss) ss :=
  list_returns_map fun s _ => string_returns s

theorem nullable_of_ne_null (value : j ≠ .null) (room : Nat) :
    nullable d room j = (d room j).map some := by
  unfold nullable
  split
  · exact absurd rfl value
  · rfl

theorem nullable_returns {f : α → Json} (each : ∀ a, d.Returns (f a) a) (value : ∀ a, f a ≠ .null)
    (o : Option α) : (nullable d).Returns (.ofOption f o) o := by
  cases o with
  | none => exact ⟨.null, fun _ _ => rfl⟩
  | some a =>
    constructor
    case legible => exact (each a).legible
    case reads =>
      intro room fits
      show nullable d room (f a) = some (some a)
      rw [nullable_of_ne_null (value a), (each a).reads room fits, Option.map_some]

theorem jsonElements_of_reads {vs : List Json} {room : Nat} (each : ∀ v ∈ vs, json room v = some v) :
    jsonElements room vs = some vs := by
  induction vs with
  | nil => rfl
  | cons v vs ih =>
    have rest := ih fun w member => each w (List.mem_cons_of_mem _ member)
    simp [jsonElements, each v (List.mem_cons_self ..), rest]

theorem jsonMembers_of_reads {ms : List (String × Json)} {room : Nat}
    (each : ∀ m ∈ ms, json room m.2 = some m.2) (seen : List (String × Json)) :
    jsonMembers room seen ms = some (Json.setMembers seen ms) := by
  induction ms generalizing seen with
  | nil => rfl
  | cons m ms ih =>
    obtain ⟨k, v⟩ := m
    have here : json room v = some v := each (k, v) (List.mem_cons_self ..)
    rw [jsonMembers, here, Option.bind_eq_bind, Option.bind_some,
      ih fun m member => each m (List.mem_cons_of_mem _ member)]
    rfl

theorem json_returns (exact : j.Exact) : Returns json j j := by
  refine ⟨exact.legible, ?_⟩
  induction exact with
  | null | bool | int | string => intro room _; simp [json]
  | array each ih =>
    intro room fits
    obtain ⟨room, rfl, inside⟩ := Json.room_of_array fits
    rw [json, jsonElements_of_reads fun v member => ih v member room (inside v member)]
    rfl
  | object sorted each ih =>
    intro room fits
    obtain ⟨room, rfl, inside⟩ := Json.room_of_object fits
    have all := jsonMembers_of_reads (fun m member => ih m member room (inside m member)) []
    rw [json, all, Json.setMembers_of_sorted sorted]
    rfl

theorem jsonElements_exact {vs ws : List Json} {room : Nat}
    (each : ∀ v ∈ vs, ∀ w, json room v = some w → w.Exact) (read : jsonElements room vs = some ws) :
    ∀ w ∈ ws, w.Exact := by
  induction vs generalizing ws with
  | nil =>
    obtain rfl := Option.some.inj read
    exact nofun
  | cons v vs ih =>
    rw [jsonElements] at read
    obtain ⟨w, here, read⟩ := Option.bind_eq_some_iff.mp read
    obtain ⟨ws', there, read⟩ := Option.bind_eq_some_iff.mp read
    obtain rfl := Option.some.inj read
    obtain ⟨first, others⟩ := List.forall_mem_cons.mp each
    exact List.forall_mem_cons.mpr ⟨first w here, ih others there⟩

theorem jsonMembers_exact {ms seen all : List (String × Json)} {room : Nat}
    (each : ∀ m ∈ ms, ∀ w, json room m.2 = some w → w.Exact) (sorted : Json.Sorted seen)
    (exact : ∀ m ∈ seen, m.2.Exact) (read : jsonMembers room seen ms = some all) :
    Json.Sorted all ∧ ∀ m ∈ all, m.2.Exact := by
  induction ms generalizing seen with
  | nil =>
    obtain rfl := Option.some.inj read
    exact ⟨sorted, exact⟩
  | cons m ms ih =>
    obtain ⟨k, v⟩ := m
    rw [jsonMembers] at read
    obtain ⟨w, here, read⟩ := Option.bind_eq_some_iff.mp read
    obtain ⟨first, others⟩ := List.forall_mem_cons.mp each
    apply ih others (Json.sorted_setMember sorted k w) _ read
    intro m member
    rcases Json.mem_of_mem_setMember member with rfl | old
    · exact first w here
    · exact exact m old

/-- Whatever text without fractions is read, its objects are sorted then. -/
theorem json_exact {room : Nat} {v : Json} (legible : j.Legible) (read : json room j = some v) :
    v.Exact := by
  induction legible generalizing room v with
  | null | bool | string =>
    obtain rfl : _ = v := by simpa [json] using read
    constructor
  | int word =>
    obtain rfl : _ = v := by simpa [json] using read
    exact .int word
  | array each ih =>
    cases room with
    | zero => cases read
    | succ room =>
      obtain ⟨vs, elements, rfl⟩ := Option.map_eq_some_iff.mp read
      exact .array (jsonElements_exact (fun v member w => ih v member) elements)
  | object each ih =>
    cases room with
    | zero => cases read
    | succ room =>
      obtain ⟨ms, members, rfl⟩ := Option.map_eq_some_iff.mp read
      obtain ⟨sorted, exact⟩ :=
        jsonMembers_exact (fun m member w => ih m member) .nil nofun members
      exact .object sorted exact

end Decoder

namespace Fields

variable {α : Type} {schema : List Field}

theorem ofMembers?_eq {ms members found : List (String × Json)}
    (keys : ms.map (fun m => (nameOf? schema m.1, m.2)) = members.map fun m => (some m.1, m.2))
    (distinct : ((found ++ members).map (·.1)).Nodup) :
    ofMembers? schema found ms = some (found ++ members) := by
  induction ms generalizing found members with
  | nil =>
    obtain rfl : members = [] := List.map_eq_nil_iff.mp keys.symm
    rw [List.append_nil]
    rfl
  | cons m ms ih =>
    obtain ⟨k, v⟩ := m
    cases members with
    | nil => cases keys
    | cons member members =>
      obtain ⟨name, w⟩ := member
      obtain ⟨here, rest⟩ := List.cons.inj keys
      obtain ⟨named, rfl⟩ := Prod.mk.inj here
      rw [List.map_append, List.map_cons] at distinct
      have new : found.any (·.1 == name) = false := by
        rw [List.any_eq_false]
        intro m member same
        exact (List.nodup_append.mp distinct).2.2 m.1 (List.mem_map_of_mem member) name
          (List.mem_cons_self ..) (eq_of_beq same)
      have more := @ih members (found ++ [(name, v)]) rest (by simpa using distinct)
      rw [List.append_assoc] at more
      simp only [ofMembers?, named, new, more]
      rfl

structure Holds (f : Fields) (ms : List (String × Json)) : Prop where
  found : f.found = ms
  fits : ∀ m ∈ ms, m.2.depth ≤ f.room

namespace Holds

variable {f : Fields} {ms : List (String × Json)} {d : Decoder α} {j : Json} {a : α}

theorem depth_le (holds : f.Holds ms) {name : String} (found : ms.lookup name = some j) :
    j.depth ≤ f.room := by
  obtain ⟨before, after, split, -⟩ := List.lookup_eq_some_iff.mp found
  apply holds.fits (name, j)
  rw [split]
  simp

theorem required (holds : f.Holds ms) (name : String) (found : ms.lookup name = some j)
    (returns : d.Returns j a) : f.required name d = some a := by
  unfold Fields.required
  rw [holds.found, found]
  exact returns.reads f.room (holds.depth_le found)

theorem orElse (holds : f.Holds ms) (name : String) (found : ms.lookup name = some j)
    (returns : d.Returns j a) (b : α) : f.orElse name d b = some a := by
  unfold Fields.orElse
  rw [holds.found, found]
  exact returns.reads f.room (holds.depth_le found)

theorem optional (holds : f.Holds ms) (name : String) (found : ms.lookup name = some j)
    {o : Option α} (returns : (Decoder.nullable d).Returns j o) : f.optional name d = some o := by
  unfold Fields.optional
  rw [holds.found, found]
  exact returns.reads f.room (holds.depth_le found)

end Holds

end Fields

/-- A record is decoded from an object with its fields in their order, under any of their names. -/
theorem Decoder.returns_object {α : Type} {schema : List Field} {a : α} {body : Fields → Option α}
    {ms : List (String × Json)} (members : List (String × Json))
    (keys : ms.map (fun m => (Fields.nameOf? schema m.1, m.2)) = members.map fun m => (some m.1, m.2))
    (names : members.map (·.1) = schema.map (·.name)) (distinct : (schema.map (·.name)).Nodup)
    (each : ∀ m ∈ members, m.2.Legible) (decodes : ∀ f : Fields, f.Holds members → body f = some a) :
    Decoder.Returns (fun room j => do let f ← Fields.read schema room j; body f) (.object ms) a := by
  rw [← names] at distinct
  have values : ms.map (·.2) = members.map (·.2) := by
    have same := congrArg (List.map (·.2)) keys
    rwa [List.map_map, List.map_map] at same
  have forall_iff (p : Json → Prop) : (∀ m ∈ ms, p m.2) ↔ ∀ m ∈ members, p m.2 := by
    rw [← List.forall_mem_map, values, List.forall_mem_map]
  constructor
  case legible => exact .object ((forall_iff _).mpr each)
  case reads =>
    intro room fits
    obtain ⟨room, rfl, inside⟩ := Json.room_of_object fits
    have found := Fields.ofMembers?_eq keys (by rwa [List.nil_append])
    rw [List.nil_append] at found
    show ((Fields.ofMembers? schema [] ms).map (⟨room, ·⟩)).bind body = some a
    rw [found]
    exact decodes ⟨room, members⟩ ⟨rfl, (forall_iff (·.depth ≤ room)).mp inside⟩

theorem Decoder.returns_record {α : Type} {schema : List Field} {a : α} {body : Fields → Option α}
    {ms : List (String × Json)} (names : ms.map (·.1) = schema.map (·.name))
    (distinct : (schema.map (·.name)).Nodup)
    (named : ∀ f ∈ schema, Fields.nameOf? schema f.name = some f.name)
    (each : ∀ m ∈ ms, m.2.Legible) (decodes : ∀ f : Fields, f.Holds ms → body f = some a) :
    Decoder.Returns (fun room j => do let f ← Fields.read schema room j; body f) (.object ms) a := by
  apply Decoder.returns_object ms _ names distinct each decodes
  apply List.map_congr_left
  intro m member
  have key : m.1 ∈ schema.map (·.name) := by
    rw [← names]
    exact List.mem_map_of_mem member
  obtain ⟨field, listed, same⟩ := List.mem_map.mp key
  rw [← same, named field listed]

end Orchestration
