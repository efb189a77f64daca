import Orchestration.Entries
import Mathlib.Data.List.Nodup

namespace Orchestration

theorem lookup_cons_eq {κ α : Type} [BEq κ] [LawfulBEq κ] [DecidableEq κ] (k : κ) (a : α)
    (l : List (κ × α)) (x : κ) : ((k, a) :: l).lookup x = if x = k then some a else l.lookup x := by
  rw [List.lookup_cons]
  by_cases same : x = k
  · simp [same]
  · simp [same, beq_false_of_ne same]

theorem lookup_eq_some_iff_mem {κ α : Type} [BEq κ] [LawfulBEq κ] {l : List (κ × α)} {k : κ} {a : α}
    (distinct : (l.map (·.1)).Nodup) : l.lookup k = some a ↔ (k, a) ∈ l := by
  rw [List.lookup_eq_some_iff]
  constructor
  · rintro ⟨first, rest, split, -⟩
    rw [split]
    exact List.mem_append_right _ (List.mem_cons_self ..)
  · intro member
    obtain ⟨first, rest, split⟩ := List.append_of_mem member
    refine ⟨first, rest, split, fun entry before => ?_⟩
    rw [split, List.map_append, List.map_cons] at distinct
    have apart := (List.nodup_append.mp distinct).2.2
    exact bne_iff_ne.mpr (apart entry.1 (List.mem_map_of_mem before) k (List.mem_cons_self ..)).symm

section Put

variable {κ α : Type} [BEq κ] [LawfulBEq κ] [DecidableEq κ]

theorem lookup_put (key : κ) (value : α) (entries : List (κ × α)) (x : κ) :
    (put key value entries).lookup x = if x = key then some value else entries.lookup x := by
  induction entries with
  | nil => rw [put, lookup_cons_eq, List.lookup_nil]
  | cons entry entries ih =>
    obtain ⟨k, old⟩ := entry
    rw [put]
    by_cases here : k = key
    · subst here
      rw [if_pos rfl, lookup_cons_eq, lookup_cons_eq]
      split <;> rfl
    · rw [if_neg here, lookup_cons_eq, lookup_cons_eq, ih]
      by_cases same : x = k
      · rw [if_pos same, if_neg (same ▸ here), if_pos same]
      · rw [if_neg same, if_neg same]

theorem put_of_new {key : κ} {entries : List (κ × α)} (new : entries.lookup key = none) (value : α) :
    put key value entries = entries ++ [(key, value)] := by
  induction entries with
  | nil => rfl
  | cons entry entries ih =>
    obtain ⟨k, old⟩ := entry
    rw [lookup_cons_eq] at new
    split at new
    · cases new
    · rename_i other
      rw [put, if_neg (Ne.symm other), ih new, List.cons_append]

theorem put_append {key : κ} {entries : List (κ × α)} (new : entries.lookup key = none)
    (value old : α) : put key value (entries ++ [(key, old)]) = entries ++ [(key, value)] := by
  induction entries with
  | nil => exact if_pos rfl
  | cons entry entries ih =>
    obtain ⟨k, v⟩ := entry
    rw [lookup_cons_eq] at new
    split at new
    · cases new
    · rename_i other
      rw [List.cons_append, put, if_neg (Ne.symm other), ih new, List.cons_append]

end Put

end Orchestration
