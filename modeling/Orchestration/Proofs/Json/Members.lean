import Orchestration.Json.Basic
import Mathlib.Data.String.Basic

namespace Orchestration

namespace Json

/-- The keys stand in order, each once. -/
abbrev Sorted (ms : List (String × Json)) : Prop := ms.Pairwise fun a b => a.1 < b.1

variable {ms : List (String × Json)} {key : String}

theorem Sorted.nodup (sorted : Sorted ms) : (ms.map (·.1)).Nodup := by
  apply List.Pairwise.map (·.1) _ sorted
  exact fun a b less => ne_of_lt less

theorem mem_of_mem_setMember {m : String × Json} {v : Json} (member : m ∈ setMember key v ms) :
    m = (key, v) ∨ m ∈ ms := by
  induction ms with
  | nil => exact .inl (List.mem_singleton.mp member)
  | cons first ms ih =>
    obtain ⟨k, w⟩ := first
    unfold setMember at member
    split at member
    · rcases List.mem_cons.mp member with rfl | old
      · exact .inl rfl
      · exact .inr old
    · split at member
      · rcases List.mem_cons.mp member with rfl | old
        · exact .inl rfl
        · exact .inr (List.mem_cons_of_mem _ old)
      · rcases List.mem_cons.mp member with rfl | later
        · exact .inr (List.mem_cons_self ..)
        · exact (ih later).imp_right (List.mem_cons_of_mem _)

theorem sorted_setMember (sorted : Sorted ms) (key : String) (v : Json) :
    Sorted (setMember key v ms) := by
  induction ms with
  | nil => exact List.pairwise_singleton _ _
  | cons first ms ih =>
    obtain ⟨k, w⟩ := first
    obtain ⟨least, rest⟩ := List.pairwise_cons.mp sorted
    unfold setMember
    split
    · rename_i before
      refine List.pairwise_cons.mpr ⟨fun m member => ?_, sorted⟩
      rcases List.mem_cons.mp member with rfl | later
      · exact before
      · exact before.trans (least m later)
    · split
      · rename_i same
        exact List.pairwise_cons.mpr ⟨fun m later => same ▸ least m later, rest⟩
      · rename_i before other
        refine List.pairwise_cons.mpr ⟨fun m member => ?_, ih rest⟩
        rcases mem_of_mem_setMember member with rfl | later
        · exact lt_of_le_of_ne (not_lt.mp before) other
        · exact least m later

theorem sorted_setMembers (sorted : Sorted ms) (extra : List (String × Json)) :
    Sorted (setMembers ms extra) := by
  induction extra generalizing ms with
  | nil => exact sorted
  | cons m extra ih => exact ih (sorted_setMember sorted m.1 m.2)

theorem mem_of_mem_setMembers {m : String × Json} {extra : List (String × Json)}
    (member : m ∈ setMembers ms extra) : m ∈ ms ∨ m ∈ extra := by
  induction extra generalizing ms with
  | nil => exact .inl member
  | cons first extra ih =>
    rcases ih member with here | later
    · rcases mem_of_mem_setMember here with rfl | old
      · exact .inr (List.mem_cons_self ..)
      · exact .inl old
    · exact .inr (List.mem_cons_of_mem _ later)

theorem setMember_perm (new : key ∉ ms.map (·.1)) (v : Json) :
    (setMember key v ms).Perm ((key, v) :: ms) := by
  induction ms with
  | nil => exact .refl _
  | cons first ms ih =>
    obtain ⟨k, w⟩ := first
    rw [List.map_cons, List.mem_cons, not_or] at new
    unfold setMember
    rw [if_neg (Ne.symm new.1)]
    split
    · exact .refl _
    · exact ((ih new.2).cons (k, w)).trans (.swap ..)

/-- Where keys are distinct, all members are there, whatever their order. -/
theorem setMembers_perm {extra : List (String × Json)}
    (distinct : ((ms ++ extra).map (·.1)).Nodup) : (setMembers ms extra).Perm (ms ++ extra) := by
  induction extra generalizing ms with
  | nil => rw [List.append_nil]; exact .refl _
  | cons m extra ih =>
    have new : m.1 ∉ ms.map (·.1) := by
      intro old
      rw [List.map_append] at distinct
      exact (List.nodup_append.mp distinct).2.2 m.1 old m.1 (List.mem_cons_self ..) rfl
    have moved : (setMember m.1 m.2 ms ++ extra).Perm (ms ++ m :: extra) :=
      ((setMember_perm new m.2).append_right extra).trans List.perm_middle.symm
    exact (ih ((moved.map _).nodup_iff.mpr distinct)).trans moved

theorem setMembers_of_sorted (sorted : Sorted ms) : setMembers [] ms = ms := by
  have perm : (setMembers [] ms).Perm ms := setMembers_perm sorted.nodup
  refine perm.eq_of_pairwise (fun a b _ _ less greater => ?_) (sorted_setMembers .nil ms) sorted
  exact absurd greater less.asymm

theorem ofMembers_swap {later : String} (less : key < later) (v w : Json) :
    ofMembers [(later, w), (key, v)] = .object [(key, v), (later, w)] := by
  simp [ofMembers, setMembers, setMember, less]

end Json

end Orchestration
