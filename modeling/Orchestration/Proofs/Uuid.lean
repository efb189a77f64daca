import Orchestration.Uuid
import Orchestration.Proofs.Text.Digits

namespace Orchestration

open Text

namespace Uuid

theorem ofNat_value (u : Uuid) : ofNat u.value = u := by
  obtain ⟨value, bound⟩ := u
  simp only [ofNat, Nat.mod_eq_of_lt bound]

theorem ofSimple?_hexDigits (u : Uuid) : ofSimple? (hexDigits 32 u.value) = some u := by
  have fits : u.value < 16 ^ 32 := u.bound
  unfold ofSimple?
  rw [if_pos (length_hexDigits ..), ofHex?_hexDigits fits, Option.map_some, ofNat_value]

theorem hyphenate_parts {cs : List Char} (length : cs.length = 32) :
    ∃ a b c d e : List Char, a.length = 8 ∧ b.length = 4 ∧ c.length = 4 ∧ d.length = 4 ∧
      cs = a ++ (b ++ (c ++ (d ++ e))) ∧
      hyphenate cs = a ++ '-' :: (b ++ '-' :: (c ++ '-' :: (d ++ '-' :: e))) := by
  refine ⟨cs.take 8, (cs.drop 8).take 4, (cs.drop 12).take 4, (cs.drop 16).take 4, cs.drop 20, ?_⟩
  have second : cs.drop 12 = (cs.drop 8).drop 4 := by rw [List.drop_drop]
  have third : cs.drop 16 = (cs.drop 12).drop 4 := by rw [List.drop_drop]
  have fourth : cs.drop 20 = (cs.drop 16).drop 4 := by rw [List.drop_drop]
  refine ⟨by simp [length], by simp [length], by simp [length], by simp [length], ?_, ?_⟩
  · rw [fourth, List.take_append_drop, third, List.take_append_drop, second, List.take_append_drop,
      List.take_append_drop]
  · simp [hyphenate]

theorem ofHyphenated?_hyphenate {cs : List Char} (length : cs.length = 32) :
    ofHyphenated? (hyphenate cs) = ofSimple? cs := by
  obtain ⟨a, b, c, d, e, eight, four, four', four'', parts, hyphens⟩ := hyphenate_parts length
  have bare : (hyphenate cs).take 8 ++ ((hyphenate cs).drop 9).take 4 ++
      ((hyphenate cs).drop 14).take 4 ++ ((hyphenate cs).drop 19).take 4 ++
      (hyphenate cs).drop 24 = cs := by
    rw [hyphens, parts]
    simp (disch := omega) [List.drop_append, List.drop_eq_nil_of_le, eight, four, four',
      four'']
  unfold ofHyphenated?
  dsimp only
  rw [bare, if_pos rfl]

theorem length_chars (u : Uuid) : u.chars.length = 36 := by
  unfold chars hyphenate
  simp [length_hexDigits]

theorem exists_chars_eq_cons (u : Uuid) : ∃ d < 16, ∃ r, u.chars = hexChar d :: r := by
  cases digits : hexDigits 32 u.value with
  | nil =>
    have length := length_hexDigits 32 u.value
    rw [digits] at length
    cases length
  | cons c cs =>
    have member : c ∈ hexDigits 32 u.value := by
      rw [digits]
      exact List.mem_cons_self ..
    obtain ⟨d, small, rfl⟩ := exists_of_mem_hexDigits member
    unfold chars
    rw [digits]
    exact ⟨d, small, _, rfl⟩

theorem ofChars?_chars (u : Uuid) : ofChars? u.chars = some u := by
  have hyphenated : ofHyphenated? u.chars = some u :=
    (ofHyphenated?_hyphenate (length_hexDigits ..)).trans (ofSimple?_hexDigits u)
  have length := u.length_chars
  obtain ⟨d, small, r, begins⟩ := u.exists_chars_eq_cons
  have plain : ∀ d < 16, hexChar d ≠ '\x7b' ∧ (hexChar d).toLower ≠ 'u' := by decide
  obtain ⟨brace, urn⟩ := plain d small
  have bare : (u.chars.take 9).map Char.toLower ≠ "urn:uuid:".toList := by
    rw [begins]
    intro same
    exact urn (List.cons.inj same).1
  unfold ofChars?
  split
  · rename_i same
    exact absurd (List.cons.inj (begins.symm.trans same)).1 brace
  · rw [if_neg bare, if_neg (by omega)]
    exact hyphenated

theorem ofText?_text (u : Uuid) : ofText? u.text = some u := by
  unfold ofText? text
  rw [String.toList_ofList]
  exact ofChars?_chars u

end Uuid

end Orchestration
