import Orchestration.Time.Timestamp

namespace Orchestration.Timestamp

theorem rank_of_leap {t : Timestamp} (leap : t.leap = true) :
    t.rank = t.nanos + t.nanos / 1000000000 * 1000000000 + 1000000000 := by
  rw [rank, leap, if_pos rfl]

theorem rank_of_regular {t : Timestamp} (regular : t.leap = false) :
    t.rank = t.nanos + t.nanos / 1000000000 * 1000000000 := by
  simp [rank, regular]

theorem latest_nanos : latest.nanos = 8210266876799999999999 := rfl

theorem nanos_after (t : Timestamp) (delay : Nat) :
    (t.after delay).nanos = min (t.nanos + delay) latest.nanos := by
  have least := t.earliest_le
  have most := t.le_latest
  have limit := latest_nanos
  unfold after add? ofNanos? millis
  split
  · -- A span that is too long for dates leads beyond the greatest of them from any other.
    show latest.nanos = _
    omega
  · split
    · rename_i lingers
      have within := lingers.2
      show t.nanos + delay = _
      omega
    · split
      · show t.nanos + delay = _
        omega
      · show latest.nanos = _
        omega

theorem leap_after {t : Timestamp} {delay : Nat} : (t.after delay).leap = true ↔ t.Lingers delay := by
  unfold after add? ofNanos? millis
  split
  · refine iff_of_false nofun fun lingers => ?_
    have within := lingers.2
    omega
  · split
    · exact iff_of_true rfl ‹_›
    · split <;> exact iff_of_false nofun ‹_›

theorem advance_regular {t : Timestamp} (delay : Nat) (regular : t.leap = false) :
    (t.advance delay).leap = false := by
  unfold advance add? ofNanos?
  split
  · exact regular
  · split
    · rename_i lingers
      cases regular.symm.trans lingers.1
    · split
      · rfl
      · exact regular

/-- A delay leads on in the leap second, or to a time that lies in none. -/
theorem after_cases (t : Timestamp) (delay : Nat) :
    (t.Lingers delay ∧ (t.after delay).rank = t.rank + delay) ∨
      (¬ t.Lingers delay ∧ (t.after delay).rank = min (t.nanos + delay) latest.nanos +
        min (t.nanos + delay) latest.nanos / 1000000000 * 1000000000) := by
  have nanos := nanos_after t delay
  by_cases lingers : t.Lingers delay
  · have most := t.le_latest
    have limit := latest_nanos
    obtain ⟨leap, within⟩ := lingers
    refine .inl ⟨⟨leap, within⟩, ?_⟩
    rw [rank_of_leap leap, rank_of_leap (leap_after.mpr ⟨leap, within⟩)]
    omega
  · have regular : (t.after delay).leap = false := by
      rw [← Bool.not_eq_true, leap_after]
      exact lingers
    refine .inr ⟨lingers, ?_⟩
    rw [rank_of_regular regular, nanos]

section Within

variable {t : Timestamp} {delay delay' : Nat}

theorem later_after (within : t ≤ latest) (delay : Nat) :
    t ≤ t.after delay ∧ (t < latest → 0 < delay → t < t.after delay) := by
  have most := t.le_latest
  have limit := latest_nanos
  simp only [lt_iff, le_iff] at within ⊢
  rcases t.after_cases delay with ⟨-, here⟩ | ⟨left, there⟩
  · omega
  · rw [there]
    cases leap : t.leap with
    | false =>
      rw [rank_of_regular leap, rank_of_regular rfl]
      omega
    | true =>
      -- There is no leap second at the end, so that another second follows.
      have away : ¬ t.nanos % 1000000000 + delay < 1000000000 := fun stays => left ⟨leap, stays⟩
      rw [rank_of_leap leap, rank_of_regular rfl] at within ⊢
      omega

theorem le_after (within : t ≤ latest) (delay : Nat) : t ≤ t.after delay := (later_after within delay).1

theorem lt_after (early : t < latest) (positive : 0 < delay) : t < t.after delay :=
  (later_after (Int.le_of_lt early) delay).2 early positive

theorem after_mono_delay (within : t ≤ latest) (longer : delay ≤ delay') :
    t.after delay ≤ t.after delay' := by
  have limit := latest_nanos
  rw [le_iff] at within ⊢
  rcases t.after_cases delay' with ⟨⟨leap, stays⟩, there⟩ | ⟨left', there⟩
  · rcases t.after_cases delay with ⟨-, here⟩ | ⟨left, -⟩
    · omega
    · exact absurd ⟨leap, by omega⟩ left
  · rw [there]
    rcases t.after_cases delay with ⟨⟨leap, stays⟩, here⟩ | ⟨-, here⟩
    · have away : ¬ t.nanos % 1000000000 + delay' < 1000000000 := fun stays => left' ⟨leap, stays⟩
      rw [rank_of_leap leap] at here within
      rw [rank_of_regular rfl] at within
      omega
    · omega

end Within

theorem nanos_after_mono {t t' : Timestamp} {delay delay' : Nat} (later : t.nanos ≤ t'.nanos)
    (longer : delay ≤ delay') : (t.after delay).nanos ≤ (t'.after delay').nanos := by
  rw [nanos_after, nanos_after]
  omega

theorem after_mono {t t' : Timestamp} {delay delay' : Nat} (later : t ≤ t') (regular : t'.leap = false)
    (longer : delay ≤ delay') : t.after delay ≤ t'.after delay' := by
  have most := t'.le_latest
  have limit := latest_nanos
  rw [le_iff, rank_of_regular regular] at later
  rw [le_iff]
  rcases t'.after_cases delay' with ⟨⟨leap, -⟩, -⟩ | ⟨-, there'⟩
  · cases regular.symm.trans leap
  · rw [there']
    rcases t.after_cases delay with ⟨⟨leap, stays⟩, there⟩ | ⟨-, there⟩
    · rw [rank_of_leap leap] at there later
      omega
    · cases leap : t.leap with
      | false =>
        rw [rank_of_regular leap] at later
        omega
      | true =>
        rw [rank_of_leap leap] at later
        omega

/-- A leap second is no exception where the longer delay is a second at least. -/
theorem lt_after_of_le {first last now : Timestamp} {interval delay : Nat}
    (span : last ≤ first.after interval) (longer : interval < delay) (long : 1000000000 ≤ delay)
    (later : first.nanos ≤ now.nanos) (early : last < latest) : last < now.after delay := by
  have limit := latest_nanos
  rw [lt_iff, rank_of_regular (t := latest) rfl] at early
  rw [le_iff] at span
  rw [lt_iff]
  rcases now.after_cases delay with ⟨⟨-, stays⟩, -⟩ | ⟨-, there⟩
  · omega
  · rw [there]
    rcases first.after_cases interval with ⟨⟨leap, stays⟩, here⟩ | ⟨-, here⟩
    · rw [rank_of_leap leap] at here
      omega
    · omega

end Orchestration.Timestamp
