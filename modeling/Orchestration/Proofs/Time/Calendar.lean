import Orchestration.Time.Calendar

namespace Orchestration.Date

/-- The days of an era make up four centuries, of which all but the last lack their last leap day,
and these make up cycles of four years. -/
theorem exists_cycles {e : Int} (positive : 0 ≤ e) (below : e < 146097) :
    ∃ c q s : Int, 0 ≤ c ∧ c ≤ 3 ∧ 0 ≤ q ∧ q ≤ 24 ∧ 0 ≤ s ∧ s ≤ 1460 ∧
      (q = 24 → s = 1460 → c = 3) ∧ e = 36524 * c + 1461 * q + s := by
  obtain ⟨c, century⟩ : ∃ c, c = min (e / 36524) 3 := ⟨_, rfl⟩
  obtain ⟨q, cycle⟩ : ∃ q, q = min ((e - 36524 * c) / 1461) 24 := ⟨_, rfl⟩
  refine ⟨c, q, e - 36524 * c - 1461 * q, ?_, ?_, ?_, ?_, ?_, ?_, ?_, ?_⟩
  all_goals omega

theorem yearOfEra_eq {e c q s : Int} (century : 0 ≤ c ∧ c ≤ 3) (cycle : 0 ≤ q ∧ q ≤ 24)
    (day : 0 ≤ s ∧ s ≤ 1460) (leap : q = 24 → s = 1460 → c = 3)
    (parts : e = 36524 * c + 1461 * q + s) :
    (e - e / 1460 + e / 36524 - e / 146096) / 365 = 100 * c + 4 * q + min (s / 365) 3 := by
  have centuries : e / 36524 - e / 146096 = c := by
    by_cases last : e < 146096
    · have first : e / 146096 = 0 := by omega
      have whole : e / 36524 = c := by omega
      omega
    · omega
  -- Up to 96 of the leap days are counted too early, all of them in the last year of a cycle.
  have days : e / 1460 = 25 * c + q ∨ e / 1460 = 25 * c + q + 1 ∧ 1364 ≤ s := by omega
  have added : s = 1460 → e / 1460 = 25 * c + q + 1 := by omega
  omega

theorem yearOfEra_spec {e : Int} (positive : 0 ≤ e) (below : e < 146097) :
    ∃ year day : Int, (e - e / 1460 + e / 36524 - e / 146096) / 365 = year ∧
      e - (365 * year + year / 4 - year / 100) = day ∧ 0 ≤ year ∧ year ≤ 399 ∧ 0 ≤ day ∧ day ≤ 365 ∧
      (day = 365 → (year + 1) % 4 = 0 ∧ ((year + 1) % 100 ≠ 0 ∨ (year + 1) % 400 = 0)) := by
  obtain ⟨c, q, s, century, century', cycle, cycle', rest, rest', last, parts⟩ :=
    exists_cycles positive below
  obtain ⟨t, third⟩ : ∃ t, min (s / 365) 3 = t := ⟨_, rfl⟩
  have inCycle : 0 ≤ t ∧ t ≤ 3 := by omega
  have inYear : 0 ≤ s - 365 * t ∧ (s - 365 * t ≤ 364 ∨ s = 1460 ∧ t = 3) := by omega
  have fourth : (100 * c + 4 * q + t) / 4 = 25 * c + q := by omega
  have hundredth : (100 * c + 4 * q + t) / 100 = c := by omega
  refine ⟨100 * c + 4 * q + t, s - 365 * t, ?_, by omega, by omega, by omega, by omega, by omega, ?_⟩
  · rw [← third]
    exact yearOfEra_eq ⟨century, century'⟩ ⟨cycle, cycle'⟩ ⟨rest, rest'⟩ last parts
  · intro long
    obtain ⟨rfl, rfl⟩ : s = 1460 ∧ t = 3 := by omega
    by_cases final : q = 24
    · have fourth := last final rfl
      omega
    · omega

structure Lies (date : Date) (days era year month day : Int) : Prop where
  year_nonneg : 0 ≤ year
  year_le : year ≤ 399
  day_nonneg : 0 ≤ day
  day_le : day ≤ 365
  leap : day = 365 → (year + 1) % 4 = 0 ∧ ((year + 1) % 100 ≠ 0 ∨ (year + 1) % 400 = 0)
  month_eq : (5 * day + 2) / 153 = month
  days_eq : days + 719468 = era * 146097 + (365 * year + year / 4 - year / 100 + day)
  inYear : month < 10 ∧ date.year = year + era * 400 ∧ (date.month : Int) = month + 3 ∨
    10 ≤ month ∧ date.year = year + era * 400 + 1 ∧ (date.month : Int) = month - 9
  inMonth : (date.day : Int) = day - (153 * month + 2) / 5 + 1

theorem lies_ofDays (days : Int) : ∃ era year month day, Lies (ofDays days) days era year month day := by
  have positive : 0 ≤ days + 719468 - (days + 719468) / 146097 * 146097 := by omega
  have below : days + 719468 - (days + 719468) / 146097 * 146097 < 146097 := by omega
  obtain ⟨year, day, inEra, inYear, year_nonneg, year_le, day_nonneg, day_le, leap⟩ :=
    yearOfEra_spec positive below
  obtain ⟨month, same⟩ : ∃ month, (5 * day + 2) / 153 = month := ⟨_, rfl⟩
  have date : ofDays days =
      ⟨year + (days + 719468) / 146097 * 400 +
          (if (if month < 10 then month + 3 else month - 9) ≤ 2 then 1 else 0),
        (if month < 10 then month + 3 else month - 9).toNat,
        (day - (153 * month + 2) / 5 + 1).toNat⟩ := by
    unfold ofDays
    dsimp only
    rw [inEra, inYear, same]
  refine ⟨(days + 719468) / 146097, year, month, day, ?_⟩
  rw [date]
  constructor
  case inYear =>
    by_cases early : month < 10
    · rw [if_pos early, if_neg (by omega)]
      dsimp only
      omega
    · rw [if_neg early, if_pos (by omega)]
      dsimp only
      omega
  case inMonth =>
    dsimp only
    omega
  case days_eq => omega
  all_goals assumption

namespace Lies

variable {date : Date} {days era year month day : Int}

theorem toDays (lies : Lies date days era year month day) : date.toDays = days := by
  obtain ⟨year_nonneg, year_le, day_nonneg, day_le, -, month_eq, days_eq, inYear, inMonth⟩ := lies
  have shifted : (if date.month ≤ 2 then date.year - 1 else date.year) = year + era * 400 := by
    rcases inYear with ⟨early, same, later⟩ | ⟨late, same, earlier⟩
    · rw [if_neg (by omega), same]
    · rw [if_pos (by omega), same]
      omega
  have fromMarch : ((date.month : Int) + 9) % 12 = month := by omega
  have inEra : (year + era * 400) / 400 = era := by omega
  unfold Date.toDays
  dsimp only
  rw [shifted, fromMarch, inEra, inMonth]
  omega

theorem numbers_le (lies : Lies date days era year month day) : date.month ≤ 12 ∧ date.day ≤ 31 := by
  obtain ⟨-, -, day_nonneg, day_le, -, month_eq, -, inYear, inMonth⟩ := lies
  omega

theorem isValid (lies : Lies date days era year month day) : date.isValid = true := by
  have months := lies.numbers_le.1
  obtain ⟨year_nonneg, year_le, day_nonneg, day_le, leap, month_eq, -, inYear, inMonth⟩ := lies
  have first : 1 ≤ date.month ∧ 1 ≤ date.day := by omega
  have last : date.day ≤ daysInMonth date.year date.month := by
    unfold daysInMonth
    split
    -- Counted from March, the last month is February, and its last day the leap day.
    · have february : month = 11 := by omega
      have leapYear : day = 365 → isLeapYear date.year = true := by
        intro long
        have multiples := leap long
        simp only [isLeapYear, Bool.and_eq_true, Bool.or_eq_true, beq_iff_eq, bne_iff_ne]
        omega
      split
      · omega
      · rename_i short
        have shorter := mt leapYear short
        omega
    · split
      · omega
      · omega
  simp only [Date.isValid, Bool.and_eq_true, decide_eq_true_eq]
  omega

theorem year_bounds (lies : Lies date days era year month day) (earliest : -96465292 ≤ days)
    (latest : days ≤ 95026236) : -262143 ≤ date.year ∧ date.year ≤ 262142 := by
  obtain ⟨year_nonneg, year_le, day_nonneg, day_le, -, month_eq, days_eq, inYear, -⟩ := lies
  have eras : -656 ≤ era ∧ era ≤ 655 := by omega
  constructor
  · rcases Int.lt_or_le (-656) era with later | first
    · omega
    · obtain rfl : era = -656 := by omega
      have years : 256 ≤ year := by omega
      rcases Int.lt_or_le 256 year with later | first
      · omega
      · obtain rfl : year = 256 := by omega
        omega
  · rcases Int.lt_or_le era 655 with earlier | last
    · omega
    · obtain rfl : era = 655 := by omega
      have years : year ≤ 142 := by omega
      rcases Int.lt_or_le year 142 with earlier | last
      · omega
      · obtain rfl : year = 142 := by omega
        omega

end Lies

end Orchestration.Date
