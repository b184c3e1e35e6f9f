import Registry.Time.Calendar

/-!
# CalendarDay — the date of a day

Each day, counted from 1970-01-01 in either direction, has a date of the calendar, and the date is that
of the day and of no other.  The year is guessed by the average length of a year, which is never off by
more than one, and the month is the one in which the day of the year falls.
-/

namespace Registry.Date

/-! ## Years -/

theorem yearOf_spec (day : Int) :
    daysBeforeYear (yearOf day) ≤ day ∧ day < daysBeforeYear (yearOf day + 1) := by
  unfold yearOf
  dsimp only
  -- The years before the guess and after the next one are on either side of the day.
  have hbefore : daysBeforeYear (400 * day / 146097 + 1 - 1) ≤ day := by
    simp only [daysBeforeYear]
    omega
  have hbehind : day < daysBeforeYear (400 * day / 146097 + 1 + 1 + 1) := by
    simp only [daysBeforeYear]
    omega
  generalize 400 * day / 146097 + 1 = guess at *
  split
  · rename_i hlate
    rw [Int.sub_add_cancel]
    exact ⟨hbefore, hlate⟩
  · split
    · rename_i hearly
      exact ⟨hearly, hbehind⟩
    · omega

/-! ## Months -/

-- Of twelve months that lie in order, those in front of a month and the month itself.
theorem length_filter_lt {month : Nat} (h : month ≤ 12) :
    ((List.range 12).filter fun k => decide (k < month)).length = month := by
  revert month
  decide

theorem daysBeforeMonth_mono (year : Int) {a b : Nat} (ha : 1 ≤ a) (hab : a ≤ b) (hb : b ≤ 13) :
    daysBeforeMonth year a ≤ daysBeforeMonth year b := by
  have hplain : ∀ a ≤ 13, ∀ b ≤ 13, 1 ≤ a → a ≤ b → daysBeforeMonthPlain a ≤ daysBeforeMonthPlain b := by
    decide
  have hle := hplain a (by omega) b hb ha hab
  unfold daysBeforeMonth
  cases isLeapYear year
  · simpa using hle
  · simp only [Bool.true_and, decide_eq_true_eq]
    split <;> split <;> omega

theorem monthOf_eq {year : Int} {month day : Nat} (hfirst : 1 ≤ month) (hlast : month ≤ 12)
    (hle : daysBeforeMonth year month ≤ day) (hlt : day < daysBeforeMonth year (month + 1)) :
    monthOf year day = month := by
  have hfilter : ∀ k ∈ List.range 12,
      decide (daysBeforeMonth year (k + 1) ≤ day) = decide (k < month) := by
    intro k hk
    rw [List.mem_range] at hk
    rw [decide_eq_decide]
    constructor
    · intro hbefore
      apply Nat.lt_of_not_le
      intro hnot
      have hmono :=
        daysBeforeMonth_mono year (by omega : 1 ≤ month + 1) (by omega : month + 1 ≤ k + 1) (by omega)
      omega
    · intro hk'
      exact Nat.le_trans (daysBeforeMonth_mono year (by omega) (by omega : k + 1 ≤ month) (by omega)) hle
  rw [monthOf, List.filter_congr hfilter, length_filter_lt hlast]

theorem exists_month {year : Int} {day last : Nat} (h : day < daysBeforeMonth year (last + 1)) :
    ∃ month, 1 ≤ month ∧ month ≤ last ∧ daysBeforeMonth year month ≤ day ∧
      day < daysBeforeMonth year (month + 1) := by
  induction last with
  | zero =>
    have hzero : daysBeforeMonth year (0 + 1) = 0 := by simp [daysBeforeMonth, daysBeforeMonthPlain]
    omega
  | succ last ih =>
    by_cases hearlier : day < daysBeforeMonth year (last + 1)
    · obtain ⟨month, hfirst, hle, hin⟩ := ih hearlier
      exact ⟨month, hfirst, by omega, hin⟩
    · exact ⟨last + 1, by omega, Nat.le_refl _, by omega, h⟩

theorem daysBeforeMonth_end (year : Int) :
    daysBeforeMonth year (12 + 1) = 365 + if isLeapYear year then 1 else 0 := by
  unfold daysBeforeMonth daysBeforeMonthPlain
  cases isLeapYear year <;> rfl

/-! ## Dates -/

/-- The date of a day is one of the calendar, and that of this very day. -/
theorem ofDay_spec (day : Int) : (ofDay day).isValid = true ∧ (ofDay day).toDay = day := by
  have hyear := yearOf_spec (day + epochDay)
  have hlength := daysBeforeYear_succ (yearOf (day + epochDay))
  unfold ofDay
  dsimp only
  generalize yearOf (day + epochDay) = year at *
  have hday : ((day + epochDay - daysBeforeYear year).toNat : Int) =
      day + epochDay - daysBeforeYear year := Int.toNat_of_nonneg (by omega)
  generalize (day + epochDay - daysBeforeYear year).toNat = dayOfYear at *
  have hend : dayOfYear < daysBeforeMonth year (12 + 1) := by
    rw [daysBeforeMonth_end]
    split at hlength
    · rename_i hleap
      rw [if_pos hleap]
      omega
    · rename_i hleap
      rw [if_neg hleap]
      omega
  obtain ⟨month, hfirst, hlast, hle, hlt⟩ := exists_month hend
  rw [monthOf_eq hfirst hlast hle hlt]
  constructor
  · simp only [isValid, Bool.and_eq_true, decide_eq_true_eq]
    unfold daysInMonth
    omega
  · simp only [toDay]
    omega

end Registry.Date
