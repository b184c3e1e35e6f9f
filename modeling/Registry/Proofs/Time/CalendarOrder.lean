import Registry.Proofs.Time.CalendarDay

/-!
# CalendarOrder — the order of dates is that of their days

A date that comes later in the calendar belongs to a later day: a year takes as many days as its months
together, and a month as many as it has dates.  So a day has one date only, and each date of the calendar
is found again from its day.
-/

namespace Registry.Date

/-! ## The calendar -/

/-- Four divides the year, and where a hundred divides it, four hundred does. -/
def IsLeap (year : Nat) : Prop := 4 ∣ year ∧ (100 ∣ year → 400 ∣ year)

instance (year : Nat) : Decidable (IsLeap year) := inferInstanceAs (Decidable (_ ∧ _))

/-- The days of a month: thirty in April, June, September and November, 28 or 29 in February. -/
def monthLength (year month : Nat) : Nat :=
  if month = 2 then if IsLeap year then 29 else 28
  else if month = 4 ∨ month = 6 ∨ month = 9 ∨ month = 11 then 30
  else 31

/-- The calendar has such a date. -/
def IsGregorian (year month day : Nat) : Prop :=
  1 ≤ month ∧ month ≤ 12 ∧ 1 ≤ day ∧ day ≤ monthLength year month

theorem isLeapYear_iff {year : Nat} : isLeapYear year = true ↔ IsLeap year := by
  simp only [isLeapYear, IsLeap, Bool.and_eq_true, Bool.or_eq_true, beq_iff_eq, bne_iff_ne]
  omega

theorem daysInMonth_eq {year month : Nat} (hfirst : 1 ≤ month) (hlast : month ≤ 12) :
    daysInMonth year month = monthLength year month := by
  have hmonths : ∀ leap : Bool, ∀ month ≤ 12, 1 ≤ month →
      (daysBeforeMonthPlain (month + 1) + if leap && 2 < month + 1 then 1 else 0) -
          (daysBeforeMonthPlain month + if leap && 2 < month then 1 else 0) =
        if month = 2 then if leap = true then 29 else 28
        else if month = 4 ∨ month = 6 ∨ month = 9 ∨ month = 11 then 30
        else 31 := by
    decide
  unfold daysInMonth daysBeforeMonth monthLength
  rw [hmonths _ month hlast hfirst]
  simp only [isLeapYear_iff]

theorem isValid_iff {year month day : Nat} :
    ({ year, month, day } : Date).isValid = true ↔ IsGregorian year month day := by
  simp only [isValid, IsGregorian, Bool.and_eq_true, decide_eq_true_eq, and_assoc]
  constructor
  · rintro ⟨hfirst, hlast, hday, hle⟩
    exact ⟨hfirst, hlast, hday, daysInMonth_eq hfirst hlast ▸ hle⟩
  · rintro ⟨hfirst, hlast, hday, hle⟩
    exact ⟨hfirst, hlast, hday, (daysInMonth_eq hfirst hlast).symm ▸ hle⟩

/-! ## The order -/

/-- The year decides first, then the month, then the day. -/
def Before (a b : Date) : Prop :=
  a.year < b.year ∨ a.year = b.year ∧ (a.month < b.month ∨ a.month = b.month ∧ a.day < b.day)

theorem daysBeforeYear_mono {a b : Int} (h : a ≤ b) : daysBeforeYear a ≤ daysBeforeYear b := by
  simp only [daysBeforeYear]
  omega

section

variable {d : Date} (h : d.isValid = true)
include h

-- A date comes before the next month.
theorem daysBeforeMonth_add_lt :
    1 ≤ d.month ∧ d.month ≤ 12 ∧ 1 ≤ d.day ∧
      daysBeforeMonth d.year d.month + d.day ≤ daysBeforeMonth d.year (d.month + 1) := by
  simp only [isValid, Bool.and_eq_true, decide_eq_true_eq, and_assoc] at h
  obtain ⟨hfirst, hlast, hday, hle⟩ := h
  have hmono := daysBeforeMonth_mono d.year hfirst (Nat.le_succ _) (by omega)
  unfold daysInMonth at hle
  exact ⟨hfirst, hlast, hday, by omega⟩

-- The days of a year come behind all of an earlier year and before all of a later one.
theorem toDay_bounds :
    daysBeforeYear d.year - epochDay ≤ d.toDay ∧ d.toDay < daysBeforeYear (d.year + 1) - epochDay := by
  obtain ⟨hfirst, hlast, hday, hle⟩ := daysBeforeMonth_add_lt h
  have hmono := daysBeforeMonth_mono d.year (by omega) (by omega : d.month + 1 ≤ 12 + 1) (Nat.le_refl _)
  have hlength := daysBeforeYear_succ d.year
  have hend := daysBeforeMonth_end d.year
  unfold toDay
  constructor
  · omega
  · split at hlength <;> rename_i hleap
    · rw [if_pos hleap] at hend
      omega
    · rw [if_neg hleap] at hend
      omega

end

section

variable {a b : Date} (ha : a.isValid = true) (hb : b.isValid = true)
include ha hb

theorem toDay_lt_toDay (h : a.Before b) : a.toDay < b.toDay := by
  rcases h with hyear | ⟨hyear, hmonth | ⟨hmonth, hday⟩⟩
  · have hbounds := (toDay_bounds ha).2
    have hbounds' := (toDay_bounds hb).1
    have hmono := daysBeforeYear_mono (by omega : a.year + 1 ≤ b.year)
    omega
  · obtain ⟨-, -, -, hle⟩ := daysBeforeMonth_add_lt ha
    obtain ⟨-, hlast, hfirst, -⟩ := daysBeforeMonth_add_lt hb
    have hmono := daysBeforeMonth_mono a.year (by omega) (by omega : a.month + 1 ≤ b.month) (by omega)
    unfold toDay
    rw [← hyear]
    omega
  · obtain ⟨-, -, hfirst, -⟩ := daysBeforeMonth_add_lt ha
    unfold toDay
    rw [← hyear, ← hmonth]
    omega

-- A day has one date.
theorem eq_of_toDay_eq (h : a.toDay = b.toDay) : a = b := by
  have hnot : ¬ a.Before b := fun hbefore => absurd (toDay_lt_toDay ha hb hbefore) (by omega)
  have hnot' : ¬ b.Before a := fun hbefore => absurd (toDay_lt_toDay hb ha hbefore) (by omega)
  unfold Before at hnot hnot'
  cases a
  cases b
  simp only [mk.injEq] at *
  omega

end

-- The date of the day of a date is that date.
theorem ofDay_toDay {d : Date} (h : d.isValid = true) : ofDay d.toDay = d := by
  obtain ⟨hvalid, hday⟩ := ofDay_spec d.toDay
  exact eq_of_toDay_eq hvalid h hday

end Registry.Date
