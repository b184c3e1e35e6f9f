import Mathlib.Tactic.IntervalCases
import Registry.Proofs.Text.DigitRuns
import Registry.Time.Compact

/-!
# CompactText — the texts of delivered date-times

A delivered date-time is the padded digits of a date, followed by no time of day, by hours and minutes,
or by seconds as well.  It denotes an instant just when the date is one of the calendar and the time of
day exists; the range of instants holds all years of four digits, so it refuses nothing.
-/

namespace Registry.Instant

open Registry.Text

/-! ## The grammar -/

/-- A time of day in digits; what is left out is zero. -/
inductive IsTimeOfDay : List Char → Nat → Nat → Nat → Prop
  | midnight : IsTimeOfDay [] 0 0 0
  | minute (hour minute : Nat) :
      IsTimeOfDay (paddedDigits 2 hour ++ paddedDigits 2 minute) hour minute 0
  | second (hour minute second : Nat) :
      IsTimeOfDay (paddedDigits 2 hour ++ (paddedDigits 2 minute ++ paddedDigits 2 second)) hour minute
        second

/-- The text is a year of four digits, a month, a day and a time of day. -/
def IsCompact (text : List Char) (year month day hour minute second : Nat) : Prop :=
  year < 10000 ∧ ∃ time, IsTimeOfDay time hour minute second ∧
    text = paddedDigits 4 year ++ (paddedDigits 2 month ++ (paddedDigits 2 day ++ time))

/-- The date is one of the calendar, and the time of day exists; second 60 may be a leap second. -/
def IsOnCalendar (year month day hour minute second : Nat) : Prop :=
  ({ year, month, day } : Date).isValid = true ∧ hour < 24 ∧ minute < 60 ∧ second ≤ 60

/-- The text denotes the instant. -/
def IsText (text : List Char) (t : Instant) : Prop :=
  ∃ year month day hour minute second, IsCompact text year month day hour minute second ∧
    IsOnCalendar year month day hour minute second ∧
    t.second = Date.toDay { year, month, day } * secondsPerDay + hour * 3600 + minute * 60 +
      min second 59 ∧
    t.nano = if second = 60 then nanosPerSecond else 0

/-! ## Numbers at fixed places -/

theorem numberAt_append {before rest : List Char} {start width n : Nat} (hstart : before.length = start)
    (hwidth : 0 < width) (h : n < 10 ^ width) :
    numberAt (before ++ (paddedDigits width n ++ rest)) start width = n := by
  have hlength := length_paddedDigits hwidth h
  rw [numberAt, List.drop_left' hstart, List.take_left' hlength, natOfDigits_paddedDigits]

theorem numberAt_front {rest : List Char} {width n : Nat} (hwidth : 0 < width) (h : n < 10 ^ width) :
    numberAt (paddedDigits width n ++ rest) 0 width = n := by
  have hfront : numberAt ([] ++ (paddedDigits width n ++ rest)) 0 width = n :=
    numberAt_append rfl hwidth h
  rwa [List.nil_append] at hfront

theorem numberAt_of_length_le {text : List Char} {start : Nat} (h : text.length ≤ start) (width : Nat) :
    numberAt text start width = 0 := by
  rw [numberAt, List.drop_eq_nil_of_le h, List.take_nil, natOfDigits_nil]

section

variable {text : List Char} (hdigits : allDigits text = true)
include hdigits

theorem allDigits_slice (start width : Nat) : allDigits ((text.drop start).take width) = true :=
  allDigits_of_subset hdigits (List.Subset.trans (List.take_subset _ _) (List.drop_subset _ _))

theorem numberAt_lt {start width : Nat} : numberAt text start width < 10 ^ width := by
  have hslice := allDigits_slice hdigits start width
  have hlt := natOfDigits_lt hslice
  have hle : ((text.drop start).take width).length ≤ width := List.length_take_le ..
  exact Nat.lt_of_lt_of_le hlt (Nat.pow_le_pow_right (by decide) hle)

-- What is left of a text of digits starts with its next number, padded to its place.
theorem drop_eq_padded {start width : Nat} (hwidth : 0 < width) (h : start + width ≤ text.length) :
    text.drop start = paddedDigits width (numberAt text start width) ++ text.drop (start + width) := by
  have hslice := allDigits_slice hdigits start width
  have hlength : ((text.drop start).take width).length = width := by
    rw [List.length_take, List.length_drop]
    omega
  have hpadded := paddedDigits_natOfDigits hslice (List.ne_nil_of_length_pos (by omega))
  rw [hlength] at hpadded
  rw [numberAt, hpadded, ← List.drop_drop, List.take_append_drop]

theorem isCompact_numberAt
    (hlength : text.length = 8 ∨ text.length = 12 ∨ text.length = 14) :
    IsCompact text (numberAt text 0 4) (numberAt text 4 2) (numberAt text 6 2) (numberAt text 8 2)
      (numberAt text 10 2) (numberAt text 12 2) := by
  refine ⟨numberAt_lt hdigits, text.drop 8, ?_, ?_⟩
  · rcases hlength with h | h | h
    · rw [List.drop_eq_nil_of_le (by omega), numberAt_of_length_le (by omega),
        numberAt_of_length_le (by omega), numberAt_of_length_le (by omega)]
      exact .midnight
    · rw [drop_eq_padded hdigits (by decide) (by omega : 8 + 2 ≤ text.length),
        drop_eq_padded hdigits (by decide) (by omega : 8 + 2 + 2 ≤ text.length),
        List.drop_eq_nil_of_le (by omega), List.append_nil, numberAt_of_length_le (by omega : _ ≤ 12)]
      exact .minute _ _
    · rw [drop_eq_padded hdigits (by decide) (by omega : 8 + 2 ≤ text.length),
        drop_eq_padded hdigits (by decide) (by omega : 8 + 2 + 2 ≤ text.length),
        drop_eq_padded hdigits (by decide) (by omega : 8 + 2 + 2 + 2 ≤ text.length),
        List.drop_eq_nil_of_le (by omega), List.append_nil]
      exact .second _ _ _
  · rw [← drop_eq_padded hdigits (by decide) (by omega : 6 + 2 ≤ text.length),
      ← drop_eq_padded hdigits (by decide) (by omega : 4 + 2 ≤ text.length),
      ← drop_eq_padded hdigits (by decide) (by omega : 0 + 4 ≤ text.length), List.drop_zero]

end

/-! ## The calendar -/

theorem daysBeforeMonth_le (year : Int) (month : Nat) : Date.daysBeforeMonth year month ≤ 366 := by
  unfold Date.daysBeforeMonth Date.daysBeforeMonthPlain
  split <;> split <;> omega

theorem daysInMonth_le {year : Int} {month : Nat} (h : 1 ≤ month) (h' : month ≤ 12) :
    Date.daysInMonth year month ≤ 31 := by
  unfold Date.daysInMonth Date.daysBeforeMonth
  cases Date.isLeapYear year <;> interval_cases month <;> decide

namespace IsOnCalendar

variable {year month day hour minute second : Nat}
  (h : IsOnCalendar year month day hour minute second)
include h

theorem date_le : 1 ≤ month ∧ month ≤ 12 ∧ 1 ≤ day ∧ day ≤ 31 := by
  have hvalid := h.1
  simp only [Date.isValid, Bool.and_eq_true, decide_eq_true_eq] at hvalid
  obtain ⟨⟨⟨hfirst, hlast⟩, hday⟩, hdays⟩ := hvalid
  exact ⟨hfirst, hlast, hday, Nat.le_trans hdays (daysInMonth_le hfirst hlast)⟩

-- All years of four digits lie in the range of instants.
theorem exists_instant (hyear : year < 10000) :
    ∃ t : Instant,
      t.second = Date.toDay { year, month, day } * secondsPerDay + hour * 3600 + minute * 60 +
        min second 59 ∧
      t.nano = if second = 60 then nanosPerSecond else 0 := by
  obtain ⟨-, -, hday, hday'⟩ := h.date_le
  obtain ⟨-, hhour, hminute, -⟩ := h
  have hmonth := daysBeforeMonth_le year month
  have hlow : -719528 ≤ Date.toDay { year, month, day } := by
    simp only [Date.toDay, Date.epochDay, Date.daysBeforeYear]
    omega
  have hhigh : Date.toDay { year, month, day } < 2933000 := by
    simp only [Date.toDay, Date.epochDay, Date.daysBeforeYear]
    omega
  generalize Date.toDay { year, month, day } = n at *
  refine ⟨⟨n * secondsPerDay + hour * 3600 + minute * 60 + min second 59,
    if second = 60 then nanosPerSecond else 0, ?_, ?_, ?_, ?_⟩, rfl, rfl⟩
  · simp only [firstSecond, secondsPerDay]
    omega
  · simp only [lastSecond, secondsPerDay]
    omega
  · split <;> decide
  · intro hleap
    split at hleap
    · simp only [secondsPerDay]
      omega
    · exact absurd hleap (by decide)

end IsOnCalendar

theorem ofCivil?_eq_some_iff {year month day hour minute second : Nat} {t : Instant} :
    ofCivil? { year, month, day } hour minute second 0 = some t ↔
      IsOnCalendar year month day hour minute second ∧
        t.second = Date.toDay { year, month, day } * secondsPerDay + hour * 3600 + minute * 60 +
          min second 59 ∧
        t.nano = if second = 60 then nanosPerSecond else 0 := by
  have hcond : (({ year, month, day } : Date).isValid && decide (hour < 24) && decide (minute < 60) &&
      decide (second ≤ 60) && decide (0 < nanosPerSecond)) = true ↔
      IsOnCalendar year month day hour minute second := by
    simp [IsOnCalendar, and_assoc, nanosPerSecond]
  unfold ofCivil?
  constructor
  · intro h
    split at h
    · rename_i hchecked
      have hcalendar := hcond.1 hchecked
      refine ⟨hcalendar, ?_⟩
      split at h
      · rename_i hleap
        obtain ⟨hsecond, hnano⟩ := ofParts?_eq_some h
        rw [hsecond, hnano, hleap, if_pos rfl, Nat.zero_add]
        exact ⟨rfl, rfl⟩
      · rename_i hleap
        obtain ⟨hsecond, hnano⟩ := ofParts?_eq_some h
        have hle := hcalendar.2.2.2
        rw [hsecond, hnano, if_neg hleap]
        exact ⟨by omega, rfl⟩
    · cases h
  · rintro ⟨hcalendar, hsecond, hnano⟩
    have hle := hcalendar.2.2.2
    rw [if_pos (hcond.2 hcalendar), ← ofParts?_parts t, hsecond, hnano]
    by_cases hleap : second = 60
    · subst hleap
      rfl
    · rw [if_neg hleap, if_neg hleap]
      congr 1
      omega

/-! ## The reader -/

theorem IsTimeOfDay.spec {time : List Char} {hour minute second : Nat}
    (h : IsTimeOfDay time hour minute second) (hhour : hour < 100) (hminute : minute < 100)
    (hsecond : second < 100) :
    allDigits time = true ∧ (time.length = 0 ∨ time.length = 4 ∨ time.length = 6) ∧
      numberAt time 0 2 = hour ∧ numberAt time 2 2 = minute ∧ numberAt time 4 2 = second := by
  have hlength : ∀ n < 100, (paddedDigits 2 n).length = 2 := fun n hn =>
    length_paddedDigits (by decide) hn
  cases h with
  | midnight => exact ⟨rfl, .inl rfl, rfl, rfl, rfl⟩
  | minute =>
    have hbefore := hlength hour hhour
    have hbehind := hlength minute hminute
    refine ⟨?_, ?_, ?_, ?_, ?_⟩
    · simp only [allDigits_append, allDigits_paddedDigits, Bool.and_self]
    · exact .inr (.inl (by rw [List.length_append, hbefore, hbehind]))
    · exact numberAt_front (by decide) hhour
    · rw [← List.append_nil (paddedDigits 2 minute)]
      exact numberAt_append hbefore (by decide) hminute
    · apply numberAt_of_length_le
      simp only [List.length_append, hbefore, hbehind, Nat.le_refl]
  | second =>
    have hfirst := hlength hour hhour
    have hmiddle := hlength minute hminute
    have hlast := hlength second hsecond
    refine ⟨?_, ?_, ?_, ?_, ?_⟩
    · simp only [allDigits_append, allDigits_paddedDigits, Bool.and_self]
    · exact .inr (.inr (by rw [List.length_append, List.length_append, hfirst, hmiddle, hlast]))
    · exact numberAt_front (by decide) hhour
    · exact numberAt_append hfirst (by decide) hminute
    · rw [← List.append_assoc, ← List.append_nil (paddedDigits 2 second)]
      apply numberAt_append _ (by decide) hsecond
      simp only [List.length_append, hfirst, hmiddle]

theorem numberAt_behind {before : List Char} {start : Nat} (h : before.length = start) (rest : List Char)
    (skipped width : Nat) :
    numberAt (before ++ rest) (start + skipped) width = numberAt rest skipped width := by
  rw [numberAt, numberAt, ← List.drop_drop, List.drop_left' h]

-- The numbers are found again at their places in the text.
theorem IsCompact.spec {text : List Char} {year month day hour minute second : Nat}
    (h : IsCompact text year month day hour minute second)
    (hcalendar : IsOnCalendar year month day hour minute second) :
    allDigits text = true ∧ (text.length = 8 ∨ text.length = 12 ∨ text.length = 14) ∧
      numberAt text 0 4 = year ∧ numberAt text 4 2 = month ∧ numberAt text 6 2 = day ∧
      numberAt text 8 2 = hour ∧ numberAt text 10 2 = minute ∧ numberAt text 12 2 = second := by
  obtain ⟨hyear, time, htime, rfl⟩ := h
  obtain ⟨-, hmonth, -, hday⟩ := hcalendar.date_le
  obtain ⟨-, hhour, hminute, hsecond⟩ := hcalendar
  obtain ⟨hdigits, htimes, hfirst, hmiddle, hlast⟩ := htime.spec (by omega) (by omega) (by omega)
  have hlyear : (paddedDigits 4 year).length = 4 := length_paddedDigits (by decide) (by omega)
  have hlmonth : (paddedDigits 2 month).length = 2 := length_paddedDigits (by decide) (by omega)
  have hlday : (paddedDigits 2 day).length = 2 := length_paddedDigits (by decide) (by omega)
  have hbehind : ∀ skipped width, numberAt (paddedDigits 4 year ++ (paddedDigits 2 month ++
      (paddedDigits 2 day ++ time))) (4 + (2 + (2 + skipped))) width = numberAt time skipped width := by
    intro skipped width
    rw [numberAt_behind hlyear, numberAt_behind hlmonth, numberAt_behind hlday]
  refine ⟨?_, ?_, ?_, ?_, ?_, ?_, ?_, ?_⟩
  · simp only [allDigits_append, allDigits_paddedDigits, hdigits, Bool.and_self]
  · simp only [List.length_append, hlyear, hlmonth, hlday]
    omega
  · exact numberAt_front (by decide) hyear
  · exact numberAt_append hlyear (by decide) (by omega)
  · rw [numberAt_behind hlyear _ 2]
    exact numberAt_append hlmonth (by decide) (by omega)
  · exact (hbehind 0 2).trans hfirst
  · exact (hbehind 2 2).trans hmiddle
  · exact (hbehind 4 2).trans hlast

/-- The reader of date-times accepts the texts of instants, and each as the instant that it denotes. -/
theorem ofCompact?_eq_some_iff {text : List Char} {t : Instant} :
    ofCompact? text = some t ↔ IsText text t := by
  have hcond : (allDigits text && (text.length == 8 || text.length == 12 || text.length == 14)) = true ↔
      allDigits text = true ∧ (text.length = 8 ∨ text.length = 12 ∨ text.length = 14) := by
    simp [or_assoc]
  unfold ofCompact?
  simp only [hcond]
  constructor
  · intro h
    split at h
    · rename_i hform
      exact ⟨_, _, _, _, _, _, isCompact_numberAt hform.1 hform.2, ofCivil?_eq_some_iff.1 h⟩
    · cases h
  · rintro ⟨year, month, day, hour, minute, second, hcompact, hcalendar, hparts⟩
    obtain ⟨hdigits, hlength, rfl, rfl, rfl, rfl, rfl, rfl⟩ := hcompact.spec hcalendar
    rw [if_pos ⟨hdigits, hlength⟩]
    exact ofCivil?_eq_some_iff.2 ⟨hcalendar, hparts⟩

/-- Every text of a date and a time of day on the calendar denotes an instant. -/
theorem exists_isText_iff {text : List Char} :
    (∃ t, IsText text t) ↔ ∃ year month day hour minute second,
      IsCompact text year month day hour minute second ∧
        IsOnCalendar year month day hour minute second := by
  constructor
  · rintro ⟨t, year, month, day, hour, minute, second, hcompact, hcalendar, -⟩
    exact ⟨year, month, day, hour, minute, second, hcompact, hcalendar⟩
  · rintro ⟨year, month, day, hour, minute, second, hcompact, hcalendar⟩
    obtain ⟨t, hparts⟩ := hcalendar.exists_instant hcompact.1
    exact ⟨t, year, month, day, hour, minute, second, hcompact, hcalendar, hparts⟩

end Registry.Instant
