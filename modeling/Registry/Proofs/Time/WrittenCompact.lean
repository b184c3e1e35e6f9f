import Registry.Proofs.Time.CalendarDay
import Registry.Proofs.Time.CompactText

/-!
# WrittenCompact — date-times that are written in digits

A whole second in a year of four digits is written in digits by its date and its time of day.  What
is zero at the end of the time of day may be left out.  All of these texts denote the instant.
-/

namespace Registry.Instant

open Registry.Text

/-- A whole second, which is no leap second, of a year of four digits. -/
def IsWholeSecond (t : Instant) : Prop := t.nano = 0 ∧ 0 ≤ t.date.year ∧ t.date.year < 10000

instance (t : Instant) : Decidable t.IsWholeSecond := inferInstanceAs (Decidable (_ ∧ _))

/-- The date of an instant in digits, with the digits of a time of day behind it. -/
def dated (t : Instant) (time : List Char) : List Char :=
  paddedDigits 4 t.date.year.toNat ++ (paddedDigits 2 t.date.month ++ (paddedDigits 2 t.date.day ++ time))

/-- The instant is written so, up to the seconds, the minutes or the day. -/
inductive IsWrittenAs (t : Instant) : List Char → Prop
  | upToSecond : IsWrittenAs t (t.dated
      (paddedDigits 2 t.hour ++ (paddedDigits 2 t.minute ++ paddedDigits 2 t.secondOfMinute)))
  | upToMinute (h : t.secondOfMinute = 0) :
      IsWrittenAs t (t.dated (paddedDigits 2 t.hour ++ paddedDigits 2 t.minute))
  | upToDay (h : t.secondOfDay = 0) : IsWrittenAs t (t.dated [])

section

variable {t : Instant} (h : t.IsWholeSecond)
include h

theorem secondOfMinute_eq : t.secondOfMinute = t.secondOfDay % 60 := by
  rw [secondOfMinute, h.1, Nat.zero_div, Nat.add_zero]

/-- The digits of the time of day, as far as they are written, are those of its clock. -/
theorem IsWrittenAs.isTimeOfDay {text : List Char} (hwritten : t.IsWrittenAs text) :
    ∃ time, text = t.dated time ∧ IsTimeOfDay time t.hour t.minute t.secondOfMinute := by
  cases hwritten with
  | upToSecond => exact ⟨_, rfl, .second _ _ _⟩
  | upToMinute hzero =>
    rw [hzero]
    exact ⟨_, rfl, .minute _ _⟩
  | upToDay hzero =>
    have hhour : t.hour = 0 := by rw [hour, hzero]
    have hminute : t.minute = 0 := by rw [minute, hzero]
    have hsecond : t.secondOfMinute = 0 := by rw [secondOfMinute_eq h, hzero]
    rw [hhour, hminute, hsecond]
    exact ⟨_, rfl, .midnight⟩

/-- What is written of an instant is a text of the instant. -/
theorem IsWrittenAs.isText {text : List Char} (hwritten : t.IsWrittenAs text) : IsText text t := by
  obtain ⟨time, rfl, htime⟩ := hwritten.isTimeOfDay h
  obtain ⟨hvalid, htoDay⟩ := Date.ofDay_spec (t.second / secondsPerDay)
  have hdate : ({ year := (t.date.year.toNat : Int), month := t.date.month, day := t.date.day } : Date) =
      Date.ofDay (t.second / secondsPerDay) := by
    rw [Int.toNat_of_nonneg h.2.1, date]
  have hclock : (t.secondOfDay : Int) = t.second % secondsPerDay :=
    Int.toNat_of_nonneg (Int.emod_nonneg _ (by decide))
  have hofDay : t.secondOfDay < 86400 := by
    have hlt := Int.emod_lt_of_pos t.second (by decide : (0 : Int) < secondsPerDay)
    simp only [secondsPerDay] at hlt hclock
    omega
  refine ⟨t.date.year.toNat, t.date.month, t.date.day, t.hour, t.minute, t.secondOfMinute,
    ⟨?_, time, htime, rfl⟩, ⟨?_, ?_, ?_, ?_⟩, ?_, ?_⟩
  · have hyear := h.2.2
    omega
  · rw [hdate, hvalid]
  · rw [hour]
    omega
  · rw [minute]
    omega
  · rw [secondOfMinute_eq h]
    omega
  · rw [hdate, htoDay, hour, minute, secondOfMinute_eq h]
    simp only [secondsPerDay] at hclock ⊢
    omega
  · rw [h.1, secondOfMinute_eq h, if_neg (by omega)]

end

end Registry.Instant
