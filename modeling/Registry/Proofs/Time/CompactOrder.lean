import Registry.Proofs.Time.CalendarOrder
import Registry.Proofs.Time.CompactText

/-!
# CompactOrder — compact texts come in the order of their instants

The texts of date-times are read as a date of the calendar and a time of day, and the instant shows just
these.  With zeros for what is left out, a text is a number of fourteen digits, and both the order of
texts of one length and the order of instants are that of these numbers.
-/

namespace Registry.Instant

open Registry.Text

/-! ## What a text says -/

/-- The text is a date of the calendar and a time of day in digits; second 60 is a leap second. -/
def Says (text : List Char) (year month day hour minute second : Nat) : Prop :=
  IsCompact text year month day hour minute second ∧ Date.IsGregorian year month day ∧ hour ≤ 23 ∧
    minute ≤ 59 ∧ second ≤ 60

/-- The date and the time of day at the instant, which is the begin of a second. -/
def Shows (t : Instant) (year month day hour minute second : Nat) : Prop :=
  t.date = { year, month, day } ∧ t.hour = hour ∧ t.minute = minute ∧ t.secondOfMinute = second ∧
    t.nanoOfSecond = 0

section

variable {text : List Char} {t : Instant} {year month day hour minute second : Nat}

theorem isOnCalendar_iff : IsOnCalendar year month day hour minute second ↔
    Date.IsGregorian year month day ∧ hour ≤ 23 ∧ minute ≤ 59 ∧ second ≤ 60 := by
  rw [IsOnCalendar, Date.isValid_iff, Nat.lt_succ_iff, Nat.lt_succ_iff]

/-- An instant shows a date and a time of day just when it has the second of that time on that day. -/
theorem shows_iff (h : IsOnCalendar year month day hour minute second) :
    t.Shows year month day hour minute second ↔
      t.second = Date.toDay { year, month, day } * secondsPerDay + hour * 3600 + minute * 60 +
        min second 59 ∧ t.nano = if second = 60 then nanosPerSecond else 0 := by
  obtain ⟨hvalid, hhour, hminute, hsecond⟩ := h
  have hleap := t.leap_ends_minute
  have hnano := t.nano_lt
  obtain ⟨-, hday⟩ := Date.ofDay_spec (t.second / secondsPerDay)
  have hclock : (t.secondOfDay : Int) = t.second % secondsPerDay :=
    Int.toNat_of_nonneg (Int.emod_nonneg _ (by decide))
  simp only [Shows, date, Instant.hour, Instant.minute, secondOfMinute, nanoOfSecond, secondsPerDay,
    nanosPerSecond] at *
  generalize t.secondOfDay = clock at *
  constructor
  · rintro ⟨hdate, rfl, rfl, rfl, hwhole⟩
    rw [hdate] at hday
    generalize Date.toDay { year, month, day } = n at *
    split <;> omega
  · rintro ⟨hparts, hnano'⟩
    have hofDay : t.second / 86400 = Date.toDay { year, month, day } := by omega
    rw [hofDay]
    refine ⟨Date.ofDay_toDay hvalid, ?_⟩
    split at hnano' <;> omega

theorem ofCompact?_eq_some_iff_shows : ofCompact? text = some t ↔
    ∃ year month day hour minute second, Says text year month day hour minute second ∧
      t.Shows year month day hour minute second := by
  rw [ofCompact?_eq_some_iff, IsText]
  simp only [Says, ← isOnCalendar_iff]
  constructor
  · rintro ⟨year, month, day, hour, minute, second, hcompact, hcalendar, hparts⟩
    exact ⟨year, month, day, hour, minute, second, ⟨hcompact, hcalendar⟩, (shows_iff hcalendar).2 hparts⟩
  · rintro ⟨year, month, day, hour, minute, second, ⟨hcompact, hcalendar⟩, hshows⟩
    exact ⟨year, month, day, hour, minute, second, hcompact, hcalendar, (shows_iff hcalendar).1 hshows⟩

end

/-! ## Texts as numbers -/

/-- A date and a time of day in fourteen digits. -/
def fourteenDigits (year month day hour minute second : Nat) : Nat :=
  ((((year * 100 + month) * 100 + day) * 100 + hour) * 100 + minute) * 100 + second

section

variable {text a b : List Char} {s t : Instant} {year month day hour minute second : Nat}
  {year' month' day' hour' minute' second' : Nat} (h : Says text year month day hour minute second)
  (ha : Says a year month day hour minute second)
  (hb : Says b year' month' day' hour' minute' second')

include h in
theorem Says.isDigits :
    allDigits text = true ∧ (text.length = 8 ∨ text.length = 12 ∨ text.length = 14) := by
  obtain ⟨hdigits, hlength, -⟩ := h.1.spec (isOnCalendar_iff.2 h.2)
  exact ⟨hdigits, hlength⟩

include h in
-- What a text leaves out is zero.
theorem Says.natOfDigits_eq :
    natOfDigits text * 10 ^ (14 - text.length) = fourteenDigits year month day hour minute second := by
  obtain ⟨⟨hyear, time, htime, rfl⟩, hdate, hhour, hminute, hsecond⟩ := h
  obtain ⟨-, hmonth, -, hday⟩ := (isOnCalendar_iff.2 ⟨hdate, hhour, hminute, hsecond⟩).date_le
  have hlength : ∀ n < 100, (paddedDigits 2 n).length = 2 := fun n hn =>
    length_paddedDigits (by decide) hn
  have hlyear : (paddedDigits 4 year).length = 4 := length_paddedDigits (by decide) hyear
  have hlmonth := hlength month (by omega)
  have hlday := hlength day (by omega)
  have hlhour := hlength hour (by omega)
  have hlminute := hlength minute (by omega)
  have hlsecond := hlength second (by omega)
  cases htime <;>
    simp only [natOfDigits_append, natOfDigits_paddedDigits, natOfDigits_nil, List.length_append,
      List.length_nil, hlyear, hlmonth, hlday, hlhour, hlminute, hlsecond, fourteenDigits] <;>
    omega

include ha hb

theorem Says.lt_iff (hlength : a.length = b.length) : a < b ↔
    fourteenDigits year month day hour minute second <
      fourteenDigits year' month' day' hour' minute' second' := by
  rw [← ha.natOfDigits_eq, ← hb.natOfDigits_eq, hlength,
    Nat.mul_lt_mul_right (Nat.pow_pos (by decide)),
    lt_iff_natOfDigits_lt ha.isDigits.1 hb.isDigits.1 hlength]

theorem Says.eq_of_eq (hlength : a.length = b.length)
    (heq : fourteenDigits year month day hour minute second =
      fourteenDigits year' month' day' hour' minute' second') : a = b := by
  apply eq_of_natOfDigits_eq ha.isDigits.1 hb.isDigits.1 hlength
  rw [← ha.natOfDigits_eq, ← hb.natOfDigits_eq, hlength] at heq
  exact Nat.eq_of_mul_eq_mul_right (Nat.pow_pos (by decide)) heq

-- Of two texts the number tells which instant is earlier.
theorem Says.shows_lt (hs : s.Shows year month day hour minute second)
    (ht : t.Shows year' month' day' hour' minute' second')
    (hlt : fourteenDigits year month day hour minute second <
      fourteenDigits year' month' day' hour' minute' second') : s < t := by
  have hcalendar := isOnCalendar_iff.2 ha.2
  have hcalendar' := isOnCalendar_iff.2 hb.2
  obtain ⟨hparts, hnano⟩ := (shows_iff hcalendar).1 hs
  obtain ⟨hparts', hnano'⟩ := (shows_iff hcalendar').1 ht
  obtain ⟨-, hmonth, -, hday⟩ := hcalendar.date_le
  obtain ⟨-, hmonth', -, hday'⟩ := hcalendar'.date_le
  obtain ⟨hvalid, hhour, hminute, hsecond⟩ := hcalendar
  obtain ⟨hvalid', hhour', hminute', hsecond'⟩ := hcalendar'
  unfold fourteenDigits at hlt
  rw [lt_def, hparts, hparts', hnano, hnano']
  by_cases hdate : Date.Before { year, month, day } { year := year', month := month', day := day' }
  · -- an earlier day is over before the later one begins
    have hdays := Date.toDay_lt_toDay hvalid hvalid' hdate
    simp only [secondsPerDay]
    omega
  · obtain ⟨rfl, rfl, rfl⟩ : year = year' ∧ month = month' ∧ day = day' := by
      simp only [Date.Before] at hdate
      omega
    by_cases hleap : second = 59 ∧ second' = 60
    · -- the leap second has the second before it
      rw [if_neg (by omega), if_pos hleap.2]
      simp only [secondsPerDay, nanosPerSecond]
      omega
    · refine .inl ?_
      simp only [secondsPerDay]
      omega

end

/-! ## Zeros behind a date -/

theorem numberAt_zeros (count start width : Nat) : numberAt (List.replicate count '0') start width = 0 := by
  rw [numberAt, List.drop_replicate, List.take_replicate, ← List.append_nil (List.replicate _ _),
    natOfDigits_replicate_zero, natOfDigits_nil]

-- Midnight need not be written.
theorem ofCompact?_append_zeros {day : List Char} (hday : day.length = 8) {count : Nat}
    (hcount : count = 4 ∨ count = 6) : ofCompact? (day ++ List.replicate count '0') = ofCompact? day := by
  have hform : (allDigits (day ++ List.replicate count '0') &&
      ((day ++ List.replicate count '0').length == 8 || (day ++ List.replicate count '0').length == 12 ||
        (day ++ List.replicate count '0').length == 14)) =
      (allDigits day && (day.length == 8 || day.length == 12 || day.length == 14)) := by
    have hzeros : allDigits (List.replicate count '0') = true := by
      rcases hcount with rfl | rfl <;> decide
    rw [allDigits_append, hzeros, List.length_append, List.length_replicate, hday]
    rcases hcount with rfl | rfl <;> simp
  have hdate : ∀ start width, start + width ≤ 8 →
      numberAt (day ++ List.replicate count '0') start width = numberAt day start width := by
    intro start width hle
    rw [numberAt, numberAt, List.drop_append_of_le_length (by omega),
      List.take_append_of_le_length (by rw [List.length_drop]; omega)]
  have htime : ∀ skipped width,
      numberAt (day ++ List.replicate count '0') (8 + skipped) width = numberAt day (8 + skipped) width := by
    intro skipped width
    rw [numberAt_behind hday, numberAt_zeros, numberAt_of_length_le (by omega)]
  unfold ofCompact?
  rw [hform, hdate 0 4 (by decide), hdate 4 2 (by decide), hdate 6 2 (by decide), htime 0, htime 2, htime 4]

/-! ## The order of texts -/

theorem not_lt_of_lt {s t : Instant} (h : s < t) : ¬ t < s := by
  simp only [lt_def] at *
  omega

/-- The reader of compact texts accepts those of a date of the calendar with or without a time of day,
each as the instant that shows this date and this time.  Texts of one length come in the order of their
instants, a leap second behind the second 59 and before the next minute, so two of them never denote the
same instant.  A date alone, and a date with zeros for hour and minute or for all three, denote the same
instant. -/
theorem ofCompact?_orderEmbedding :
    (∀ text, (ofCompact? text).isSome = true ↔
      ∃ year month day hour minute second, Says text year month day hour minute second) ∧
    (∀ text t, ofCompact? text = some t ↔
      ∃ year month day hour minute second, Says text year month day hour minute second ∧
        t.Shows year month day hour minute second) ∧
    (∀ a b s t, ofCompact? a = some s → ofCompact? b = some t → a.length = b.length →
      (a < b ↔ s < t) ∧ (a ≠ b → s ≠ t)) ∧
    (∀ day : List Char, day.length = 8 → ofCompact? (day ++ "0000".toList) = ofCompact? day ∧
      ofCompact? (day ++ "000000".toList) = ofCompact? day) := by
  refine ⟨fun text => ?_, fun text t => ofCompact?_eq_some_iff_shows, ?_, fun day hday => ?_⟩
  · rw [Option.isSome_iff_exists]
    simp only [ofCompact?_eq_some_iff, exists_isText_iff, isOnCalendar_iff, Says]
  · intro a b s t ha hb hlength
    obtain ⟨year, month, day, hour, minute, second, hsays, hshows⟩ := ofCompact?_eq_some_iff_shows.1 ha
    obtain ⟨year', month', day', hour', minute', second', hsays', hshows'⟩ :=
      ofCompact?_eq_some_iff_shows.1 hb
    have hless := hsays.lt_iff hsays' hlength
    rcases Nat.lt_trichotomy (fourteenDigits year month day hour minute second)
      (fourteenDigits year' month' day' hour' minute' second') with hlt | heq | hgt
    · have hst := hsays.shows_lt hsays' hshows hshows' hlt
      exact ⟨iff_of_true (hless.2 hlt) hst, fun _ heq => not_lt_of_lt hst (heq ▸ hst)⟩
    · obtain rfl := hsays.eq_of_eq hsays' hlength heq
      rw [ha, Option.some.injEq] at hb
      obtain rfl := hb
      exact ⟨iff_of_false (List.lt_irrefl a) (fun hlt => not_lt_of_lt hlt hlt), fun hne => absurd rfl hne⟩
    · have hts := hsays'.shows_lt hsays hshows' hshows hgt
      refine ⟨iff_of_false (fun hab => ?_) (not_lt_of_lt hts), fun _ heq => not_lt_of_lt hts (heq ▸ hts)⟩
      exact absurd (hless.1 hab) (Nat.lt_asymm hgt)
  · exact ⟨ofCompact?_append_zeros hday (.inl rfl), ofCompact?_append_zeros hday (.inr rfl)⟩

theorem ofCompact?_orderEmbedding_leap :
    ∃ s t, ofCompact? "20161231235960".toList = some s ∧ ofCompact? "20170101000000".toList = some t ∧
      s.isLeap = true ∧ s < t ∧ ofCompact? "20170101".toList = some t := by
  obtain ⟨-, -, horder, hzeros⟩ := ofCompact?_orderEmbedding
  have hleap : ∃ s, ofCompact? "20161231235960".toList = some s ∧ s.isLeap = true :=
    ⟨(Instant.ofParts? 1483228799 1000000000).getD .epoch, by decide +kernel, by decide +kernel⟩
  obtain ⟨s, hs, hleap⟩ := hleap
  have ht : ofCompact? "20170101000000".toList = some (.ofMillis 1483228800000) := by decide +kernel
  refine ⟨s, _, hs, ht, hleap, ?_, ?_⟩
  · exact (horder _ _ _ _ hs ht (by decide +kernel)).1.1 (by decide +kernel)
  · rw [← (hzeros "20170101".toList (by decide +kernel)).2, ← ht]
    rfl

-- The year 0 is a leap year, as four hundred divides it, and the year 2100 is none.
example : (ofCompact? "00000229".toList).isSome = true ∧ ofCompact? "21000229".toList = none := by
  decide +kernel

end Registry.Instant
