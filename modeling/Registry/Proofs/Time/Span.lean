import Registry.Time.Instant

/-!
# Span — differences between instants outside of leap seconds

Such a difference grows with the later instant and shrinks with the earlier one, and none is as long
as the whole range of instants.  An instant is the nanoseconds from the epoch to it, and to shift it is
to add to them, where the sum is in range.
-/

namespace Registry.Instant

/-- The first of all instants. -/
def earliest : Instant := { second := firstSecond, nano := 0, nano_lt := epoch.nano_lt }

theorem earliest_le (t : Instant) : earliest ≤ t := by
  have hfirst := t.first_le
  rw [le_def]
  simp only [earliest]
  omega

-- A span that begins no later and ends no earlier is at least as long.
theorem nanosSince_mono {later earlier later' earlier' : Instant} (hlater : later ≤ later')
    (hearlier : earlier' ≤ earlier) (hl : later.isLeap = false) (he : earlier.isLeap = false)
    (hl' : later'.isLeap = false) (he' : earlier'.isLeap = false) :
    later.nanosSince earlier ≤ later'.nanosSince earlier' := by
  rw [nanosSince_of_not_leap hl he, nanosSince_of_not_leap hl' he']
  rw [isLeap_eq_false] at hl he hl' he'
  rw [le_def] at hlater hearlier
  simp only [nanosPerSecond]
  omega

theorem nanosSince_lt {later earlier : Instant} (hl : later.isLeap = false)
    (he : earlier.isLeap = false) :
    later.nanosSince earlier < (lastSecond - firstSecond + 1) * nanosPerSecond := by
  have hlast := later.le_last
  have hfirst := earlier.first_le
  rw [nanosSince_of_not_leap hl he]
  rw [isLeap_eq_false] at hl he
  simp only [nanosPerSecond, lastSecond, firstSecond] at *
  omega

/-! ## Nanoseconds from the epoch -/

/-- The nanoseconds from the epoch to an instant that lies in no leap second. -/
def nanos (t : Instant) : Int := t.second * nanosPerSecond + t.nano

-- The nanoseconds of the instants that are no leap second.
def NanosInRange (n : Int) : Prop :=
  firstSecond * nanosPerSecond ≤ n ∧ n < (lastSecond + 1) * nanosPerSecond

instance (n : Int) : Decidable (NanosInRange n) := inferInstanceAs (Decidable (_ ∧ _))

variable {a b t : Instant}

theorem lt_iff_nanos (ha : a.isLeap = false) (hb : b.isLeap = false) : a < b ↔ a.nanos < b.nanos := by
  rw [isLeap_eq_false] at ha hb
  simp only [lt_def, nanos, nanosPerSecond]
  omega

theorem le_iff_nanos (ha : a.isLeap = false) (hb : b.isLeap = false) : a ≤ b ↔ a.nanos ≤ b.nanos := by
  rw [← not_lt, lt_iff_nanos hb ha, Int.not_lt]

theorem inRange_nanos (h : t.isLeap = false) : NanosInRange t.nanos := by
  have hfirst := t.first_le
  have hlast := t.le_last
  rw [isLeap_eq_false] at h
  simp only [NanosInRange, nanos, nanosPerSecond]
  omega

theorem ofParts?_eq_some_iff {second : Int} {nano : Nat} :
    ofParts? second nano = some t ↔ t.second = second ∧ t.nano = nano := by
  refine ⟨ofParts?_eq_some, ?_⟩
  rintro ⟨rfl, rfl⟩
  exact ofParts?_parts t

theorem exists_nanos_eq {n : Int} (h : NanosInRange n) : ∃ t : Instant, t.isLeap = false ∧ t.nanos = n := by
  have hrange : firstSecond ≤ n / nanosPerSecond ∧ n / nanosPerSecond ≤ lastSecond := by
    simp only [NanosInRange, nanosPerSecond] at *
    omega
  have hpart : (n % nanosPerSecond).toNat < nanosPerSecond := by
    simp only [nanosPerSecond]
    omega
  refine ⟨⟨n / nanosPerSecond, (n % nanosPerSecond).toNat, hrange.1, hrange.2, by omega, by omega⟩, ?_, ?_⟩
  · rw [isLeap_eq_false]
    exact hpart
  · simp only [nanos, nanosPerSecond]
    omega

/-- An instant shifted outside of leap seconds is the one with the sum of the nanoseconds, if any. -/
theorem shift?_eq_some_iff (h : a.isLeap = false) {n : Int} :
    a.shift? n = some t ↔ t.isLeap = false ∧ t.nanos = a.nanos + n := by
  rw [shift?, h, if_neg Bool.false_ne_true, shiftPlain?, ofParts?_eq_some_iff, isLeap_eq_false]
  simp only [nanos, nanosPerSecond]
  omega

end Registry.Instant
