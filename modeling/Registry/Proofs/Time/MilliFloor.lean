import Registry.Proofs.Time.Span
import Registry.Proofs.Time.WholeMilli

/-!
# MilliFloor — milliseconds as the floor of exact time

The milliseconds of an instant are the floor of its nanoseconds from the epoch, before the epoch as
behind it: the second is rounded down, and the nanoseconds in it count upward.  From milliseconds in
range back to an instant nothing is rounded.  So truncation goes down to the last whole millisecond, less
than one millisecond away, and neither direction reorders.
-/

namespace Registry.Instant

/-- One millisecond in nanoseconds. -/
def nanosPerMilli : Nat := 1000000

variable {a b t : Instant} {ms ms' : Int}

/-! ## Exact conversions -/

theorem toMillis_eq_floor (t : Instant) : t.toMillis = t.nanos / nanosPerMilli := by
  simp only [toMillis, nanos, nanosPerSecond, nanosPerMilli]
  omega

theorem nanos_ofMillis (h : MillisInRange ms) : (ofMillis ms).nanos = ms * nanosPerMilli := by
  have hfloor := toMillis_eq_floor (ofMillis ms)
  obtain ⟨-, hwhole⟩ := isWholeMilli_ofMillis ms
  rw [toMillis_ofMillis h] at hfloor
  simp only [nanos, nanosPerSecond, nanosPerMilli] at *
  omega

-- Words of 64 bits with a sign hold the milliseconds of every instant, leap seconds included.
theorem toMillis_inWord (t : Instant) : -(2 ^ 63 : Int) ≤ t.toMillis ∧ t.toMillis < 2 ^ 63 := by
  have hfirst := t.first_le
  have hlast := t.le_last
  have hnano := t.nano_lt
  simp only [toMillis, firstSecond, lastSecond, nanosPerSecond] at *
  omega

/-! ## Truncation -/

theorem nanos_truncated (h : t.isLeap = false) :
    t.truncated.nanos = t.nanos / nanosPerMilli * nanosPerMilli := by
  rw [truncated, nanos_ofMillis (inRange_toMillis h), toMillis_eq_floor]

theorem isLeap_truncated (t : Instant) : t.truncated.isLeap = false := isLeap_ofMillis t.toMillis

theorem toMillis_truncated (h : t.isLeap = false) : t.truncated.toMillis = t.toMillis :=
  toMillis_ofMillis (inRange_toMillis h)

theorem truncated_le (h : t.isLeap = false) : t.truncated ≤ t := by
  rw [le_iff_nanos t.isLeap_truncated h, nanos_truncated h]
  simp only [nanosPerMilli]
  omega

theorem nanos_lt_truncated (h : t.isLeap = false) : t.nanos < t.truncated.nanos + nanosPerMilli := by
  rw [nanos_truncated h]
  simp only [nanosPerMilli]
  omega

-- A millisecond behind the truncated instant is behind the instant, where there is an instant so late.
theorem lt_of_shift?_truncated (h : t.isLeap = false) {next : Instant}
    (hnext : t.truncated.shift? nanosPerMilli = some next) : t < next := by
  obtain ⟨hleap, hnanos⟩ := (shift?_eq_some_iff t.isLeap_truncated).1 hnext
  rw [lt_iff_nanos h hleap, hnanos]
  exact nanos_lt_truncated h

-- An instant is kept just when it is a whole number of milliseconds from the epoch.
theorem truncated_eq_iff_dvd (h : t.isLeap = false) :
    t.truncated = t ↔ (nanosPerMilli : Int) ∣ t.nanos := by
  rw [truncated_eq_self_iff, IsWholeMilli, and_iff_right h]
  simp only [nanos, nanosPerSecond, nanosPerMilli]
  omega

/-! ## Order -/

theorem ofMillis_lt_ofMillis (h : MillisInRange ms) (h' : MillisInRange ms') (hlt : ms < ms') :
    ofMillis ms < ofMillis ms' := by
  rw [lt_ofMillis_iff h' (isLeap_ofMillis ms), toMillis_ofMillis h]
  exact hlt

theorem truncated_le_truncated (ha : a.isLeap = false) (hb : b.isLeap = false) (h : a ≤ b) :
    a.truncated ≤ b.truncated := by
  rw [truncated, ofMillis_le_iff (inRange_toMillis ha) b.isLeap_truncated, toMillis_truncated hb]
  exact toMillis_le_toMillis ha h

/-- Outside of leap seconds the milliseconds of an instant are the floor of its exact time, and the
truncated instant is the last whole millisecond that is no later: it has the same milliseconds, it is
truncated already, and it is the instant itself just when that is a whole number of milliseconds.  Neither
conversion reorders instants, and milliseconds in the range of instants come back from their instant,
which is later where they are more. -/
theorem truncated_isFloor :
    (∀ t : Instant, t.isLeap = false →
      t.toMillis = t.nanos / nanosPerMilli ∧ (-(2 ^ 63 : Int) ≤ t.toMillis ∧ t.toMillis < 2 ^ 63) ∧
      t.truncated ≤ t ∧ t.nanos < t.truncated.nanos + nanosPerMilli ∧
      (∀ next, t.truncated.shift? nanosPerMilli = some next → t < next) ∧
      t.truncated.toMillis = t.toMillis ∧ t.truncated.truncated = t.truncated ∧
      (t.truncated = t ↔ (nanosPerMilli : Int) ∣ t.nanos)) ∧
    (∀ a b : Instant, a.isLeap = false → b.isLeap = false → a ≤ b →
      a.toMillis ≤ b.toMillis ∧ a.truncated ≤ b.truncated) ∧
    (∀ ms, MillisInRange ms → (ofMillis ms).toMillis = ms) ∧
    ∀ ms ms', MillisInRange ms → MillisInRange ms' → ms < ms' → ofMillis ms < ofMillis ms' := by
  refine ⟨fun t h => ?_, fun a b ha hb hle => ?_, fun ms h => toMillis_ofMillis h, ?_⟩
  · have hagain : t.truncated.truncated = t.truncated :=
      truncated_eq_self_iff.2 (isWholeMilli_ofMillis t.toMillis)
    exact ⟨t.toMillis_eq_floor, t.toMillis_inWord, truncated_le h, nanos_lt_truncated h,
      fun next hnext => lt_of_shift?_truncated h hnext, toMillis_truncated h, hagain,
      truncated_eq_iff_dvd h⟩
  · exact ⟨toMillis_le_toMillis ha hle, truncated_le_truncated ha hb hle⟩
  · intro ms ms' h h' hlt
    exact ofMillis_lt_ofMillis h h' hlt

/-- The last instant that is no leap second. -/
def latest : Instant := ((ofMillis 8210266876799999).shift? 999999).getD epoch

-- The nanosecond in front of the epoch, and both ends of the range, where no millisecond follows.
theorem truncated_isFloor_ends :
    let before := (epoch.shift? (-1)).getD epoch
    before.toMillis = -1 ∧ before.truncated.truncated = before.truncated ∧ before < epoch ∧
      latest.nanos < latest.truncated.nanos + nanosPerMilli ∧
      latest.truncated.shift? nanosPerMilli = none ∧
      earliest.truncated ≤ before.truncated ∧
      (ofMillis 8210266876799999).toMillis = 8210266876799999 ∧
      ofMillis (-8334601228800000) < ofMillis 8210266876799999 := by
  intro before
  obtain ⟨hfloor, hmono, hback, hstrict⟩ := truncated_isFloor
  have hbefore : before.isLeap = false := by decide
  obtain ⟨hmillis, -, -, -, hnext, -, hagain, -⟩ := hfloor before hbefore
  refine ⟨hmillis, hagain, hnext epoch (by decide), ?_, by decide, ?_, ?_, ?_⟩
  · exact (hfloor latest (by decide)).2.2.2.1
  · exact (hmono earliest before (by decide) hbefore (earliest_le before)).2
  · exact hback _ (by decide)
  · exact hstrict _ _ (by decide) (by decide) (by decide)

end Registry.Instant
