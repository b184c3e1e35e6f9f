import Registry.Time.Instant

/-!
# WholeMilli — the instants that storage keeps as they are

A table keeps the milliseconds of an instant.  An instant outside of leap seconds that is a whole
number of milliseconds comes back as it was, and of two such instants the earlier one has fewer
milliseconds.
-/

namespace Registry.Instant

/-- The instant lies in no leap second and nothing of it is less than a millisecond. -/
def IsWholeMilli (t : Instant) : Prop := t.isLeap = false ∧ t.nano % 1000000 = 0

instance (t : Instant) : Decidable t.IsWholeMilli := inferInstanceAs (Decidable (_ ∧ _))

theorem isWholeMilli_ofMillis (ms : Int) : (ofMillis ms).IsWholeMilli := by
  refine ⟨isLeap_ofMillis ms, ?_⟩
  unfold ofMillis ofMillis?
  split
  · simp only [Option.getD_some]
    omega
  · decide

-- Storage gives an instant back just when it is a whole number of milliseconds.
theorem truncated_eq_self_iff {t : Instant} : t.truncated = t ↔ t.IsWholeMilli := by
  constructor
  · intro h
    rw [← h]
    exact isWholeMilli_ofMillis t.toMillis
  · rintro ⟨hleap, hwhole⟩
    have hnano := isLeap_eq_false.1 hleap
    have hrange : firstSecond ≤ t.toMillis / 1000 ∧ t.toMillis / 1000 ≤ lastSecond := by
      have hfirst := t.first_le
      have hlast := t.le_last
      simp only [toMillis]
      omega
    rw [truncated, ofMillis, ofMillis?, dif_pos hrange, Option.getD_some]
    apply ext_parts
    · show t.toMillis / 1000 = t.second
      simp only [toMillis]
      omega
    · show (t.toMillis % 1000).toNat * 1000000 = t.nano
      simp only [toMillis]
      omega

theorem ofMillis_toMillis {t : Instant} (h : t.IsWholeMilli) : ofMillis t.toMillis = t :=
  truncated_eq_self_iff.2 h

/-! ## Order -/

-- What comes back from storage is no later than an instant just when its milliseconds are not.
theorem ofMillis_le_iff {ms : Int} (h : MillisInRange ms) {t : Instant} (ht : t.isLeap = false) :
    ofMillis ms ≤ t ↔ ms ≤ t.toMillis := by
  have hms := toMillis_ofMillis h
  constructor
  · intro hle
    rw [← hms]
    exact toMillis_le_toMillis (isLeap_ofMillis ms) hle
  · intro hle
    obtain ⟨hleap, hwhole⟩ := isWholeMilli_ofMillis ms
    rw [← hms] at hle
    have hnano := isLeap_eq_false.1 hleap
    have hnano' := isLeap_eq_false.1 ht
    simp only [le_def, toMillis] at *
    omega

theorem lt_ofMillis_iff {ms : Int} (h : MillisInRange ms) {t : Instant} (ht : t.isLeap = false) :
    t < ofMillis ms ↔ t.toMillis < ms := by
  rw [← not_le, ofMillis_le_iff h ht, Int.not_le]

end Registry.Instant
