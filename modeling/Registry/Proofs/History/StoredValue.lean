import Registry.History.Encoding
import Registry.Proofs.Number.StoredDecimal
import Registry.Proofs.Time.WholeMilli

/-!
# StoredValue — values in the columns of a table and back

The column of a field keeps the cell of every value that fits the field, and reading the cell gives
the value back but for what an instant has beyond its milliseconds.  Values are equal for the database
just when they have the same cell, which for whole numbers of milliseconds and for all that is no
instant means that they are equal.
-/

namespace Registry

namespace Decimal

-- The stored doubles carry the sign of their amounts.
theorem exists_toBinary64 (d : Decimal) :
    ∃ units, d.toBinary64 = .finite (decide (d.thousandths < 0)) units := by
  unfold toBinary64
  rcases Nat.eq_zero_or_pos d.thousandths.natAbs with hzero | hpos
  · rw [hzero]
    exact ⟨0, Binary64.ofRatio_zero _ _⟩
  · obtain ⟨u, _, hu, _⟩ := exists_doubles (decide (d.thousandths < 0)) hpos d.inLimit
    exact ⟨u, hu⟩

theorem units_toBinary64_neg (d : Decimal) :
    (Cell.real d.toBinary64).units < 0 ↔ d.thousandths < 0 := by
  obtain ⟨units, hunits⟩ := d.exists_toBinary64
  rw [hunits]
  by_cases hneg : d.thousandths < 0
  · -- A stored zero is read as zero.
    have hne : units ≠ 0 := by
      rintro rfl
      have hround := d.roundAway?_scaledBy_toBinary64
      rw [hunits, Binary64.scaledBy, Nat.zero_mul, Binary64.ofRatio_zero, Binary64.roundAway?] at hround
      have hhalf : (2 * 0 + Binary64.unitsPerOne) / (2 * Binary64.unitsPerOne) = 0 := by
        apply Nat.div_eq_of_lt
        have hone := Binary64.unitsPerOne_pos
        generalize Binary64.unitsPerOne = one at *
        omega
      rw [hhalf] at hround
      simp only [Option.some.injEq, Int.natCast_zero, Int.neg_zero, ite_self] at hround
      omega
    simp only [Cell.units, hneg, decide_true, if_true, iff_true]
    omega
  · simp only [Cell.units, hneg, decide_false, Bool.false_eq_true, if_false, iff_false]
    omega

-- Different amounts are stored as different doubles.
theorem units_toBinary64_inj {a b : Decimal}
    (h : (Cell.real a.toBinary64).units = (Cell.real b.toBinary64).units) : a = b := by
  have hsign : decide (a.thousandths < 0) = decide (b.thousandths < 0) := by
    rw [decide_eq_decide, ← units_toBinary64_neg, ← units_toBinary64_neg, h]
  obtain ⟨u, hu⟩ := a.exists_toBinary64
  obtain ⟨v, hv⟩ := b.exists_toBinary64
  have huv : u = v := by
    rw [hu, hv, hsign] at h
    by_cases hneg : b.thousandths < 0 <;>
      simp only [Cell.units, hneg, decide_true, decide_false, if_true, Bool.false_eq_true,
        if_false] at h <;> omega
  have hab : a.toBinary64 = b.toBinary64 := by rw [hu, hv, hsign, huv]
  have ha := a.ofBinary64?_toBinary64
  rw [hab, b.ofBinary64?_toBinary64] at ha
  exact (Option.some.inj ha).symm

end Decimal

namespace Value

/-- The value is no instant, or one that storage keeps as it is. -/
def IsWholeMilli : Value → Prop
  | datetime t => t.IsWholeMilli
  | _ => True

instance (v : Value) : Decidable v.IsWholeMilli := by
  cases v <;> unfold IsWholeMilli <;> infer_instance

theorem fits_cases {v : Value} {type : FieldType} (h : v.fits type = true) :
    v = null ∨ (∃ s, v = text s ∧ type = .text) ∨ (∃ n, v = integer n ∧ type = .integer) ∨
      (∃ d, v = decimal d ∧ type = .decimal) ∨ ∃ t, v = datetime t ∧ type = .datetime := by
  cases v <;> cases type <;> simp_all [fits]

theorem coerce_cell {v : Value} {type : FieldType} (h : v.fits type = true) :
    type.affinity.coerce v.cell = v.cell := by
  rcases fits_cases h with rfl | ⟨s, rfl, rfl⟩ | ⟨n, rfl, rfl⟩ | ⟨d, rfl, rfl⟩ | ⟨t, rfl, rfl⟩
  · exact Affinity.coerce_null _
  · exact Affinity.coerce_text s
  · exact Affinity.coerce_integer n
  · exact Affinity.coerce_real _
  · exact Affinity.coerce_integer _

theorem equals_real {x y : Binary64} :
    (Cell.real x).equals (.real y) = true ↔ (Cell.real x).units = (Cell.real y).units := by
  simp only [Cell.equals, Cell.compare?, Option.some_beq_some, beq_iff_eq, Int.compare_eq_eq]

-- The database tells values apart by their cells.
theorem equals_cell_iff_cell_eq {a b : Value} {type : FieldType} (ha : a.fits type = true)
    (hb : b.fits type = true) (hnull : b.isNull = false) :
    a.cell.equals b.cell = true ↔ a.cell = b.cell := by
  -- Nothing equals null, and values of different types do not both fit.
  by_cases hnone : a = null
  · subst hnone
    rw [show null.cell = Cell.null from rfl, Cell.equals_null_left]
    constructor
    · intro h
      cases h
    · intro h
      have hcell := b.cell_isNull
      rw [← h, hnull] at hcell
      cases hcell
  rcases fits_cases hb with rfl | ⟨s, rfl, rfl⟩ | ⟨n, rfl, rfl⟩ | ⟨d, rfl, rfl⟩ | ⟨t, rfl, rfl⟩
  · cases hnull
  all_goals
    obtain h | ⟨s', h, hkind⟩ | ⟨n', h, hkind⟩ | ⟨d', h, hkind⟩ | ⟨t', h, hkind⟩ := fits_cases ha
    · exact absurd h hnone
  all_goals cases hkind
  all_goals subst h
  · rw [cell, cell, Cell.equals_text, decide_eq_true_eq, Cell.text.injEq]
  · rw [cell, cell, Cell.equals_integer, decide_eq_true_eq, Cell.integer.injEq]
  · rw [cell, cell, equals_real]
    exact ⟨fun h => by rw [Decimal.units_toBinary64_inj h], fun h => by rw [h]⟩
  · rw [cell, cell, Instant.cell, Instant.cell, Cell.equals_integer, decide_eq_true_eq,
      Cell.integer.injEq]

/-! ### What comes back -/

/-- The value as it comes back from a table. -/
def restored : Value → Value
  | datetime t => .datetime t.truncated
  | v => v

theorem restored_eq_self_iff {v : Value} : v.restored = v ↔ v.IsWholeMilli := by
  cases v with
  | datetime t => rw [restored, datetime.injEq, Instant.truncated_eq_self_iff, IsWholeMilli]
  | _ => exact ⟨fun _ => trivial, fun _ => rfl⟩

theorem isNull_restored (v : Value) : v.restored.isNull = v.isNull := by
  cases v <;> rfl

theorem fits_restored (v : Value) (type : FieldType) : v.restored.fits type = v.fits type := by
  cases v <;> cases type <;> rfl

-- What comes back is told by the cell.
theorem restored_eq_of_cell_eq {a b : Value} {type : FieldType} (ha : a.fits type = true)
    (hb : b.fits type = true) (h : a.cell = b.cell) : a.restored = b.restored := by
  have hnull : a.isNull = b.isNull := by rw [← cell_isNull, ← cell_isNull, h]
  rcases fits_cases hb with rfl | ⟨s, rfl, rfl⟩ | ⟨n, rfl, rfl⟩ | ⟨d, rfl, rfl⟩ | ⟨t, rfl, rfl⟩
  · rw [isNull_iff.1 hnull]
  all_goals
    obtain rfl | ⟨s', rfl, hkind⟩ | ⟨n', rfl, hkind⟩ | ⟨d', rfl, hkind⟩ | ⟨t', rfl, hkind⟩ :=
      fits_cases ha
    · cases hnull
  all_goals cases hkind
  · rw [cell, cell, Cell.text.injEq] at h
    rw [h]
  · rw [cell, cell, Cell.integer.injEq] at h
    rw [h]
  · have hequals := (equals_cell_iff_cell_eq ha hb rfl).2 h
    rw [cell, cell, equals_real] at hequals
    rw [Decimal.units_toBinary64_inj hequals]
  · rw [cell, cell, Instant.cell, Instant.cell, Cell.integer.injEq] at h
    rw [restored, restored, Instant.truncated, Instant.truncated, h]

theorem cell_inj {a b : Value} {type : FieldType} (ha : a.fits type = true)
    (hb : b.fits type = true) (hwa : a.IsWholeMilli) (hwb : b.IsWholeMilli) :
    a.cell = b.cell ↔ a = b := by
  constructor
  · intro h
    have hback := restored_eq_of_cell_eq ha hb h
    rwa [restored_eq_self_iff.2 hwa, restored_eq_self_iff.2 hwb] at hback
  · intro h
    rw [h]

end Value

namespace Field

theorem readCell_null (f : Field) : f.readCell .null = .ok .null := by
  unfold readCell
  cases f.type <;> rfl

theorem readCell_text {f : Field} (htype : f.type = .text) (s : String) :
    f.readCell (.text s) = .ok (.text s) := by
  unfold readCell
  rw [htype]

theorem readCell_integer {f : Field} (htype : f.type = .integer) (n : Int) :
    f.readCell (.integer n) = .ok (.integer n) := by
  unfold readCell
  rw [htype]

theorem readCell_real {f : Field} (htype : f.type = .decimal) {x : Binary64} {d : Decimal}
    (hx : Decimal.ofBinary64? x = some d) : f.readCell (.real x) = .ok (.decimal d) := by
  unfold readCell
  rw [htype]
  simp only [hx]

theorem readCell_millis {f : Field} (htype : f.type = .datetime) (ms : Int) :
    f.readCell (.integer ms) = .ok (.datetime (Instant.ofMillis ms)) := by
  unfold readCell
  rw [htype]

theorem readCell_cell {f : Field} {v : Value} (hfits : v.fits f.type = true) :
    f.readCell v.cell = .ok v.restored := by
  rcases Value.fits_cases hfits with rfl | ⟨s, rfl, h⟩ | ⟨n, rfl, h⟩ | ⟨d, rfl, h⟩ | ⟨t, rfl, h⟩
  · exact f.readCell_null
  · exact readCell_text h s
  · exact readCell_integer h n
  · exact readCell_real h d.ofBinary64?_toBinary64
  · exact readCell_millis h t.toMillis

end Field

end Registry
