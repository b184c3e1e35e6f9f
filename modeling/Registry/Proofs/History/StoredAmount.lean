import Registry.Proofs.History.StoredValue
import Registry.Proofs.Number.DecimalValue
import Registry.Proofs.Number.NearestDouble

/-!
# StoredAmount — amounts in doubles that are rounded as the standard says

The double that a table keeps of an amount is the quotient of two doubles, and reading it makes a product.
Each is the double nearest to the exact result, the even one of two.  The whole number nearest to the
product is the thousandths of the amount again, so the database tells stored amounts apart just as they
are.
-/

namespace Registry

namespace Binary64

theorem round_natCast_div (n : Nat) {d : Nat} (hd : 0 < d) :
    round (n / d : ℚ) = ((2 * n + d) / (2 * d) : Nat) := by
  have hd' : (0 : ℚ) < d := Nat.cast_pos.2 hd
  have hhalf : (n / d + 1 / 2 : ℚ) = ((2 * n + d : ℕ) : ℚ) / ((2 * d : ℕ) : ℚ) := by
    push_cast
    field_simp
  rw [round_eq, hhalf, Rat.floor_natCast_div_natCast, Int.natCast_div]

-- The whole number nearest to a finite double, found on smallest steps, is that of exact arithmetic.
theorem roundAway?_finite (negative : Bool) (units : Nat) :
    (finite negative units).roundAway? = some (Decimal.nearestAway (finite negative units).value) := by
  have hnonneg : 0 ≤ (units / unitsPerOne : ℚ) := by positivity
  have hround := round_natCast_div units unitsPerOne_pos
  cases negative with
  | false =>
    rw [value_finite_false, Decimal.nearestAway_of_nonneg hnonneg, hround, roundAway?,
      if_neg Bool.false_ne_true]
  | true =>
    rw [value_finite_true, Decimal.nearestAway_neg_of_nonneg hnonneg, hround, roundAway?, if_pos rfl]

theorem roundAway?_eq_some {x : Binary64} {n : Int} (h : x.roundAway? = some n) :
    Decimal.nearestAway x.value = n := by
  cases x with
  | finite negative units =>
    rw [roundAway?_finite] at h
    exact Option.some.inj h
  | _ => cases h

-- A whole number times a finite double is rounded once.
theorem scaledBy_isNearest {k : Nat} {negative : Bool} {units : Nat}
    (h : (finite negative units).scaledBy k ≠ .infinite negative) :
    ((finite negative units).scaledBy k).IsNearest (k * (finite negative units).value) := by
  rw [scaledBy] at h ⊢
  have hproduct : (k * (finite negative units).value : ℚ) =
      if negative then -((units * k : Nat) / unitsPerOne : ℚ) else (units * k : Nat) / unitsPerOne := by
    cases negative with
    | false =>
      rw [value_finite_false, if_neg Bool.false_ne_true]
      push_cast
      ring
    | true =>
      rw [value_finite_true, if_pos rfl]
      push_cast
      ring
  rw [hproduct]
  exact ofRatio_isNearest unitsPerOne_pos h

end Binary64

namespace Decimal

open Binary64

theorem toBinary64_eq_div (d : Decimal) :
    d.toBinary64 = (ofSigned d.thousandths 1).div (ofSigned 1000 1) := by
  have hlimit := d.inLimit
  simp only [decimalLimit] at hlimit
  have hpositive : decide ((1000 : Int) < 0) = false := by decide
  have hthousand : (1000 : Int).natAbs = 1000 := by decide
  rw [ofSigned_one (by omega), ofSigned_one (by decide), hpositive, hthousand, div, Bool.bne_false,
    ofRatio_mul_right _ _ _ unitsPerOne_pos, toBinary64]

theorem toBinary64_isNearest (d : Decimal) : d.toBinary64.IsNearest (d.thousandths / 1000) := by
  obtain ⟨units, hunits⟩ := d.exists_toBinary64
  have hfinite : d.toBinary64 ≠ .infinite (decide (d.thousandths < 0)) := by
    rw [hunits]
    nofun
  have hnearest := ofRatio_isNearest (by decide) hfinite
  have hquotient : (d.thousandths / 1000 : ℚ) = if decide (d.thousandths < 0) then
      -(d.thousandths.natAbs / (1000 : Nat) : ℚ) else d.thousandths.natAbs / (1000 : Nat) := by
    rw [Nat.cast_natAbs]
    by_cases hneg : d.thousandths < 0
    · rw [if_pos (decide_eq_true hneg), abs_of_neg hneg]
      push_cast
      ring
    · rw [if_neg (by simpa using hneg), abs_of_nonneg (not_lt.1 hneg)]
      push_cast
      ring
  rw [hquotient]
  exact hnearest

theorem scaledBy_toBinary64_isNearest (d : Decimal) :
    (d.toBinary64.scaledBy 1000).IsNearest (1000 * d.toBinary64.value) := by
  have hround := d.roundAway?_scaledBy_toBinary64
  obtain ⟨units, hunits⟩ := d.exists_toBinary64
  rw [hunits] at hround ⊢
  refine scaledBy_isNearest fun hover => ?_
  rw [hover] at hround
  cases hround

theorem toBinary64_inj {d e : Decimal} (h : d.toBinary64 = e.toBinary64) : d = e := by
  have hread := d.ofBinary64?_toBinary64
  rw [h, e.ofBinary64?_toBinary64] at hread
  exact (Option.some.inj hread).symm

/-- The double of an amount is nearest to a thousandth of its thousandths, which are a double themselves,
and a thousand times that double is rounded to the nearest one again.  For each amount the whole number
nearest to this, halves away from zero, is the thousandths of the amount, and below the limit.  So the
amount is read back, amounts that differ are stored as doubles that differ, and the database finds stored
amounts equal just when they are. -/
theorem ofBinary64?_stored (d : Decimal) :
    (d.toBinary64 = (ofSigned d.thousandths 1).div (ofSigned 1000 1) ∧
      (ofSigned d.thousandths 1).value = d.thousandths ∧
      d.toBinary64.IsNearest (d.thousandths / 1000)) ∧
    (d.toBinary64.scaledBy 1000).IsNearest (1000 * d.toBinary64.value) ∧
    nearestAway (d.toBinary64.scaledBy 1000).value = d.thousandths ∧
    |nearestAway (d.toBinary64.scaledBy 1000).value| < 10 ^ 10 ∧
    ofBinary64? d.toBinary64 = some d ∧
    ∀ e : Decimal, (d.toBinary64 = e.toBinary64 ↔ d = e) ∧
      ((Value.decimal d).cell.equals (Value.decimal e).cell = true ↔ d = e) := by
  have hround := roundAway?_eq_some d.roundAway?_scaledBy_toBinary64
  have hlimit := d.inLimit
  have hlimit' : |nearestAway (d.toBinary64.scaledBy 1000).value| < 10 ^ 10 := by
    rw [hround, Int.abs_eq_natAbs]
    simp only [decimalLimit] at hlimit
    omega
  refine ⟨⟨d.toBinary64_eq_div, ?_, d.toBinary64_isNearest⟩, d.scaledBy_toBinary64_isNearest, hround,
    hlimit', d.ofBinary64?_toBinary64, fun e => ⟨⟨toBinary64_inj, ?_⟩, ?_, ?_⟩⟩
  · exact value_ofSigned_one (by simp only [decimalLimit] at hlimit; omega)
  · rintro rfl
    rfl
  · rw [Value.cell, Value.cell, Value.equals_real]
    exact units_toBinary64_inj
  · rintro rfl
    rw [Value.cell, Value.equals_real]

end Decimal

end Registry
