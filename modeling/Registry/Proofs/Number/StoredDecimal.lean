import Registry.Number.Decimal

/-!
# StoredDecimal — an amount survives the double that a table keeps of it

An amount is kept as the double nearest to `n / 1000` and read back as the whole number nearest to a
thousand times that double.  Both roundings err by at most one part in `2 ^ 53`, and an amount has
fewer than `10 ^ 10` thousandths, so the two errors together stay far below half a thousandth.
-/

namespace Registry

namespace Binary64

theorem unitsPerOne_pos : 0 < unitsPerOne := by
  unfold unitsPerOne
  exact Nat.two_pow_pos _

theorem unitsPerOne_large : 2 ^ 62 ≤ unitsPerOne := by
  unfold unitsPerOne
  apply Nat.pow_le_pow_right
  · decide
  · decide

theorem two_pow_mul_le {a b c : Nat} (h : a + b ≤ c) : 2 ^ a * 2 ^ b ≤ 2 ^ c := by
  rw [← Nat.pow_add]
  exact Nat.pow_le_pow_right (by decide) h

-- Whole numbers of 40 bits are far from being too large for a double.
theorem unitsPerOne_mul_le_overflowUnits : unitsPerOne * 2 ^ 40 ≤ overflowUnits := by
  unfold unitsPerOne overflowUnits
  apply two_pow_mul_le
  decide

theorem overflowUnits_pos : 0 < overflowUnits := by
  unfold overflowUnits
  exact Nat.two_pow_pos _

theorem divHalfEven_zero (d : Nat) : divHalfEven 0 d = 0 := by
  unfold divHalfEven
  rcases Nat.eq_zero_or_pos d with rfl | hd
  · rfl
  · simp [hd]

-- Rounding to a grid whose step is at most one part in `2 ^ 52` errs by at most one part in
-- `2 ^ 53`.
theorem grid_near {exact d : Nat} (hd : 0 < d) (hlarge : d * 2 ^ 52 ≤ exact) :
    2 ^ 53 * exact ≤
        2 ^ 53 * (d * (divHalfEven exact (d * spacing (exact / d)) * spacing (exact / d))) + exact ∧
      2 ^ 53 * (d * (divHalfEven exact (d * spacing (exact / d)) * spacing (exact / d))) ≤
        2 ^ 53 * exact + exact := by
  have hquot : 2 ^ 52 ≤ exact / d := (Nat.le_div_iff_mul_le hd).2 (by rwa [Nat.mul_comm])
  have hstep := spacing_le hquot
  have hpos := spacing_pos (exact / d)
  generalize spacing (exact / d) = step at *
  have hstep' : d * step * 2 ^ 52 ≤ exact := by
    rw [Nat.mul_assoc]
    exact Nat.le_trans (Nat.mul_le_mul_left d hstep) (Nat.mul_div_le exact d)
  obtain ⟨hlow, hhigh⟩ := divHalfEven_near (n := exact) (Nat.mul_pos hd hpos)
  have hassoc : d * step * divHalfEven exact (d * step) =
      d * (divHalfEven exact (d * step) * step) := by
    rw [Nat.mul_assoc, Nat.mul_comm step]
  rw [hassoc] at hlow hhigh
  constructor <;> omega

theorem ofRatio_of_lt {negative : Bool} {n d units : Nat} (hlt : units < overflowUnits)
    (h : divHalfEven (n * unitsPerOne) (d * spacing (n * unitsPerOne / d)) *
      spacing (n * unitsPerOne / d) = units) : ofRatio negative n d = .finite negative units := by
  unfold ofRatio
  simp only [h]
  rw [if_pos hlt]

theorem ofRatio_zero (negative : Bool) (d : Nat) : ofRatio negative 0 d = .finite negative 0 := by
  apply ofRatio_of_lt overflowUnits_pos
  rw [Nat.zero_mul, divHalfEven_zero, Nat.zero_mul]

-- A quotient that neither overflows nor comes near the smallest steps is rounded with an error of
-- at most one part in `2 ^ 53`.
theorem exists_ofRatio_near (negative : Bool) {n d : Nat} (hd : 0 < d)
    (hlarge : d * 2 ^ 52 ≤ n * unitsPerOne) (hsmall : 2 * (n * unitsPerOne) < d * overflowUnits) :
    ∃ units, ofRatio negative n d = .finite negative units ∧
      2 ^ 53 * (n * unitsPerOne) ≤ 2 ^ 53 * (d * units) + n * unitsPerOne ∧
      2 ^ 53 * (d * units) ≤ 2 ^ 53 * (n * unitsPerOne) + n * unitsPerOne := by
  obtain ⟨hlow, hhigh⟩ := grid_near hd hlarge
  refine ⟨_, ofRatio_of_lt ?_ rfl, hlow, hhigh⟩
  apply Nat.lt_of_mul_lt_mul_left (a := d)
  generalize overflowUnits = bound at *
  generalize n * unitsPerOne = exact at *
  omega

end Binary64

namespace Decimal

open Binary64

-- Two roundings with an error of one part in `2 ^ 53` each do not lead away from a number of ten
-- digits.
theorem nearest_of_near {n u v one : Nat} (hlimit : n < 10000000000) (hone : 0 < one)
    (hlow : 2 ^ 53 * (n * one) ≤ 2 ^ 53 * (1000 * u) + n * one)
    (hhigh : 2 ^ 53 * (1000 * u) ≤ 2 ^ 53 * (n * one) + n * one)
    (hlow' : 2 ^ 53 * (u * 1000 * one) ≤ 2 ^ 53 * (one * v) + u * 1000 * one)
    (hhigh' : 2 ^ 53 * (one * v) ≤ 2 ^ 53 * (u * 1000 * one) + u * 1000 * one) :
    (2 * v + one) / (2 * one) = n := by
  have hexact : n * one < 10000000000 * one := Nat.mul_lt_mul_of_pos_right hlimit hone
  have hlow'' : 2 ^ 53 * (u * 1000) ≤ 2 ^ 53 * v + u * 1000 := by
    refine Nat.le_of_mul_le_mul_right ?_ hone
    grind
  have hhigh'' : 2 ^ 53 * v ≤ 2 ^ 53 * (u * 1000) + u * 1000 := by
    refine Nat.le_of_mul_le_mul_right ?_ hone
    grind
  apply Nat.div_eq_of_lt_le
  · have : n * (2 * one) = 2 * (n * one) := by grind
    omega
  · have : (n + 1) * (2 * one) = 2 * (n * one) + 2 * one := by grind
    omega

-- The two doubles on the way through storage: the one nearest to `n / 1000`, and the one nearest
-- to a thousand times that.
theorem exists_doubles (negative : Bool) {n : Nat} (hpos : 0 < n) (hlimit : n < 10000000000) :
    ∃ u v, ofRatio negative n 1000 = .finite negative u ∧
      ofRatio negative (u * 1000) unitsPerOne = .finite negative v ∧
      (2 * v + unitsPerOne) / (2 * unitsPerOne) = n := by
  have hone := unitsPerOne_pos
  have hlarge := unitsPerOne_large
  have hover := unitsPerOne_mul_le_overflowUnits
  have hfirst := @exists_ofRatio_near negative n 1000 (by decide)
  have hsecond := fun u => @exists_ofRatio_near negative (u * 1000) unitsPerOne hone
  -- The powers of two are too large to be computed; what is known of them is enough.
  generalize unitsPerOne = one at *
  generalize overflowUnits = bound at *
  have hexact : n * one < 10000000000 * one := Nat.mul_lt_mul_of_pos_right hlimit hone
  have hexact' : one ≤ n * one := Nat.le_mul_of_pos_left _ hpos
  have hlarge' : 1000 * 2 ^ 52 ≤ n * one := by grind
  have hsmall : 2 * (n * one) < 1000 * bound := by grind
  obtain ⟨u, hu, hlow, hhigh⟩ := hfirst hlarge' hsmall
  have hlarge' : one * 2 ^ 52 ≤ u * 1000 * one := by
    rw [Nat.mul_comm]
    exact Nat.mul_le_mul_right one (by grind)
  have hsmall : 2 * (u * 1000 * one) < one * bound := by
    calc 2 * (u * 1000 * one) = one * (2000 * u) := by grind
      _ < one * bound := Nat.mul_lt_mul_of_pos_left (by grind) hone
  obtain ⟨v, hv, hlow', hhigh'⟩ := hsecond u hlarge' hsmall
  exact ⟨u, v, hu, hv, nearest_of_near hlimit hone hlow hhigh hlow' hhigh'⟩

theorem roundAway?_scaledBy_toBinary64 (d : Decimal) :
    (d.toBinary64.scaledBy 1000).roundAway? = some d.thousandths := by
  have hlimit := d.inLimit
  unfold toBinary64
  have hsign : d.thousandths =
      if decide (d.thousandths < 0) then -(d.thousandths.natAbs : Int) else d.thousandths.natAbs := by
    by_cases h : d.thousandths < 0 <;> simp only [h, decide_true, decide_false, if_true,
      Bool.false_eq_true, if_false] <;> omega
  generalize decide (d.thousandths < 0) = negative at hsign ⊢
  generalize d.thousandths.natAbs = n at hlimit hsign ⊢
  rcases Nat.eq_zero_or_pos n with hzero | hpos
  -- Zero is kept as it is; of all else the rounding errs in proportion.
  · have hhalf : (2 * 0 + unitsPerOne) / (2 * unitsPerOne) = 0 := by
      apply Nat.div_eq_of_lt
      have hone := unitsPerOne_pos
      generalize unitsPerOne = one at *
      omega
    rw [hzero, ofRatio_zero, scaledBy, Nat.zero_mul, ofRatio_zero, roundAway?, hhalf, ← hzero, hsign]
  · obtain ⟨u, v, hu, hv, hround⟩ := exists_doubles negative hpos hlimit
    rw [hu, scaledBy, hv, roundAway?, hround, hsign]

-- What a table keeps of an amount is read as that amount.
theorem ofBinary64?_toBinary64 (d : Decimal) : ofBinary64? d.toBinary64 = some d := by
  rw [ofBinary64?, roundAway?_scaledBy_toBinary64, Option.bind_some, ofThousandths?_thousandths]

end Decimal

end Registry
