import Mathlib.Data.Rat.Floor
import Mathlib.Tactic.Ring
import Registry.Number.Binary64.Arithmetic
import Registry.Proofs.Number.StoredDecimal

/-!
# NearestDouble — rounding to the nearest double

A finite double is a significand of at most 53 bits times a power of two.  Among all of them the rounded
quotient is nearest to the exact one, and of two that are equally near it is the one whose significand is
even.  Doubles with a smaller exponent lie between the multiples of the spacing only below the quotient
and its own power of two, so none of them is nearer than that power.
-/

namespace Registry.Binary64

/-! ## The finite doubles -/

/-- The magnitude, in smallest steps, with that significand and exponent.  A significand has 53 bits, and
fewer only with the lowest exponent. -/
structure IsWritten (units significand exponent : Nat) : Prop where
  units_eq : units = significand * 2 ^ exponent
  bits : significand < 2 ^ 53
  normal : exponent = 0 ∨ 2 ^ 52 ≤ significand

-- A number of the format: it has a significand and is not too large.
def IsFinite : Binary64 → Prop
  | .finite _ units =>
    units < overflowUnits ∧ ∃ significand exponent, IsWritten units significand exponent
  | _ => False

/-- The last bit of the significand is zero. -/
def HasEvenEnd : Binary64 → Prop
  | .finite _ units =>
    ∃ significand exponent, IsWritten units significand exponent ∧ significand % 2 = 0
  | _ => False

/-- The number that a finite double stands for. -/
def value (x : Binary64) : ℚ := (x.signedUnits?.getD 0 : ℤ) / (unitsPerOne : ℚ)

/-- No finite double is nearer to the number, and where another one is as near, this one is even. -/
structure IsNearest (x : Binary64) (q : ℚ) : Prop where
  isFinite : x.IsFinite
  nearest : ∀ y : Binary64, y.IsFinite → |q - x.value| ≤ |q - y.value|
  tie : ∀ y : Binary64, y.IsFinite → y.value ≠ x.value → |q - y.value| = |q - x.value| → x.HasEvenEnd

/-! ## The nearest whole number -/

-- Multiples of a number other than a given one are at least that number away from it.
theorem mul_far_of_ne {d : Nat} {h z : Int} (hne : z ≠ h) :
    (d : Int) * h + d ≤ d * z ∨ (d : Int) * z + d ≤ d * h := by
  rcases Int.lt_or_gt_of_ne hne with hlt | hgt
  · have hmul := Int.mul_le_mul_of_nonneg_left (Int.add_one_le_of_lt hlt) (Int.natCast_nonneg d)
    rw [Int.mul_add, Int.mul_one] at hmul
    exact .inr hmul
  · have hmul := Int.mul_le_mul_of_nonneg_left (Int.add_one_le_of_lt hgt) (Int.natCast_nonneg d)
    rw [Int.mul_add, Int.mul_one] at hmul
    exact .inl hmul

theorem divHalfEven_near_int {n d : Nat} (hd : 0 < d) :
    2 * ((n : Int) - d * divHalfEven n d).natAbs ≤ d := by
  obtain ⟨hlow, hhigh⟩ := divHalfEven_near (n := n) hd
  have hcast : ((d * divHalfEven n d : Nat) : Int) = (d : Int) * divHalfEven n d := Int.natCast_mul _ _
  omega

theorem divHalfEven_nearest {n d : Nat} (hd : 0 < d) (z : Int) :
    ((n : Int) - d * divHalfEven n d).natAbs ≤ ((n : Int) - d * z).natAbs := by
  by_cases hz : z = divHalfEven n d
  · rw [hz]
  · have hnear := divHalfEven_near_int (n := n) hd
    have hfar := mul_far_of_ne (d := d) hz
    omega

theorem divHalfEven_cases (n d : Nat) :
    2 * (n % d) < d ∧ divHalfEven n d = n / d ∨ d < 2 * (n % d) ∧ divHalfEven n d = n / d + 1 ∨
      divHalfEven n d % 2 = 0 := by
  unfold divHalfEven
  dsimp only
  split
  · exact .inl ⟨‹_›, rfl⟩
  · split
    · exact .inr (.inl ⟨‹_›, rfl⟩)
    · omega

theorem divHalfEven_even {n d : Nat} (hd : 0 < d) {z : Int} (hz : z ≠ divHalfEven n d)
    (htie : ((n : Int) - d * z).natAbs = ((n : Int) - d * divHalfEven n d).natAbs) :
    divHalfEven n d % 2 = 0 := by
  have hfar := mul_far_of_ne (d := d) hz
  -- The nearest whole number is half the divisor away.
  have hhalf : d ≤ 2 * ((n : Int) - d * divHalfEven n d).natAbs := by omega
  have hdiv := Nat.div_add_mod n d
  have hmod := Nat.mod_lt n hd
  rw [← Int.natCast_mul] at hhalf
  rcases divHalfEven_cases n d with ⟨hlow, hround⟩ | ⟨hhigh, hround⟩ | heven
  · rw [hround] at hhalf
    omega
  · rw [hround, Nat.mul_add, Nat.mul_one] at hhalf
    omega
  · exact heven

theorem divHalfEven_le {n d bound : Nat} (hd : 0 < d) (h : n < d * bound) : divHalfEven n d ≤ bound := by
  obtain ⟨-, hhigh⟩ := divHalfEven_near (n := n) hd
  refine Nat.le_of_not_lt fun hlt => ?_
  have hmul := Nat.mul_le_mul_left d hlt
  rw [Nat.mul_succ] at hmul
  omega

theorem le_divHalfEven {n d bound : Nat} (hd : 0 < d) (h : d * bound ≤ n) : bound ≤ divHalfEven n d := by
  obtain ⟨hlow, -⟩ := divHalfEven_near (n := n) hd
  refine Nat.le_of_not_lt fun hlt => ?_
  have hmul := Nat.mul_le_mul_left d hlt
  rw [Nat.mul_succ] at hmul
  omega

/-! ## The spacing at a magnitude -/

theorem lt_mul_spacing (units : Nat) : units < 2 ^ 53 * spacing units := by
  rw [spacing, ← Nat.pow_add]
  exact Nat.lt_of_lt_of_le Nat.lt_log2_self (Nat.pow_le_pow_right (by decide) (by omega))

theorem lowest_or_mul_spacing_le (units : Nat) : units.log2 - 52 = 0 ∨ 2 ^ 52 * spacing units ≤ units := by
  by_cases hsmall : units.log2 ≤ 52
  · exact .inl (by omega)
  · refine .inr ?_
    rw [spacing, ← Nat.pow_add, Nat.add_sub_cancel' (by omega)]
    exact Nat.log2_self_le (by rintro rfl; exact hsmall (by decide))

-- A double that is no multiple of the spacing lies below the power of two of the magnitude.
theorem IsWritten.dvd_or_lt {y significand exponent : Nat} (h : IsWritten y significand exponent)
    (units : Nat) : spacing units ∣ y ∨ (y < 2 ^ 52 * spacing units ∧ 2 ^ 52 * spacing units ≤ units) := by
  rcases Nat.lt_or_ge exponent (units.log2 - 52) with hlt | hge
  · refine .inr ⟨?_, (lowest_or_mul_spacing_le units).resolve_left (by omega)⟩
    calc y = significand * 2 ^ exponent := h.units_eq
      _ < 2 ^ 53 * 2 ^ exponent := Nat.mul_lt_mul_of_pos_right h.bits (Nat.two_pow_pos _)
      _ = 2 ^ (52 + (exponent + 1)) := by rw [← Nat.pow_add]; congr 1; omega
      _ ≤ 2 ^ (52 + (units.log2 - 52)) := Nat.pow_le_pow_right (by decide) (by omega)
      _ = 2 ^ 52 * spacing units := by rw [Nat.pow_add, spacing]
  · refine .inl ?_
    rw [h.units_eq, spacing]
    exact Nat.dvd_mul_left_of_dvd (Nat.pow_dvd_pow 2 hge) significand

/-! ## The rounded quotient -/

/-- A quotient on the grid of the doubles of its magnitude. -/
def onSpacing (exact d : Nat) : Nat :=
  divHalfEven exact (d * spacing (exact / d)) * spacing (exact / d)

theorem ofRatio_eq (negative : Bool) (n d : Nat) :
    ofRatio negative n d = if onSpacing (n * unitsPerOne) d < overflowUnits then
      .finite negative (onSpacing (n * unitsPerOne) d) else .infinite negative := rfl

variable {exact d : Nat}

theorem mul_onSpacing (exact d : Nat) : (d : Int) * onSpacing exact d =
    (d * spacing (exact / d) : Nat) * divHalfEven exact (d * spacing (exact / d)) := by
  rw [onSpacing]
  push_cast
  ring

theorem lt_mul_grid (hd : 0 < d) : exact < d * spacing (exact / d) * 2 ^ 53 := by
  calc exact < 2 ^ 53 * spacing (exact / d) * d := (Nat.div_lt_iff_lt_mul hd).1 (lt_mul_spacing _)
    _ = d * spacing (exact / d) * 2 ^ 53 := by ring

theorem mul_grid_le (hd : 0 < d) (h : 2 ^ 52 * spacing (exact / d) ≤ exact / d) :
    d * spacing (exact / d) * 2 ^ 52 ≤ exact := by
  calc d * spacing (exact / d) * 2 ^ 52 = 2 ^ 52 * spacing (exact / d) * d := by ring
    _ ≤ exact := (Nat.le_div_iff_mul_le hd).1 h

theorem exists_isWritten_onSpacing (hd : 0 < d) :
    ∃ significand exponent, IsWritten (onSpacing exact d) significand exponent ∧
      (divHalfEven exact (d * spacing (exact / d)) % 2 = 0 → significand % 2 = 0) := by
  have hpos := Nat.mul_pos hd (spacing_pos (exact / d))
  rcases Nat.lt_or_eq_of_le (divHalfEven_le hpos (lt_mul_grid hd)) with hlt | hpower
  · refine ⟨_, (exact / d).log2 - 52, ⟨rfl, hlt, ?_⟩, id⟩
    rcases lowest_or_mul_spacing_le (exact / d) with hlowest | hlarge
    · exact .inl hlowest
    · exact .inr (le_divHalfEven hpos (mul_grid_le hd hlarge))
  -- Rounding up to the next power of two makes the exponent greater.
  · refine ⟨2 ^ 52, (exact / d).log2 - 52 + 1, ⟨?_, by decide, .inr (Nat.le_refl _)⟩, fun _ => by decide⟩
    rw [onSpacing, hpower, spacing, Nat.pow_succ]
    ring

/-- No double of either sign is nearer to a quotient than the rounded one, and one that is as near leaves
it even. -/
theorem onSpacing_nearest (hd : 0 < d) {z : Int} {significand exponent : Nat}
    (hz : IsWritten z.natAbs significand exponent) :
    ((exact : Int) - d * onSpacing exact d).natAbs ≤ ((exact : Int) - d * z).natAbs ∧
      (z ≠ onSpacing exact d →
        ((exact : Int) - d * z).natAbs = ((exact : Int) - d * onSpacing exact d).natAbs →
        divHalfEven exact (d * spacing (exact / d)) % 2 = 0) := by
  have hpos := Nat.mul_pos hd (spacing_pos (exact / d))
  rw [mul_onSpacing]
  have hnearest := divHalfEven_nearest (n := exact) hpos
  have heven := @divHalfEven_even exact _ hpos
  rcases lt_or_ge z 0 with hneg | hnonneg
  · -- A double of the other sign is farther away than zero.
    have hzero := hnearest 0
    have hfar : (d : Int) * z < 0 := Int.mul_neg_of_pos_of_neg (by omega) hneg
    omega
  · rcases hz.dvd_or_lt (exact / d) with ⟨count, hcount⟩ | ⟨hlt, hle⟩
    · have hmul : (d : Int) * z = (d * spacing (exact / d) : Nat) * (count : Int) := by
        rw [← Int.natAbs_of_nonneg hnonneg, hcount]
        push_cast
        ring
      rw [hmul]
      refine ⟨hnearest count, fun hne htie => heven (z := count) ?_ htie⟩
      intro heq
      apply hne
      rw [← Int.natAbs_of_nonneg hnonneg, hcount, onSpacing, ← Int.natCast_inj.1 heq, Nat.mul_comm]
    · -- Below its own power of two, the power is nearer to the quotient.
      have hpower := hnearest (2 ^ 52 : Nat)
      have hexact := mul_grid_le hd hle
      have hbelow : d * z.natAbs < d * spacing (exact / d) * 2 ^ 52 := by
        calc d * z.natAbs < d * (2 ^ 52 * spacing (exact / d)) := Nat.mul_lt_mul_of_pos_left hlt hd
          _ = d * spacing (exact / d) * 2 ^ 52 := by ring
      have hz' : (d : Int) * z = (d * z.natAbs : Nat) := by
        rw [Int.natCast_mul, Int.natAbs_of_nonneg hnonneg]
      rw [← Int.natCast_mul] at hpower
      omega

/-! ## Exact values -/

theorem value_of_signedUnits {x : Binary64} {z : Int} (h : x.signedUnits? = some z) :
    x.value = z / unitsPerOne := by
  rw [value, h, Option.getD_some]

theorem value_of_not_finite {x : Binary64} (h : x.signedUnits? = none) : x.value = 0 := by
  rw [value, h, Option.getD_none, Int.cast_zero, zero_div]

theorem value_finite_false (units : Nat) : (finite false units).value = units / unitsPerOne := by
  rw [value_of_signedUnits rfl, Int.cast_natCast]

theorem value_finite_true (units : Nat) : (finite true units).value = -(units / unitsPerOne) := by
  rw [value_of_signedUnits rfl, Int.cast_neg, Int.cast_natCast, neg_div]

theorem value_neg (x : Binary64) : x.neg.value = -x.value := by
  match x with
  | .nan => rw [neg, value_of_not_finite rfl, neg_zero]
  | .infinite negative => rw [neg, value_of_not_finite rfl, value_of_not_finite rfl, neg_zero]
  | .finite true units =>
    rw [neg, Bool.not_true, value_finite_false, value_finite_true]
    exact neg_eq_iff_eq_neg.1 rfl
  | .finite false units => rw [neg, Bool.not_false, value_finite_true, value_finite_false]

theorem IsFinite.neg {x : Binary64} (h : x.IsFinite) : x.neg.IsFinite := by
  cases x <;> exact h

theorem HasEvenEnd.neg {x : Binary64} (h : x.HasEvenEnd) : x.neg.HasEvenEnd := by
  cases x <;> exact h

theorem neg_ofRatio (negative : Bool) (n d : Nat) :
    (ofRatio negative n d).neg = ofRatio (!negative) n d := by
  rw [ofRatio_eq, ofRatio_eq]
  split
  · rfl
  · rfl

-- Rounding does not look at the sign.
theorem IsNearest.neg {x : Binary64} {q : ℚ} (h : x.IsNearest q) : x.neg.IsNearest (-q) := by
  have hself : |-q - x.neg.value| = |q - x.value| := by
    rw [value_neg, abs_sub_comm]
    congr 1
    ring
  have hother : ∀ y : Binary64, |-q - y.value| = |q - y.neg.value| := by
    intro y
    rw [value_neg, ← abs_neg]
    congr 1
    ring
  refine ⟨h.isFinite.neg, fun y hy => ?_, fun y hy hne htie => ?_⟩
  · rw [hself, hother]
    exact h.nearest y.neg hy.neg
  · rw [hself, hother] at htie
    refine (h.tie y.neg hy.neg (fun heq => hne ?_) htie).neg
    rw [value_neg] at heq ⊢
    exact neg_eq_iff_eq_neg.1 heq

theorem IsFinite.exists_signed {y : Binary64} (h : y.IsFinite) :
    ∃ z : Int, y.value = z / unitsPerOne ∧ ∃ significand exponent, IsWritten z.natAbs significand exponent := by
  match y, h with
  | .finite true units, h => exact ⟨-units, rfl, by simpa using h.2⟩
  | .finite false units, h => exact ⟨units, rfl, by simpa using h.2⟩

theorem cast_unitsPerOne_pos : (0 : ℚ) < unitsPerOne := Nat.cast_pos.2 unitsPerOne_pos

theorem abs_sub_eq {n d : Nat} (hd : 0 < d) (z : Int) :
    |(n / d : ℚ) - z / unitsPerOne| =
      (((n * unitsPerOne : Nat) : Int) - d * z).natAbs / (d * unitsPerOne : ℚ) := by
  have hone := cast_unitsPerOne_pos
  have hd' : (0 : ℚ) < d := Nat.cast_pos.2 hd
  have hdifference : (n / d : ℚ) - z / unitsPerOne =
      ((((n * unitsPerOne : Nat) : Int) - d * z : Int) : ℚ) / (d * unitsPerOne) := by
    rw [div_sub_div _ _ hd'.ne' hone.ne']
    push_cast
    rfl
  rw [hdifference, abs_div, abs_of_pos (mul_pos hd' hone), Nat.cast_natAbs, Int.cast_abs]

theorem ofRatio_false_isNearest {n d : Nat} (hd : 0 < d) (h : ofRatio false n d ≠ .infinite false) :
    (ofRatio false n d).IsNearest (n / d) := by
  rw [ofRatio_eq] at h ⊢
  split at h
  swap
  · exact absurd rfl h
  rename_i hlt
  rw [if_pos hlt]
  obtain ⟨significand, exponent, hwritten, heven⟩ := @exists_isWritten_onSpacing (n * unitsPerOne) d hd
  have hscale : (0 : ℚ) < d * unitsPerOne := mul_pos (Nat.cast_pos.2 hd) cast_unitsPerOne_pos
  have hvalue : (finite false (onSpacing (n * unitsPerOne) d)).value =
      ((onSpacing (n * unitsPerOne) d : Int) : ℚ) / unitsPerOne := rfl
  refine ⟨⟨hlt, significand, exponent, hwritten⟩, fun y hy => ?_, fun y hy hne htie => ?_⟩
  · obtain ⟨z, hz, _, _, hzwritten⟩ := hy.exists_signed
    rw [hvalue, hz, abs_sub_eq hd, abs_sub_eq hd, div_le_div_iff_of_pos_right hscale, Nat.cast_le]
    exact (onSpacing_nearest hd hzwritten).1
  · obtain ⟨z, hz, _, _, hzwritten⟩ := hy.exists_signed
    rw [hvalue, hz, abs_sub_eq hd, abs_sub_eq hd, div_left_inj' hscale.ne', Nat.cast_inj] at htie
    refine ⟨significand, exponent, hwritten, heven ((onSpacing_nearest hd hzwritten).2 ?_ htie)⟩
    rintro rfl
    exact hne (hz.trans hvalue.symm)

/-- A rounded quotient that does not overflow is the double nearest to the quotient, and of two the one
with the even significand. -/
theorem ofRatio_isNearest {negative : Bool} {n d : Nat} (hd : 0 < d)
    (h : ofRatio negative n d ≠ .infinite negative) :
    (ofRatio negative n d).IsNearest (if negative then -(n / d : ℚ) else n / d) := by
  cases negative with
  | false => exact ofRatio_false_isNearest hd h
  | true =>
    have hpositive : ofRatio false n d ≠ .infinite false := by
      intro hover
      rw [← Bool.not_false, ← neg_ofRatio, hover] at h
      exact h rfl
    have hnearest := (ofRatio_false_isNearest hd hpositive).neg
    rwa [neg_ofRatio] at hnearest

/-! ## What is a double already -/

theorem exists_isWritten_mul {number : Nat} (h : number < 2 ^ 53) (places : Nat) :
    ∃ significand exponent, IsWritten (number * 2 ^ places) significand exponent := by
  induction places generalizing number with
  | zero => exact ⟨number, 0, rfl, h, .inl rfl⟩
  | succ places ih =>
    by_cases hfull : 2 ^ 52 ≤ number
    · exact ⟨number, places + 1, rfl, h, .inr hfull⟩
    · obtain ⟨significand, exponent, hwritten⟩ := @ih (number * 2) (by omega)
      rw [Nat.mul_assoc, Nat.mul_comm 2, ← Nat.pow_succ] at hwritten
      exact ⟨significand, exponent, hwritten⟩

-- Nothing is nearer to a double than the double.
theorem onSpacing_of_isWritten (hd : 0 < d) {units significand exponent : Nat}
    (h : IsWritten units significand exponent) : onSpacing (d * units) d = units := by
  have hnearest := (@onSpacing_nearest (d * units) d hd units _ _ h).1
  rw [← Int.natCast_mul, ← Int.natCast_mul] at hnearest
  exact Nat.eq_of_mul_eq_mul_left hd (by omega)

/-- A whole number of at most 53 bits is a double. -/
theorem ofSigned_one {n : Int} (h : n.natAbs < 2 ^ 53) :
    ofSigned n 1 = .finite (n < 0) (n.natAbs * unitsPerOne) := by
  have hwritten : ∃ significand exponent, IsWritten (n.natAbs * unitsPerOne) significand exponent := by
    -- The power is not to be computed.
    unfold unitsPerOne
    generalize 1074 = places
    exact exists_isWritten_mul h places
  have hover : 2 ^ 53 * unitsPerOne ≤ overflowUnits := by
    unfold unitsPerOne overflowUnits
    apply two_pow_mul_le
    decide
  obtain ⟨_, _, hwritten⟩ := hwritten
  have hexact := onSpacing_of_isWritten Nat.one_pos hwritten
  have hlt : n.natAbs * unitsPerOne < overflowUnits :=
    Nat.lt_of_lt_of_le (Nat.mul_lt_mul_of_pos_right h unitsPerOne_pos) hover
  rw [Nat.one_mul] at hexact
  rw [ofSigned, ofRatio_eq, hexact, if_pos hlt]

theorem value_ofSigned_one {n : Int} (h : n.natAbs < 2 ^ 53) : (ofSigned n 1).value = n := by
  have hone := cast_unitsPerOne_pos.ne'
  rw [ofSigned_one h]
  by_cases hneg : n < 0
  · rw [decide_eq_true hneg, value_finite_true, Nat.cast_mul, mul_div_cancel_right₀ _ hone, Nat.cast_natAbs,
      abs_of_neg hneg, Int.cast_neg, neg_eq_iff_eq_neg]
  · rw [decide_eq_false hneg, value_finite_false, Nat.cast_mul, mul_div_cancel_right₀ _ hone,
      Nat.cast_natAbs, abs_of_nonneg (not_lt.1 hneg)]

theorem divHalfEven_mul_right (n d : Nat) {k : Nat} (hk : 0 < k) :
    divHalfEven (n * k) (d * k) = divHalfEven n d := by
  have hlt : ∀ a b : Nat, a * k < b * k ↔ a < b := fun a b => Nat.mul_lt_mul_right hk
  unfold divHalfEven
  dsimp only
  rw [Nat.mul_div_mul_right _ _ hk, Nat.mul_mod_mul_right, ← Nat.mul_assoc]
  simp only [hlt]

-- A quotient is rounded as it would be in its lowest terms.
theorem ofRatio_mul_right (negative : Bool) (n d : Nat) {k : Nat} (hk : 0 < k) :
    ofRatio negative (n * k) (d * k) = ofRatio negative n d := by
  have hgrid : onSpacing (n * k * unitsPerOne) (d * k) = onSpacing (n * unitsPerOne) d := by
    rw [onSpacing, Nat.mul_right_comm, Nat.mul_div_mul_right _ _ hk, Nat.mul_right_comm d,
      divHalfEven_mul_right _ _ hk, onSpacing]
  rw [ofRatio_eq, ofRatio_eq, hgrid]

end Registry.Binary64
