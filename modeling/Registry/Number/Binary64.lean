import Registry.Number.Power

/-! # Binary64 — doubles as exact multiples of their smallest step

A finite double is a whole number of `2 ^ -1074`, the smallest positive one; that number is kept, so
every operation is exact arithmetic followed by one rounding. `ofRatio` rounds a quotient to the
nearest double, ties to the even one. The main facts: the rounded value lies within half a step of
the quotient, and the step is at most `2 ^ -52` of the value. -/

namespace Registry

inductive Binary64 where
  | nan
  | infinite (negative : Bool)
  | finite (negative : Bool) (units : Nat)
  deriving DecidableEq, Repr

namespace Binary64

-- The number of smallest steps in one.
def unitsPerOne : Nat := 2 ^ 1074

/-- The first magnitude that is too large for a double, in smallest steps. -/
def overflowUnits : Nat := 2 ^ 2098

/-- The distance between neighbouring doubles at a magnitude; 53 significant bits fit, and below
`2 ^ 53` smallest steps the distance is one step. -/
def spacing (units : Nat) : Nat := 2 ^ (units.log2 - 52)

/-- The whole number nearest to a quotient, of two equally near the even one. -/
def divHalfEven (n d : Nat) : Nat :=
  let q := n / d
  let r := n % d
  if 2 * r < d then q else if d < 2 * r then q + 1 else q + q % 2

/-- The double nearest to `n / d`, of two equally near the one with the even last bit. -/
def ofRatio (negative : Bool) (n d : Nat) : Binary64 :=
  let exact := n * unitsPerOne
  let step := spacing (exact / d)
  let units := divHalfEven exact (d * step) * step
  if units < overflowUnits then .finite negative units else .infinite negative

def scaledBy (k : Nat) : Binary64 → Binary64
  | .nan => .nan
  | .infinite negative => if k = 0 then .nan else .infinite negative
  | .finite negative units => ofRatio negative (units * k) unitsPerOne

/-- The whole number nearest to a finite double, halves away from zero. -/
def roundAway? : Binary64 → Option Int
  | .finite negative units =>
    let magnitude : Nat := (2 * units + unitsPerOne) / (2 * unitsPerOne)
    some (if negative then -(magnitude : Int) else magnitude)
  | _ => none

theorem spacing_pos (units : Nat) : 0 < spacing units := Nat.two_pow_pos _

theorem divHalfEven_near {n d : Nat} (hd : 0 < d) :
    2 * n ≤ 2 * (d * divHalfEven n d) + d ∧ 2 * (d * divHalfEven n d) ≤ 2 * n + d := by
  have hdiv := Nat.div_add_mod n d
  have hmod := Nat.mod_lt n hd
  unfold divHalfEven
  simp only []
  split
  · omega
  · split
    · rw [Nat.mul_add]; omega
    · rcases Nat.mod_two_eq_zero_or_one (n / d) with h | h <;> rw [h, Nat.mul_add] <;> omega

-- The step at a magnitude that is no smaller than `2 ^ 52` steps is at most `2 ^ -52` of it.
theorem spacing_le {units : Nat} (h : 2 ^ 52 ≤ units) : spacing units * 2 ^ 52 ≤ units := by
  have hu : units ≠ 0 := by
    intro h0; subst h0; exact absurd h (by decide)
  have hlog : 52 ≤ units.log2 := by
    rcases Nat.lt_or_ge units.log2 52 with hlt | hge
    · exact absurd ((Nat.log2_lt hu).1 hlt) (Nat.not_lt.2 h)
    · exact hge
  rw [spacing, ← Nat.pow_add, Nat.sub_add_cancel hlog]
  exact Nat.log2_self_le hu

/-! ## The order of magnitudes -/

/-- The value in smallest steps with its sign; the two zeros are one value. -/
def signedUnits? : Binary64 → Option Int
  | .finite true units => some (-(units : Int))
  | .finite false units => some units
  | _ => none

/-- The one double is less than the other; NaN is less than nothing. -/
def less : Binary64 → Binary64 → Bool
  | .nan, _ | _, .nan => false
  | .infinite true, .infinite negative => !negative
  | .infinite true, _ => true
  | .infinite false, _ => false
  | .finite .., .infinite negative => !negative
  | a, b => match a.signedUnits?, b.signedUnits? with
    | some x, some y => x < y
    | _, _ => false

/-! ## Bits -/

def signPlace : Nat := 2 ^ 63

-- The number of fractions that one exponent has.
def fractionCount : Nat := 2 ^ 52

-- The exponent field of infinities and of NaN.
def specialExponent : Nat := 2047

/-- A double from its 64 bits: sign, eleven bits of exponent, 52 bits of fraction. -/
def ofBits (bits : Nat) : Binary64 :=
  let negative := signPlace ≤ bits % (2 * signPlace)
  let magnitude := bits % signPlace
  let exponent := magnitude / fractionCount
  let fraction := magnitude % fractionCount
  if exponent = specialExponent then
    if fraction = 0 then .infinite negative else .nan
  else if exponent = 0 then .finite negative fraction
  else .finite negative ((fractionCount + fraction) * 2 ^ (exponent - 1))

def toBits : Binary64 → Nat
  | .nan => specialExponent * fractionCount + fractionCount / 2
  | .infinite negative => (if negative then signPlace else 0) + specialExponent * fractionCount
  | .finite negative units =>
    (if negative then signPlace else 0) +
      if units < fractionCount then units
      else (units.log2 - 51) * fractionCount + (units / spacing units - fractionCount)

end Binary64

end Registry
