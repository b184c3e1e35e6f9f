import Registry.Number.Extended
import Registry.Text.Digits

/-! # Significant — a double in fifteen significant digits

A column of texts keeps a double as the text of its first fifteen digits. The digits are calculated
in 64 significant bits, so the last one need not be the nearest. Zeros at the end are left out, but
there is always a digit behind the point. Numbers from 10¹⁵ on and below 10⁻⁴ have an exponent. -/

namespace Registry.Binary64

open Registry.Text

-- The number of digits that are kept.
def significantCount : Nat := 15

/-! ## Digits -/

/-- A number times a factor as long as it passes a test, with the places that this leaves. -/
def moved (test : Extended → Bool) (places : Int) :
    Nat → Extended × Int → Extended × Int
  | 0, a => a
  | fuel + 1, (x, exponent) =>
    if test x then
      moved test places fuel (x.mul (.powerOfTen (-places)), exponent + places)
    else (x, exponent)

-- The most steps of one size that a double can take.
def mostSteps : Nat := 40

/-- A positive double as a whole number of 18 or 19 digits and a power of ten. -/
def wholeDigits (units : Nat) : Nat × Int :=
  let atLeast (places : Int) (x : Extended) : Bool := !x.isLess (.powerOfTen places)
  let below (places : Int) (x : Extended) : Bool := x.isLess (.powerOfTen places)
  let start := (Extended.ofUnits units, (0 : Int))
  let (x, exponent) :=
    if atLeast 19 start.1 then
      moved (atLeast 19) 1 mostSteps
        (moved (atLeast 29) 10 mostSteps (moved (atLeast 119) 100 mostSteps start))
    else
      moved (below 17) (-1) mostSteps
        (moved (below 7) (-10) mostSteps (moved (below (-97)) (-100) mostSteps start))
  (x.floor, exponent)

/-- A positive double in its first digits, half a digit rounded up, and the power of ten of the first
one. -/
def leading (units : Nat) : List Char × Int :=
  let (whole, exponent) := wholeDigits units
  let ds := digitsOf whole
  let first := exponent + ds.length - 1
  let kept := natOfDigits (ds.take significantCount)
  match ds[significantCount]? with
  | none => (ds, first)
  | some next =>
    let rounded := digitsOf (if next < '5' then kept else kept + 1)
    (rounded, first + (rounded.length - significantCount : Nat))

/-! ## Text -/

def withoutZeros (digits : List Char) : List Char := (digits.reverse.dropWhile (· == '0')).reverse

/-- Digits before and behind a point, of which there is at least one on either side. -/
def pointed (whole fraction : List Char) : List Char :=
  let orZero (digits : List Char) : List Char := if digits.isEmpty then ['0'] else digits
  orZero whole ++ '.' :: orZero (withoutZeros fraction)

def significant (units : Nat) : List Char :=
  let (ds, first) := leading units
  if first < -4 ∨ (significantCount : Int) ≤ first then
    let sign := if first < 0 then '-' else '+'
    pointed (ds.take 1) (ds.drop 1) ++ 'e' :: sign :: paddedDigits 2 first.natAbs
  else if first < 0 then pointed [] (List.replicate (first.natAbs - 1) '0' ++ ds)
  else
    let ds := ds ++ List.replicate significantCount '0'
    pointed (ds.take (first.toNat + 1)) (ds.drop (first.toNat + 1))

/-- The text that a column of texts keeps of a double; the two zeros are one. -/
def significantText : Binary64 → String
  | .nan => "NaN"
  | .infinite negative => if negative then "-Inf" else "Inf"
  | .finite _ 0 => "0.0"
  | .finite negative units =>
    String.ofList (if negative then '-' :: significant units else significant units)

end Registry.Binary64
