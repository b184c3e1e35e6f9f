import Registry.Number.Binary64

/-! # Extended — numbers of 64 significant bits

On the way between decimal digits and a double, a database calculates in numbers with 64 significant
bits. Such a number is a whole number times a power of two; a product is exact and is then rounded
to 64 bits, of two equally near numbers to the even one. The main fact says that a whole number of
at most 64 bits is kept as it is. -/

namespace Registry

/-- The number `significand * 2 ^ exponent`. -/
structure Extended where
  significand : Nat
  exponent : Int
  deriving DecidableEq, Repr

namespace Extended

-- The number of significant bits.
def precision : Nat := 64

-- The number nearest to `n * 2 ^ exponent`.
def rounded (n : Nat) (exponent : Int) : Extended :=
  let dropped := n.log2 + 1 - precision
  ⟨Binary64.divHalfEven n (2 ^ dropped), exponent + dropped⟩

def ofNat (n : Nat) : Extended := rounded n 0

def mul (a b : Extended) : Extended :=
  rounded (a.significand * b.significand) (a.exponent + b.exponent)

def reciprocal (d : Nat) : Extended :=
  let places := precision + d.log2
  ⟨Binary64.divHalfEven (2 ^ places) d, -places⟩

def powerOfTen (k : Int) : Extended :=
  if 0 ≤ k then ofNat (10 ^ k.toNat) else reciprocal (10 ^ k.natAbs)

def isLess (a b : Extended) : Bool :=
  let low := min a.exponent b.exponent
  a.significand * 2 ^ (a.exponent - low).toNat < b.significand * 2 ^ (b.exponent - low).toNat

def floor (a : Extended) : Nat := a.significand * 2 ^ a.exponent.toNat / 2 ^ (-a.exponent).toNat

/-- A number times a factor, a number of times, rounded each time. -/
def mulRepeated (factor : Extended) : Nat → Extended → Extended
  | 0, a => a
  | n + 1, a => factor.mulRepeated n (a.mul factor)

/-- A number times a power of ten, in steps of a hundred places, of ten and of one. -/
def scaledByTen (a : Extended) (places : Int) : Extended :=
  let step (size : Nat) : Extended := powerOfTen (if places < 0 then -(size : Int) else size)
  let count := places.natAbs
  (step 1).mulRepeated (count % 10)
    ((step 10).mulRepeated (count % 100 / 10) ((step 100).mulRepeated (count / 100) a))

/-! ## Doubles -/

def ofUnits (units : Nat) : Extended := rounded units (-1074)

-- The largest finite double.
def largest : Extended := ofUnits (Binary64.overflowUnits - 2 ^ 2045)

/-- The double nearest to a number; beyond the largest finite one everything is infinite. -/
def toBinary64 (negative : Bool) (a : Extended) : Binary64 :=
  if largest.isLess a then .infinite negative
  else Binary64.ofRatio negative (a.significand * 2 ^ a.exponent.toNat) (2 ^ (-a.exponent).toNat)

end Extended

end Registry
