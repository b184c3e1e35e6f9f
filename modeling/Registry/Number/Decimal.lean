import Registry.Text.Digits
import Registry.Number.Binary64

/-! # Decimal — amounts with seven digits before the point and three behind it

An amount is kept as its number of thousandths. Text with more than three digits behind the point
is rounded, halves away from zero, by the fourth digit alone; that is exact, since what follows the
fourth digit cannot turn it. Tables hold an amount as the double nearest to it. -/

namespace Registry

/-- The first magnitude that needs an eighth digit before the point, in thousandths. -/
def decimalLimit : Nat := 10000000000

structure Decimal where
  thousandths : Int
  inLimit : thousandths.natAbs < decimalLimit := by decide
  deriving DecidableEq

namespace Decimal

open Registry.Text

def zero : Decimal := { thousandths := 0 }

instance : Inhabited Decimal := ⟨zero⟩

/-- The amount of that many thousandths, if seven digits hold it. -/
def ofThousandths? (n : Int) : Option Decimal :=
  if h : n.natAbs < decimalLimit then some ⟨n, h⟩ else none

theorem ofThousandths?_thousandths (d : Decimal) : ofThousandths? d.thousandths = some d := by
  simp [ofThousandths?, d.inLimit]

/-- Amounts are ordered by their value. -/
instance : LE Decimal := ⟨fun a b => a.thousandths ≤ b.thousandths⟩

instance (a b : Decimal) : Decidable (a ≤ b) := inferInstanceAs (Decidable (a.thousandths ≤ b.thousandths))

/-! ## Text -/

-- The sign of a number and the text behind it.
def signThen : List Char → Bool × List Char
  | '-' :: rest => (true, rest)
  | '+' :: rest => (false, rest)
  | text => (false, text)

/-- The thousandths of a fraction: three digits, and one more where the fourth is 5 or above. -/
def fractionThousandths (digits : List Char) : Nat :=
  let kept := digits.take 3
  natOfDigits kept * 10 ^ (3 - kept.length) +
    match digits[3]? with
    | some fourth => if '5' ≤ fourth then 1 else 0
    | none => 0

/-- The amount that a text denotes: an optional sign, digits, and optionally a point and digits,
with one digit at least. Zeros in front do not count as digits before the point. -/
def ofDigits? (text : List Char) : Option Decimal :=
  let (negative, unsigned) := signThen text
  let whole := unsigned.takeWhile (· != '.')
  let fraction := (unsigned.dropWhile (· != '.')).drop 1
  let significant := whole.dropWhile (· == '0')
  if (whole.isEmpty && fraction.isEmpty) || !allDigits whole || !allDigits fraction then none
  else if 7 < significant.length then none
  else
    let magnitude : Int := natOfDigits significant * 1000 + fractionThousandths fraction
    ofThousandths? (if negative then -magnitude else magnitude)

def ofText? (text : String) : Option Decimal := ofDigits? text.toList

/-- The digits of an amount: a minus sign below zero, and always three digits behind the point. -/
def digits (d : Decimal) : List Char :=
  (if d.thousandths < 0 then ['-'] else []) ++ digitsOf (d.thousandths.natAbs / 1000) ++
    '.' :: paddedDigits 3 (d.thousandths.natAbs % 1000)

def text (d : Decimal) : String := String.ofList d.digits

/-! ## Doubles -/

-- The double nearest to an amount, as tables hold it.
def toBinary64 (d : Decimal) : Binary64 :=
  Binary64.ofRatio (d.thousandths < 0) d.thousandths.natAbs 1000

/-- The amount nearest to a double; there is none for what seven digits do not hold. -/
def ofBinary64? (x : Binary64) : Option Decimal :=
  ((x.scaledBy 1000).roundAway?).bind ofThousandths?

end Decimal

end Registry
