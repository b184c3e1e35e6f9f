import Registry.Number.Binary64
import Registry.Text.Digits
import Registry.Text.LetterCase

/-! # Shortest — the text of a double

A double is written with the fewest decimal digits that read back as the same double; of several
such numbers the nearest is taken. The digits are set out in full, without an exponent. Reading
takes any decimal number to the nearest double. -/

namespace Registry.Binary64

open Registry.Text

/-! ## Writing -/

/-- Twice the distance from a double to the lower end of the numbers that round to it. Below a power
of two the doubles stand twice as close. -/
def gapBelow (units : Nat) : Nat :=
  let step := spacing units
  if 1 < step ∧ units = fractionCount * step then step / 2 else step

/-- The power of ten that starts the digits of a positive double. -/
def decimalExponent (units : Nat) : Int :=
  if unitsPerOne ≤ units then (digitsOf (units / unitsPerOne)).length - 1
  else -(((List.range 400).find? fun j => unitsPerOne ≤ units * 10 ^ j).getD 400 : Nat)

/-- On the decimal grid with `count` digits, the number nearest to a positive double among those
that read back as it. The result is the number on the grid and the power of ten of its last digit. -/
def onGrid? (units count : Nat) : Option (Nat × Int) :=
  let last : Int := decimalExponent units - count + 1
  let up : Nat := 10 ^ (-last).toNat
  let den : Nat := unitsPerOne * 10 ^ last.toNat
  let num : Nat := units * up
  let low := (2 * units - gapBelow units) * up
  let high := (2 * units + spacing units) * up
  let even := units / spacing units % 2 == 0
  let readsBack (c : Nat) : Bool :=
    if even then low ≤ 2 * c * den && 2 * c * den ≤ high else low < 2 * c * den && 2 * c * den < high
  let floor := num / den
  match readsBack floor, readsBack (floor + 1) with
  | true, true =>
    some (if num - floor * den ≤ (floor + 1) * den - num then floor else floor + 1, last)
  | true, false => some (floor, last)
  | false, true => some (floor + 1, last)
  | false, false => none

/-- The digits of a positive double and the power of ten of the last one. -/
def shortest (units : Nat) : Nat × Int :=
  ((List.range 17).findSome? fun k => onGrid? units (k + 1)).getD (0, 0)

def positional (digits : Nat) (last : Int) : String :=
  let ds := digitsOf digits
  if 0 ≤ last then String.ofList (ds ++ List.replicate last.toNat '0')
  else
    let places := last.natAbs
    let ds := List.replicate (places + 1 - ds.length) '0' ++ ds
    String.ofList (ds.take (ds.length - places) ++ '.' :: ds.drop (ds.length - places))

def text : Binary64 → String
  | .nan => "NaN"
  | .infinite negative => if negative then "-inf" else "inf"
  | .finite negative units =>
    let magnitude := if units = 0 then "0" else
      let (digits, last) := shortest units
      positional digits last
    if negative then "-" ++ magnitude else magnitude

/-! ## Reading -/

/-- No double has its first digit more than this many places from the point. -/
def farthestPlace : Nat := 400

-- The nearest double to a whole number times a power of ten.
def ofDecimal (negative : Bool) (digits : Nat) (exponent : Int) : Binary64 :=
  if digits = 0 ∨ exponent + (digitsOf digits).length < -farthestPlace then .finite negative 0
  else if farthestPlace < exponent then .infinite negative
  else if 0 ≤ exponent then ofRatio negative (digits * 10 ^ exponent.toNat) 1
  else ofRatio negative digits (10 ^ exponent.natAbs)

/-- An unsigned decimal number: digits, a fraction, an exponent; all but one digit may be missing. -/
def ofUnsigned? (negative : Bool) (text : List Char) : Option Binary64 :=
  let whole := text.takeWhile Char.isDigit
  let rest := text.drop whole.length
  let (fraction, rest) := match rest with
    | '.' :: rest => (rest.takeWhile Char.isDigit, rest.dropWhile Char.isDigit)
    | rest => ([], rest)
  if whole.isEmpty && fraction.isEmpty then none
  else
    let value (exponent : Int) : Binary64 :=
      ofDecimal negative (natOfDigits (whole ++ fraction)) (exponent - fraction.length)
    match rest with
    | [] => some (value 0)
    | mark :: digits =>
      if mark = 'e' ∨ mark = 'E' then (intOfDigits? digits).map value else none

def ofText? (text : String) : Option Binary64 :=
  let (negative, rest) := match text.toList with
    | '-' :: rest => (true, rest)
    | '+' :: rest => (false, rest)
    | rest => (false, rest)
  match foldAscii (String.ofList rest) with
  | "inf" | "infinity" => some (.infinite negative)
  | "nan" => some .nan
  | _ => ofUnsigned? negative rest

end Registry.Binary64
