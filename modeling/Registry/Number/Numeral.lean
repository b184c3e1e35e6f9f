import Registry.Number.Extended
import Registry.Text.Digits

/-! # Numeral — decimal numbers as a database reads them

A numeral has digits, perhaps a point with digits behind it, and perhaps an exponent. Its double is
calculated in 64 significant bits, so it is not always the nearest one: the first digits that fit
are taken as a whole number, and that number is moved by powers of ten. -/

namespace Registry

open Registry.Text

structure Numeral where
  negative : Bool
  whole : List Char
  -- The digits behind a point.
  fraction : Option (List Char)
  -- The digits of an exponent, and whether it is negative.
  exponent : Option (Bool × List Char)
  deriving DecidableEq, Repr

namespace Numeral

/-! ## Reading -/

-- A sign, if one stands in front, and what follows it.
def sign : List Char → Bool × List Char
  | '-' :: rest => (true, rest)
  | '+' :: rest => (false, rest)
  | rest => (false, rest)

def digits (text : List Char) : List Char × List Char :=
  (text.takeWhile Char.isDigit, text.dropWhile Char.isDigit)

-- An exponent, if one stands in front, and what follows it.
def readExponent (text : List Char) : Option (Bool × List Char) × List Char :=
  match text with
  | mark :: rest =>
    let (negative, rest) := sign rest
    let (ds, rest) := digits rest
    if (mark = 'e' || mark = 'E') && !ds.isEmpty then (some (negative, ds), rest) else (none, text)
  | [] => (none, [])

def read? (text : List Char) : Option (Numeral × List Char) :=
  let (negative, rest) := sign text
  let (whole, rest) := digits rest
  let (fraction, rest) := match rest with
    | '.' :: rest => ((digits rest).map some id)
    | rest => (none, rest)
  if whole.isEmpty && (fraction.getD []).isEmpty then none
  else
    let (exponent, rest) := readExponent rest
    some ({ negative, whole, fraction, exponent }, rest)

def isWhole (n : Numeral) : Bool := n.fraction.isNone && n.exponent.isNone

def integer (n : Numeral) : Int :=
  if n.negative then -(natOfDigits n.whole : Int) else natOfDigits n.whole

/-! ## The double of a numeral -/

-- From here on no further digit fits into 64 bits.
def fullSignificand : Nat := (2 ^ Extended.precision - 10) / 10

/-- The first digits as a number, with the places that the later ones leave: a digit that does not
fit counts for the places where it stands in front of the point, and for nothing behind it. -/
def gather (n : Numeral) : Nat × Int :=
  let add (behindPoint : Bool) (acc : Nat × Int) (c : Char) : Nat × Int :=
    if acc.1 < fullSignificand then
      (acc.1 * 10 + (c.toNat - '0'.toNat), if behindPoint then acc.2 - 1 else acc.2)
    else if behindPoint then acc else (acc.1, acc.2 + 1)
  (n.fraction.getD []).foldl (add true) (n.whole.foldl (add false) (0, 0))

/-- The places of the exponent; beyond all bounds its exact size is not kept. -/
def places (n : Numeral) : Int :=
  match n.exponent with
  | none => 0
  | some (negative, ds) =>
    let size := ds.foldl (fun e c => if e < 10000 then e * 10 + (c.toNat - '0'.toNat) else 10000) 0
    if negative then -(size : Int) else size

/-- The same number with the exponent as near to zero as the significand allows. -/
def balanced : Nat → Nat → Int → Nat × Int
  | 0, s, e => (s, e)
  | fuel + 1, s, e =>
    if 0 < e ∧ s < (2 ^ Extended.precision - 1) / 10 then balanced fuel (s * 10) (e - 1)
    else if e < 0 ∧ s % 10 = 0 then balanced fuel (s / 10) (e + 1)
    else (s, e)

-- The number of digits that a significand has at most.
def mostDigits : Nat := 20

-- Beyond this many places a number is infinite or zero.
def farPlaces : Nat := 400

def toBinary64 (n : Numeral) : Binary64 :=
  let (s, shift) := n.gather
  let e := n.places + shift
  if s = 0 ∨ e < -farPlaces then .finite n.negative 0
  else if farPlaces < e then .infinite n.negative
  else
    let (s, e) := balanced mostDigits s e
    if e = 0 then Binary64.ofRatio n.negative s 1
    else ((Extended.ofNat s).scaledByTen e).toBinary64 n.negative

end Numeral

end Registry
