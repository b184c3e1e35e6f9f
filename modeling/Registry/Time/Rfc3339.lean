import Registry.Text.Digits
import Registry.Time.Civil

/-! # Rfc3339 — instants as text

The text of an instant is `YYYY-MM-DDTHH:MM:SS`, a fraction where there is one, and the zone. The
fraction has three, six or nine digits, the fewest that are exact. A year outside 0 to 9999 carries
a sign. The zone is universal time, written `+00:00` for people and `Z` between programs. -/

namespace Registry.Instant

open Registry.Text

/-! ## Writing -/

/-- A year with four digits at least, and with a sign outside 0 to 9999. -/
def yearText (year : Int) : String :=
  if 0 ≤ year ∧ year ≤ 9999 then padded 4 year.toNat
  else (if year < 0 then "-" else "+") ++ padded 4 year.natAbs

/-- A fraction of a second: nothing for zero, else the fewest of three, six and nine digits. -/
def fractionText (nano : Nat) : String :=
  if nano = 0 then ""
  else if nano % 1000000 = 0 then "." ++ padded 3 (nano / 1000000)
  else if nano % 1000 = 0 then "." ++ padded 6 (nano / 1000)
  else "." ++ padded 9 nano

/-- The date, the letter `T` and the time of day, without a zone. -/
def localText (i : Instant) : String :=
  let d := i.date
  yearText d.year ++ "-" ++ padded 2 d.month ++ "-" ++ padded 2 d.day ++ "T" ++
    padded 2 i.hour ++ ":" ++ padded 2 i.minute ++ ":" ++ padded 2 i.secondOfMinute ++
    fractionText i.nanoOfSecond

def text (i : Instant) : String := i.localText ++ "+00:00"

def zuluText (i : Instant) : String := i.localText ++ "Z"

/-! ## Reading -/

/-- The number in the next `width` characters, which are all digits, and what follows them. -/
def digitsThen? (width : Nat) (text : List Char) : Option (Nat × List Char) :=
  let digits := text.take width
  if digits.length = width && allDigits digits then some (natOfDigits digits, text.drop width)
  else none

-- What follows a character that has to be there.
def after? (c : Char) : List Char → Option (List Char)
  | [] => none
  | d :: rest => if d = c then some rest else none

/-- A year and what follows it: four digits, or a sign and at least four. -/
def yearThen? : List Char → Option (Int × List Char)
  | '-' :: rest =>
    let digits := rest.takeWhile Char.isDigit
    if 4 ≤ digits.length then some (-(natOfDigits digits : Int), rest.drop digits.length) else none
  | '+' :: rest =>
    let digits := rest.takeWhile Char.isDigit
    if 4 ≤ digits.length then some (natOfDigits digits, rest.drop digits.length) else none
  | text => (digitsThen? 4 text).map fun (year, rest) => ((year : Int), rest)

/-- The nanoseconds of a fraction and what follows it; no fraction is zero. -/
def fractionThen? : List Char → Option (Nat × List Char)
  | '.' :: rest =>
    let digits := rest.takeWhile Char.isDigit
    if 1 ≤ digits.length && digits.length ≤ 9 then
      some (natOfDigits digits * 10 ^ (9 - digits.length), rest.drop digits.length)
    else none
  | text => some (0, text)

/-- The instant that a text denotes, with either way to write the zone. -/
def ofText? (text : String) : Option Instant := do
  let (year, rest) ← yearThen? text.toList
  let (month, rest) ← digitsThen? 2 (← after? '-' rest)
  let (day, rest) ← digitsThen? 2 (← after? '-' rest)
  let (hour, rest) ← digitsThen? 2 (← after? 'T' rest)
  let (minute, rest) ← digitsThen? 2 (← after? ':' rest)
  let (second, rest) ← digitsThen? 2 (← after? ':' rest)
  let (nano, zone) ← fractionThen? rest
  if zone = ['Z'] ∨ zone = "+00:00".toList then
    ofCivil? { year, month, day } hour minute second nano
  else none

end Registry.Instant
