/-! # Calendar — dates of the proleptic Gregorian calendar

A date is a year, a month and a day. Days are counted from 1970-01-01, before it with negative
numbers; the year 0 exists and is a leap year. The main facts: a year is as long as its months
together, and a later year starts after the whole of an earlier one. -/

namespace Registry

structure Date where
  year : Int
  month : Nat
  day : Nat
  deriving DecidableEq, Repr

namespace Date

/-! ## Lengths -/

/-- Every fourth year is a leap year, but of the full centuries only every fourth one. -/
def isLeapYear (year : Int) : Bool := year % 4 == 0 && (year % 100 != 0 || year % 400 == 0)

/-- The number of days in front of a month, in a year that is no leap year. -/
def daysBeforeMonthPlain : Nat → Nat
  | 1 => 0 | 2 => 31 | 3 => 59 | 4 => 90 | 5 => 120 | 6 => 151
  | 7 => 181 | 8 => 212 | 9 => 243 | 10 => 273 | 11 => 304 | 12 => 334
  | _ => 365

/-- The number of days of a year in front of a month; month 13 stands for the end of the year. -/
def daysBeforeMonth (year : Int) (month : Nat) : Nat :=
  daysBeforeMonthPlain month + if isLeapYear year && 2 < month then 1 else 0

def daysInMonth (year : Int) (month : Nat) : Nat :=
  daysBeforeMonth year (month + 1) - daysBeforeMonth year month

/-- The number of days from 0001-01-01 to the first day of a year. -/
def daysBeforeYear (year : Int) : Int :=
  let past := year - 1
  365 * past + past / 4 - past / 100 + past / 400

-- The month exists, and the day exists in it.
def isValid (d : Date) : Bool :=
  1 ≤ d.month && d.month ≤ 12 && 1 ≤ d.day && d.day ≤ daysInMonth d.year d.month

theorem daysBeforeYear_succ (year : Int) :
    daysBeforeYear (year + 1) = daysBeforeYear year + 365 + if isLeapYear year then 1 else 0 := by
  simp only [daysBeforeYear, isLeapYear, Bool.and_eq_true, Bool.or_eq_true, beq_iff_eq, bne_iff_ne]
  split <;> omega

/-! ## Days since 1970-01-01 -/

-- The days from 0001-01-01 to 1970-01-01.
def epochDay : Int := 719162

theorem epochDay_eq : epochDay = daysBeforeYear 1970 := by decide

def toDay (d : Date) : Int :=
  daysBeforeYear d.year - epochDay + daysBeforeMonth d.year d.month + (d.day - 1 : Int)

/-- The year that holds a day counted from 0001-01-01: the average length of a year gives it up to
one, and the first days of the neighbouring years decide. -/
def yearOf (day : Int) : Int :=
  let guess := 400 * day / 146097 + 1
  if day < daysBeforeYear guess then guess - 1
  else if daysBeforeYear (guess + 1) ≤ day then guess + 1
  else guess

/-- The month that holds a day of a year, both counted from zero days in. -/
def monthOf (year : Int) (dayOfYear : Nat) : Nat :=
  ((List.range 12).filter fun k => daysBeforeMonth year (k + 1) ≤ dayOfYear).length

def ofDay (day : Int) : Date :=
  let year := yearOf (day + epochDay)
  let dayOfYear := (day + epochDay - daysBeforeYear year).toNat
  let month := monthOf year dayOfYear
  { year, month, day := dayOfYear - daysBeforeMonth year month + 1 }

end Date

end Registry
