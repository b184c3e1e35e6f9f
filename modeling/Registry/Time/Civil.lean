import Registry.Time.Calendar
import Registry.Time.Instant

/-! # Civil — the date and the time of day of an instant

An instant in universal time shows a date, an hour, a minute, and a second that runs to 60 in a
leap second. `ofCivil?` goes back: second 60 of any minute is the leap second behind second 59. -/

namespace Registry.Instant

-- The seconds of a day.
def secondsPerDay : Int := 86400

def date (i : Instant) : Date := Date.ofDay (i.second / secondsPerDay)

def secondOfDay (i : Instant) : Nat := (i.second % secondsPerDay).toNat

def hour (i : Instant) : Nat := i.secondOfDay / 3600

def minute (i : Instant) : Nat := i.secondOfDay / 60 % 60

/-- The second in the minute as a clock shows it: 60 in a leap second. -/
def secondOfMinute (i : Instant) : Nat := i.secondOfDay % 60 + i.nano / nanosPerSecond

-- The nanoseconds in the second that the clock shows.
def nanoOfSecond (i : Instant) : Nat := i.nano % nanosPerSecond

/-- The instant at a time of day, where both the date and the time exist. -/
def ofCivil? (date : Date) (hour minute second nano : Nat) : Option Instant :=
  if date.isValid && hour < 24 && minute < 60 && second ≤ 60 && nano < nanosPerSecond then
    let start := date.toDay * secondsPerDay + hour * 3600 + minute * 60
    if second = 60 then ofParts? (start + 59) (nano + nanosPerSecond)
    else ofParts? (start + second) nano
  else none

end Registry.Instant
