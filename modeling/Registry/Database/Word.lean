import Registry.Text.Digits
import Registry.Text.LetterCase
import Registry.Time.Rfc3339

/-! # Word — names that a statement does not take for columns

Where a statement reads a value, it takes three words for the time of its clock, and two for the first
word of a phrase that goes on with a bracket, whatever columns there are. A column may have such a name
all the same, for where a statement names the columns that it makes or writes to, every word is a name. -/

namespace Registry

open Registry.Text

namespace Instant

-- The date of an instant in universal time, as texts in a database have it.
def dateText (t : Instant) : String :=
  yearText t.date.year ++ "-" ++ padded 2 t.date.month ++ "-" ++ padded 2 t.date.day

-- The time of day of an instant.
def timeText (t : Instant) : String :=
  padded 2 t.hour ++ ":" ++ padded 2 t.minute ++ ":" ++ padded 2 t.secondOfMinute

end Instant

/-- The forms in which a statement reads its clock. -/
inductive ClockForm where
  | date
  | time
  | moment
  deriving DecidableEq, Repr

def ClockForm.text (now : Instant) : ClockForm → String
  | date => now.dateText
  | time => now.timeText
  | moment => now.dateText ++ " " ++ now.timeText

/-- What a statement takes a name for, where it reads a value. -/
inductive NameSense where
  | column
  | clock (form : ClockForm)
  -- The first word of a phrase.
  | phrase
  deriving DecidableEq, Repr

def senseOf (name : String) : NameSense :=
  match foldAscii name with
  | "current_date" => .clock .date
  | "current_time" => .clock .time
  | "current_timestamp" => .clock .moment
  | "cast" | "raise" => .phrase
  | _ => .column

-- What a name reads from the clock, if it is a word for that.
def clockText? (now : Instant) (name : String) : Option String :=
  match senseOf name with
  | .clock form => some (form.text now)
  | _ => none

theorem clockText?_of_column {name : String} (h : senseOf name = .column) (now : Instant) :
    clockText? now name = none := by
  rw [clockText?, h]

end Registry
