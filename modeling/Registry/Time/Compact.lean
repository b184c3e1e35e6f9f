import Registry.Text.Digits
import Registry.Time.Civil

/-! # Compact — the date-times of delivered lines

A delivered date-time is written in digits alone: `yyyyMMdd`, `yyyyMMddHHmm` or `yyyyMMddHHmmss`.
What is left out is zero. Second 60 denotes the leap second at the end of the minute. -/

namespace Registry.Instant

open Registry.Text

-- The number that `width` characters from `start` on denote.
def numberAt (text : List Char) (start width : Nat) : Nat := natOfDigits ((text.drop start).take width)

def ofCompact? (text : List Char) : Option Instant :=
  if allDigits text && (text.length == 8 || text.length == 12 || text.length == 14) then
    let date : Date :=
      { year := numberAt text 0 4, month := numberAt text 4 2, day := numberAt text 6 2 }
    ofCivil? date (numberAt text 8 2) (numberAt text 10 2) (numberAt text 12 2) 0
  else none

end Registry.Instant
