/-! # Flaw — where bytes stop being a text

A text is written in one to four bytes a character. The first byte of a character tells how many
follow it and where they lie; the first byte that lies elsewhere, or the end of the bytes inside a
character, is a flaw. -/

namespace Registry.Text

structure Flaw where
  -- How many bytes in front are a text.
  start : Nat
  -- How many bytes behind them begin no character; none where the bytes end inside one.
  width : Option Nat
  deriving DecidableEq, Repr

def Flaw.message (flaw : Flaw) : String :=
  match flaw.width with
  | some width => s!"invalid utf-8 sequence of {width} bytes from index {flaw.start}"
  | none => s!"incomplete utf-8 byte sequence from index {flaw.start}"

/-- Where a byte lies that follows another one, if nothing narrower is said. -/
def anyFollower : Nat × Nat := (0x80, 0xBF)

-- Where the bytes behind the first byte of a character lie.
def followers? (first : UInt8) : Option (List (Nat × Nat)) :=
  if first ≤ 0x7F then some []
  else if first < 0xC2 then none
  else if first ≤ 0xDF then some [anyFollower]
  else if first = 0xE0 then some [(0xA0, 0xBF), anyFollower]
  else if first = 0xED then some [(0x80, 0x9F), anyFollower]
  else if first ≤ 0xEF then some [anyFollower, anyFollower]
  else if first = 0xF0 then some [(0x90, 0xBF), anyFollower, anyFollower]
  else if first ≤ 0xF3 then some [anyFollower, anyFollower, anyFollower]
  else if first = 0xF4 then some [(0x80, 0x8F), anyFollower, anyFollower]
  else none

/-- The first flaw behind `start` bytes that are a text and `seen` bytes of a character that has
more bytes to come. -/
def flawBehind? (start seen : Nat) : List (Nat × Nat) → List UInt8 → Option Flaw
  | [], [] => none
  | _ :: _, [] => some { start, width := none }
  | [], byte :: rest =>
    match followers? byte with
    | none => some { start := start + seen, width := some 1 }
    | some followers => flawBehind? (start + seen) 1 followers rest
  | (low, high) :: followers, byte :: rest =>
    if low ≤ byte.toNat ∧ byte.toNat ≤ high then flawBehind? start (seen + 1) followers rest
    else some { start, width := some seen }

-- The first flaw of some bytes; bytes without one are a text.
def firstFlaw? (bytes : List UInt8) : Option Flaw := flawBehind? 0 0 [] bytes

/-- The text of bytes in which each flaw shows as one replacement character; the bound is no less
than the number of bytes. -/
def mendedWithin : Nat → List UInt8 → List Char
  | 0, _ => []
  | bound + 1, bytes =>
    let text (bytes : List UInt8) : List Char := ((String.fromUTF8? ⟨bytes.toArray⟩).getD "").toList
    match firstFlaw? bytes with
    | none => text bytes
    | some flaw =>
      text (bytes.take flaw.start) ++ '\ufffd' ::
        match flaw.width with
        | some width => mendedWithin bound (bytes.drop (flaw.start + width))
        | none => []

/-- The text of bytes in which each flaw shows as one replacement character. -/
def mended (bytes : List UInt8) : String := String.ofList (mendedWithin (bytes.length + 1) bytes)

end Registry.Text
