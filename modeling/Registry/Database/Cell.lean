import Registry.Number.Binary64.Significant
import Registry.Number.Numeral

/-! # Cell — what a row of a table holds in a column

A cell holds an integer, a double, a text or nothing. A column leans to one of these kinds and
brings a cell to it where nothing is lost. Nothing compares with nothing; numbers compare by value
and stand before texts, which compare by their characters. -/

namespace Registry

inductive Cell where
  | null
  | integer (n : Int)
  | real (x : Binary64)
  | text (s : String)
  deriving DecidableEq

/-- The kind of cell that a column leans to. -/
inductive Affinity where
  | integer
  | real
  | text
  -- The column keeps every cell as it comes.
  | any
  deriving DecidableEq, Repr

namespace Affinity

def word : Affinity → String
  | integer => "INTEGER"
  | real => "REAL"
  | text => "TEXT"
  | any => "BLOB"

/-- The type of the values that a column of this leaning is read into, as a message names it. -/
def valueType : Affinity → String
  | integer => "i64"
  | real => "f64"
  | text => "alloc::string::String"
  | any => "alloc::vec::Vec<u8>"

end Affinity

namespace Cell

instance : Inhabited Cell := ⟨null⟩

def isNull : Cell → Bool
  | null => true
  | _ => false

-- The cell of a double; there is no cell for NaN.
def ofDouble : Binary64 → Cell
  | .nan => null
  | x => real x

def kind : Cell → Affinity
  | null => .any
  | integer _ => .integer
  | real _ => .real
  | text _ => .text

def ofKind? (a : Affinity) (c : Cell) : Option Cell := if c.kind = a then some c else none

def ofOption {α : Type} (f : α → Cell) : Option α → Cell
  | none => null
  | some a => f a

-- The integers that a cell can hold.
def isInteger (n : Int) : Bool := -(2 ^ 63) ≤ n && n < 2 ^ 63

/-- The integer that a double is equal to, if a cell can hold it and it is not the largest or the
smallest one. -/
def wholeNumber? (x : Binary64) : Option Int :=
  match x.signedUnits? with
  | some units =>
    let n := units / Binary64.unitsPerOne
    if units % Binary64.unitsPerOne = 0 ∧ -(2 ^ 63) < n ∧ n < 2 ^ 63 - 1 then some n else none
  | none => none

def doubleOf (n : Int) : Binary64 := Binary64.ofRatio (n < 0) n.natAbs 1

/-- The number of a numeral: an integer where a cell can hold it. -/
def ofNumeral (n : Numeral) : Cell :=
  if n.isWhole && isInteger n.integer then integer n.integer else real n.toBinary64

-- The blanks around a number.
def isSpace (c : Char) : Bool := c = ' ' || ('\t' ≤ c && c ≤ '\r')

-- The number that a text denotes, if it denotes one.
def numberOfText? (s : String) : Option Cell :=
  match Numeral.read? (s.toList.dropWhile isSpace) with
  | some (n, rest) => if rest.all isSpace then some (ofNumeral n) else none
  | none => none

-- A number as an integer where it is equal to one.
def narrowed : Cell → Cell
  | real x => (wholeNumber? x).elim (real x) integer
  | cell => cell

end Cell

namespace Affinity

def coerce : Affinity → Cell → Cell
  | .integer, .real x => (Cell.real x).narrowed
  | .integer, .text s => (Cell.numberOfText? s).elim (.text s) Cell.narrowed
  | .real, .integer n => .real (Cell.doubleOf n)
  | .real, .text s => match Cell.numberOfText? s with
    | some (.integer n) => .real (Cell.doubleOf n)
    | some cell => cell
    | none => .text s
  | .text, .integer n => .text (toString n)
  | .text, .real x => .text x.significantText
  | _, cell => cell

theorem coerce_null (a : Affinity) : a.coerce .null = .null := by cases a <;> rfl

theorem coerce_integer (n : Int) : Affinity.integer.coerce (.integer n) = .integer n := rfl

theorem coerce_real (x : Binary64) : Affinity.real.coerce (.real x) = .real x := rfl

theorem coerce_text (s : String) : Affinity.text.coerce (.text s) = .text s := rfl

end Affinity

namespace Cell

/-! ## Order -/

/-- A number in smallest steps; the infinities lie beyond every other number. -/
def units : Cell → Int
  | integer n => n * Binary64.unitsPerOne
  | real (.finite negative magnitude) => if negative then -(magnitude : Int) else magnitude
  | real (.infinite negative) =>
    if negative then -(4 * Binary64.overflowUnits : Int) else 4 * Binary64.overflowUnits
  | _ => 0

/-- How a cell stands to another; there is no answer where one of them is null. -/
def compare? : Cell → Cell → Option Ordering
  | null, _ | _, null => none
  | integer a, integer b => some (compare a b)
  | text a, text b => some (compare a b)
  | text _, _ => some .gt
  | _, text _ => some .lt
  | a, b => some (compare a.units b.units)

-- The two cells hold equal values; null equals nothing.
def equals (a b : Cell) : Bool := a.compare? b == some .eq

def atMost (a b : Cell) : Bool := a.compare? b == some .lt || a.compare? b == some .eq

def below (a b : Cell) : Bool := a.compare? b == some .lt

theorem atMost_integer (a b : Int) : (integer a).atMost (integer b) = decide (a ≤ b) := by
  simp only [atMost, compare?, Option.some_beq_some]
  rcases Int.lt_trichotomy a b with h | h | h
  · simp [Int.compare_eq_lt.2 h, Int.le_of_lt h]
  · simp [h]
  · simp [Int.compare_eq_gt.2 h, Int.not_le.2 h]

theorem below_integer (a b : Int) : (integer a).below (integer b) = decide (a < b) := by
  simp only [below, compare?, Option.some_beq_some]
  rcases Int.lt_trichotomy a b with h | h | h
  · simp [Int.compare_eq_lt.2 h, h]
  · simp [h]
  · simp [Int.compare_eq_gt.2 h, Int.not_lt.2 (Int.le_of_lt h)]

theorem equals_integer (a b : Int) : (integer a).equals (integer b) = decide (a = b) := by
  simp only [equals, compare?, Option.some_beq_some]
  rcases Int.lt_trichotomy a b with h | h | h
  · simp [Int.compare_eq_lt.2 h, Int.ne_of_lt h]
  · simp [h]
  · simp [Int.compare_eq_gt.2 h, (Int.ne_of_lt h).symm]

theorem equals_text (a b : String) : (text a).equals (text b) = decide (a = b) := by
  rw [Bool.eq_iff_iff]
  simp [equals, compare?]

theorem equals_null_left (c : Cell) : null.equals c = false := by cases c <;> rfl

end Cell

end Registry
