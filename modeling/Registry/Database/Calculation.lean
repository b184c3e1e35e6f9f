import Registry.Database.Cell
import Registry.Number.Binary64.Arithmetic
import Registry.Number.Binary64.Shortest
import Registry.Text.LetterCase

/-! # Calculation — operators and functions on cells

A calculation with null is null, and so is one without a value. Integers stay integers as long as a
cell can hold the result. A text counts as the number that it starts with where a number is needed,
and a number as its text where a text is. What is true is the integer 1. -/

namespace Registry.Cell

open Registry.Text

/-! ## Views of a cell -/

-- The text of a cell; null has none.
def text? : Cell → Option String
  | null => none
  | integer n => some (toString n)
  | real x => some x.significantText
  | text s => some s

/-- The number of a cell; of a text it is the one that the text starts with. -/
def number : Cell → Cell
  | text s =>
    match Numeral.read? (s.toList.dropWhile isSpace) with
    | some (n, _) => ofNumeral n
    | none => integer 0
  | cell => cell

def double (cell : Cell) : Binary64 :=
  match cell.number with
  | integer n => doubleOf n
  | real x => x
  | _ => .finite false 0

/-- The integer nearest to a number among those that a cell can hold. -/
def bounded (n : Int) : Int := max (-(2 ^ 63)) (min n (2 ^ 63 - 1))

/-- The integer of a cell: the whole part of a number, and of a text the digits it starts with. -/
def whole : Cell → Int
  | null => 0
  | integer n => n
  | real x => x.truncated?.elim (if x.isNegative then -(2 ^ 63) else 2 ^ 63 - 1) bounded
  | text s =>
    match Numeral.read? (s.toList.dropWhile isSpace) with
    | some (n, _) => bounded n.integer
    | none => 0

def ofBool (b : Bool) : Cell := integer (if b then 1 else 0)

-- Whether a cell counts as true.
def truth? (cell : Cell) : Option Bool :=
  match cell.number with
  | null => none
  | integer n => some (n != 0)
  | real x => some !x.isZero
  | text _ => some false

/-! ## Arithmetic -/

inductive Arithmetic where
  | add
  | sub
  | mul
  | div
  | rem
  deriving DecidableEq, Repr

/-- A calculation with integers, where the result is one that a cell can hold. -/
def Arithmetic.ofIntegers? (op : Arithmetic) (a b : Int) : Option Cell :=
  let kept (n : Int) : Option Cell := if isInteger n then some (integer n) else none
  match op with
  | add => kept (a + b)
  | sub => kept (a - b)
  | mul => kept (a * b)
  | div => if b = 0 then some null else kept (a.tdiv b)
  | rem => if b = 0 then some null else some (integer (a.tmod b))

def Arithmetic.ofDoubles (op : Arithmetic) (a b : Cell) : Cell :=
  match op with
  | add => ofDouble (a.double.add b.double)
  | sub => ofDouble (a.double.add b.double.neg)
  | mul => ofDouble (a.double.mul b.double)
  | div => if b.double.isZero then null else ofDouble (a.double.div b.double)
  | rem => if b.whole = 0 then null else real (doubleOf (a.whole.tmod b.whole))

def Arithmetic.apply (op : Arithmetic) (a b : Cell) : Cell :=
  match a.number, b.number with
  | null, _ | _, null => null
  | integer m, integer n => (op.ofIntegers? m n).getD (op.ofDoubles (integer m) (integer n))
  | a, b => op.ofDoubles a b

def ofBits (n : Nat) : Cell := integer ((n : Int).bmod (2 ^ 64))

def bits (cell : Cell) : Nat := (cell.whole % 2 ^ 64).toNat

/-- A cell shifted to the left by a number of bits; to the right where the number is negative. -/
def shifted (cell : Cell) (places : Int) : Cell :=
  if 0 ≤ places then if places < 64 then ofBits (cell.bits <<< places.toNat) else integer 0
  else integer (cell.whole >>> min (-places).toNat 63)

-- A function of two cells that is null where one of them is.
def both (f : Cell → Cell → Cell) : Cell → Cell → Cell
  | null, _ | _, null => null
  | a, b => f a b

def concat (a b : Cell) : Cell :=
  match a.text?, b.text? with
  | some s, some t => text (s ++ t)
  | _, _ => null

/-! ## Order -/

-- The order of cells: null, then numbers, then texts.
def order (a b : Cell) : Ordering :=
  match a, b with
  | null, null => .eq
  | null, _ => .lt
  | _, null => .gt
  | a, b => (a.compare? b).getD .eq

/-- The largest of some cells, or the smallest; of equals the first. -/
def extreme (wanted : Ordering) : List Cell → Cell
  | [] => null
  | c :: rest => rest.foldl (fun best c => if c.order best = wanted then c else best) c

/-! ## Texts -/

/-- A text matches a pattern, in which a percent sign stands for any characters and a low line for
one. -/
def matchesPattern : List Char → List Char → Bool
  | [], s => s.isEmpty
  | '%' :: p, [] => matchesPattern p []
  | '%' :: p, c :: s => matchesPattern p (c :: s) || matchesPattern ('%' :: p) s
  | _ :: _, [] => false
  | c :: p, d :: s => (c = '_' || c.toLower = d.toLower) && matchesPattern p s
termination_by p s => p.length + s.length

def like (subject pattern : Cell) : Cell :=
  match subject.text?, pattern.text? with
  | some s, some p => ofBool (matchesPattern p.toList s.toList)
  | _, _ => null

/-- A part of a text from a place on, counted from one, or from the end where it is negative; with a
number of characters, which lie in front of the place where it is negative. -/
def part (s : List Char) (place : Int) (count? : Option Int) : List Char :=
  let size : Int := s.length
  let count := count?.elim (size + 1) fun n => (n.natAbs : Int)
  let (start, count) :=
    if place < 0 then
      let start := place + size
      if start < 0 then (0, max 0 (count + start)) else (start, count)
    else if 0 < place then (place - 1, count)
    else (0, max 0 (count - 1))
  let (start, count) :=
    if count?.any (· < 0) then
      let before := start - count
      if before < 0 then (0, count + before) else (before, count)
    else (start, count)
  (s.drop start.toNat).take count.toNat

def replaced (part by_ : List Char) : Nat → List Char → List Char
  | 0, s => s
  | _, [] => []
  | fuel + 1, c :: s =>
    if part.isPrefixOf (c :: s) then by_ ++ replaced part by_ fuel ((c :: s).drop part.length)
    else c :: replaced part by_ fuel s

-- The place of a part in a text, counted from one, or zero.
def place (part : List Char) : List Char → Nat
  | [] => if part.isEmpty then 1 else 0
  | c :: s =>
    if part.isPrefixOf (c :: s) then 1
    else match place part s with
      | 0 => 0
      | n => n + 1

def stripped (left right : Bool) (chars s : List Char) : List Char :=
  let s := if left then s.dropWhile chars.contains else s
  if right then (s.reverse.dropWhile chars.contains).reverse else s

/-! ## Functions -/

def roundedTo (x : Binary64) (places : Nat) : Binary64 :=
  match x.signedUnits? with
  | none => x
  | some units =>
    let scaled := units.natAbs * 10 ^ places
    let n := (2 * scaled + Binary64.unitsPerOne) / (2 * Binary64.unitsPerOne)
    Binary64.ofDecimal x.isNegative n (-places)

def kindWord : Cell → String
  | null => "null"
  | integer _ => "integer"
  | real _ => "real"
  | text _ => "text"

/-- A function with the bounds of the number of its arguments. -/
structure Function where
  name : String
  least : Nat
  most : Option Nat
  value : List Cell → Cell

/-- A function of the text of its first argument that is null where that is. -/
def onText (f : List Char → Cell) : List Cell → Cell
  | c :: _ => c.text?.elim null fun s => f s.toList
  | [] => null

def absolute (c : Cell) : Cell :=
  match c with
  | null => null
  | integer n => if n < 0 then Arithmetic.apply .sub (integer 0) (integer n) else c
  | c => ofDouble (if c.double.isNegative then c.double.neg else c.double)

def rounding : List Cell → Cell
  | [null] | null :: _ | [_, null] => null
  | [c] => real (roundedTo c.double 0)
  | c :: n :: _ => real (roundedTo c.double n.whole.toNat)
  | [] => null

def stripping (left right : Bool) : List Cell → Cell
  | [c, chars] =>
    match c.text?, chars.text? with
    | some s, some chars => text (String.ofList (stripped left right chars.toList s.toList))
    | _, _ => null
  | cells => onText (fun s => text (String.ofList (stripped left right [' '] s))) cells

def cutting : List Cell → Cell
  | [c, place] =>
    if place.isNull then null
    else onText (fun s => text (String.ofList (part s place.whole none))) [c]
  | [c, place, count] =>
    if place.isNull || count.isNull then null
    else onText (fun s => text (String.ofList (part s place.whole (some count.whole)))) [c]
  | _ => null

def replacing : List Cell → Cell
  | [c, old, new] =>
    match c.text?, old.text?, new.text? with
    | some s, some "", some _ => text s
    | some s, some old, some new =>
      text (String.ofList (replaced old.toList new.toList (s.length + 1) s.toList))
    | _, _, _ => null
  | _ => null

def functions : List Function :=
  [⟨"abs", 1, some 1, fun a => absolute (a.headD null)⟩,
   ⟨"coalesce", 2, none, fun a => (a.find? fun c => !c.isNull).getD null⟩,
   ⟨"concat", 1, none, fun a => text (String.join (a.filterMap text?))⟩,
   ⟨"ifnull", 2, some 2, fun a => (a.find? fun c => !c.isNull).getD null⟩,
   ⟨"iif", 3, some 3, fun
      | [c, yes, no] => if c.truth?.getD false then yes else no
      | _ => null⟩,
   ⟨"instr", 2, some 2, fun
      | [s, t] => match s.text?, t.text? with
        | some s, some t => integer (place t.toList s.toList)
        | _, _ => null
      | _ => null⟩,
   ⟨"length", 1, some 1, onText fun s => integer (s.takeWhile (· != '\x00')).length⟩,
   ⟨"likely", 1, some 1, fun a => a.headD null⟩,
   ⟨"lower", 1, some 1, onText fun s => text (String.ofList (s.map Char.toLower))⟩,
   ⟨"ltrim", 1, some 2, stripping true false⟩,
   ⟨"max", 2, none, fun a => if a.any isNull then null else extreme .gt a⟩,
   ⟨"min", 2, none, fun a => if a.any isNull then null else extreme .lt a⟩,
   ⟨"nullif", 2, some 2, fun
      | [a, b] => if a.equals b then null else a
      | _ => null⟩,
   ⟨"replace", 3, some 3, replacing⟩,
   ⟨"round", 1, some 2, rounding⟩,
   ⟨"rtrim", 1, some 2, stripping false true⟩,
   ⟨"sign", 1, some 1, fun
      | [null] | [text _] => null
      | [c] => integer (if c.double.isZero then 0 else if c.double.isNegative then -1 else 1)
      | _ => null⟩,
   ⟨"substr", 2, some 3, cutting⟩,
   ⟨"substring", 2, some 3, cutting⟩,
   ⟨"trim", 1, some 2, stripping true true⟩,
   ⟨"typeof", 1, some 1, fun a => text (a.headD null).kindWord⟩,
   ⟨"unicode", 1, some 1, onText fun s => s.head?.elim null fun c => integer c.toNat⟩,
   ⟨"unlikely", 1, some 1, fun a => a.headD null⟩,
   ⟨"upper", 1, some 1, onText fun s => text (String.ofList (s.map Char.toUpper))⟩]

def function? (name : String) : Option Function := functions.find? fun f => sameName f.name name

/-! ## Functions of several rows -/

/-- A function of the cells that an expression has in several rows. -/
structure Aggregate where
  name : String
  value : List Cell → Cell

def sum (cells : List Cell) : Cell := cells.foldl (Arithmetic.apply .add) (integer 0)

/-- The functions of several rows; rows in which the cell is null do not count. -/
def aggregates : List Aggregate :=
  [⟨"avg", fun a => if a.isEmpty then null
      else Arithmetic.ofDoubles .div (sum a) (integer a.length)⟩,
   ⟨"count", fun a => integer a.length⟩,
   ⟨"group_concat", fun a => if a.isEmpty then null
      else text (",".intercalate (a.filterMap text?))⟩,
   ⟨"max", extreme .gt⟩,
   ⟨"min", extreme .lt⟩,
   ⟨"sum", fun a => if a.isEmpty then null else sum a⟩,
   ⟨"total", fun a => real (sum a).double⟩]

def aggregate? (name : String) : Option Aggregate := aggregates.find? fun f => sameName f.name name

end Registry.Cell
