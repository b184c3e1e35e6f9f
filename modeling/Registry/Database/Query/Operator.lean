import Registry.Database.Calculation

/-! # Operator — what joins two operands

An operand is a cell that may lean to a kind, because it comes from a column or was made so. Before
two operands are compared, the one that leans to numbers makes a number of the other where it is
one, and one that leans to texts makes a text of a number that leans to nothing. -/

namespace Registry

structure Operand where
  affinity : Option Affinity
  cell : Cell
  deriving DecidableEq

namespace Operand

instance : Inhabited Operand := ⟨⟨none, .null⟩⟩

def plain (cell : Cell) : Operand := ⟨none, cell⟩

def isNumeric (a : Operand) : Bool := a.affinity == some .integer || a.affinity == some .real

/-- The kind that two operands are brought to before they are compared. -/
def common (a b : Operand) : Affinity :=
  if a.isNumeric || b.isNumeric then .integer
  else
    match a.affinity, b.affinity with
    | some .text, none | none, some .text => .text
    | _, _ => .any

/-- A cell brought to a kind to compare it: numbers stay as they are where numbers are wanted. -/
def broughtTo (kind : Affinity) (cell : Cell) : Cell :=
  match kind, cell with
  | .text, .integer _ | .text, .real _ | .integer, .text _ => kind.coerce cell
  | _, cell => cell

def compare? (a b : Operand) : Option Ordering :=
  let kind := a.common b
  (broughtTo kind a.cell).compare? (broughtTo kind b.cell)

-- Two operands have equal values, where null equals null.
def same (a b : Operand) : Bool :=
  (a.cell.isNull && b.cell.isNull) || a.compare? b == some .eq

end Operand

inductive Operator where
  | or
  | and
  | is
  | isNot
  | equal
  | unequal
  | below
  | atMost
  | above
  | atLeast
  | calculate (a : Cell.Arithmetic)
  | bitAnd
  | bitOr
  | shiftLeft
  | shiftRight
  | concat
  | like
  deriving DecidableEq, Repr

namespace Operator

def ofTruth (b : Option Bool) : Cell := b.elim .null Cell.ofBool

-- Both of two truths hold; one that does not hold settles it.
def both : Option Bool → Option Bool → Option Bool
  | some false, _ | _, some false => some false
  | some true, some true => some true
  | _, _ => none

-- One of two truths holds; one that does settles it.
def either : Option Bool → Option Bool → Option Bool
  | some true, _ | _, some true => some true
  | some false, some false => some false
  | _, _ => none

def compared (a b : Operand) (holds : Ordering → Bool) : Cell :=
  ofTruth ((a.compare? b).map holds)

def apply (op : Operator) (a b : Operand) : Cell :=
  match op with
  | or => ofTruth (either a.cell.truth? b.cell.truth?)
  | and => ofTruth (both a.cell.truth? b.cell.truth?)
  | is => Cell.ofBool (a.same b)
  | isNot => Cell.ofBool !(a.same b)
  | equal => compared a b (· == .eq)
  | unequal => compared a b (· != .eq)
  | below => compared a b (· == .lt)
  | atMost => compared a b (· != .gt)
  | above => compared a b (· == .gt)
  | atLeast => compared a b (· != .lt)
  | calculate op => op.apply a.cell b.cell
  | bitAnd => Cell.both (fun a b => Cell.ofBits (a.bits &&& b.bits)) a.cell b.cell
  | bitOr => Cell.both (fun a b => Cell.ofBits (a.bits ||| b.bits)) a.cell b.cell
  | shiftLeft => Cell.both (fun a b => a.shifted b.whole) a.cell b.cell
  | shiftRight => Cell.both (fun a b => a.shifted (-b.whole)) a.cell b.cell
  | concat => a.cell.concat b.cell
  | like => a.cell.like b.cell

end Operator

/-- What stands in front of one operand. -/
inductive Sign where
  | not
  | negative
  | positive
  | complement
  deriving DecidableEq, Repr

def Sign.apply (sign : Sign) (cell : Cell) : Cell :=
  match sign with
  | not => Operator.ofTruth (cell.truth?.map Bool.not)
  | negative => Cell.Arithmetic.apply .sub (.integer 0) cell
  | positive => cell
  | complement => if cell.isNull then .null else .integer (-cell.whole - 1)

end Registry
