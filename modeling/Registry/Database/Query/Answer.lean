import Registry.Database.Query.Basic

/-! # Answer — the rows that a query is answered with

Expressions and queries hold each other, so that their values are defined together. Each step into
a part uses up one unit of a depth that bounds how deep a statement may be nested. -/

namespace Registry.Query

open Registry.Text

/-! ## Kinds of types -/

/-- The kind that a word for a type stands for: by what the word contains. -/
def affinityOfType (type : String) : Affinity :=
  let upper := String.ofList (type.toList.map Char.toUpper)
  let has (part : String) : Bool := (upper.splitOn part).length > 1
  if has "INT" then .integer
  else if has "CHAR" || has "CLOB" || has "TEXT" then .text
  else if has "BLOB" || type = "" then .any
  else if has "REAL" || has "FLOA" || has "DOUB" then .real
  else .integer

-- A cell made one of a type, whether something is lost or not.
def castTo (type : String) (cell : Cell) : Operand :=
  let kind := affinityOfType type
  let isWhole := ((String.ofList (type.toList.map Char.toUpper)).splitOn "INT").length > 1
  ⟨some kind,
    match kind, cell with
    | _, .null => .null
    | .integer, cell => if isWhole then .integer cell.whole else cell.number
    | .real, cell => .ofDouble cell.double
    | _, cell => cell.text?.elim .null .text⟩

/-! ## Rows of an answer -/

/-- A row of an answer, and what its cells were worked out in. -/
structure Row where
  around : Surroundings
  cells : List Operand

def sameCells (a b : List Operand) : Bool :=
  a.length == b.length && (a.zip b).all fun e => e.1.same e.2

def withoutRepeats (rows : List Row) : List Row :=
  (rows.foldl (fun kept r => if kept.any (sameCells ·.cells r.cells) then kept else r :: kept)
    []).reverse

def withoutEquals (operands : List Operand) : List Operand :=
  (operands.foldl (fun kept o => if kept.any o.same then kept else o :: kept) []).reverse

/-- A row goes before another one, by their keys in turn; of each key it is said whether the larger
one goes first. -/
def goesBefore : List (Cell × Bool) → List (Cell × Bool) → Bool
  | (a, descending) :: rest, (b, _) :: others =>
    match a.order b with
    | .eq => goesBefore rest others
    | .lt => !descending
    | .gt => descending
  | _, _ => true

def inOrder (rows : List Row) : List Row :=
  let keys (r : Row) : List (Cell × Bool) := r.cells.map fun o => (o.cell, false)
  rows.mergeSort fun a b => goesBefore (keys a) (keys b)

def combine (how : Combination) (a b : List Row) : List Row :=
  let isIn (rows : List Row) (r : Row) : Bool := rows.any (sameCells ·.cells r.cells)
  match how with
  | .append => a ++ b
  | .union => inOrder (withoutRepeats (a ++ b))
  | .intersect => inOrder (withoutRepeats (a.filter (isIn b)))
  | .except => inOrder (withoutRepeats (a.filter fun r => !isIn b r))

/-- Rows from a row on and up to a number of rows; a number below zero sets no limit. -/
def limited {α : Type} (limit offset : Option Cell) (rows : List α) : List α :=
  let rows := rows.drop (offset.elim 0 fun c => c.whole.toNat)
  match limit with
  | some c => if c.whole < 0 then rows else rows.take c.whole.toNat
  | none => rows

/-- Groups of the frames that have the same keys, in the order of the keys. -/
def groupsOf (keyed : List (List Cell × Frame)) : List (List Frame) :=
  let keys (cells : List Cell) : List (Cell × Bool) := cells.map fun c => (c, false)
  let sorted := keyed.mergeSort fun a b => goesBefore (keys a.1) (keys b.1)
  (sorted.splitBy fun a b => (a.1.zip b.1).all fun e => e.1.order e.2 == .eq).map fun g =>
    g.map (·.2)

/-- An operand is one of some choices; it may be unknown where one of them is null. -/
def isAmong (o : Operand) (choices : List Operand) : Cell :=
  choices.foldl (fun found c =>
    Operator.ofTruth (Operator.either found.truth? ((o.compare? c).map (· == .eq)))) (Cell.ofBool false)

/-- The number of the column of the answer that a key stands for, where it is no larger than such a
number may be; another key stands for itself. -/
def place? : Expression → Option Int
  | .constant (.integer n) => if n.natAbs < 2 ^ 31 then some n else none
  | _ => none

/-- The cell of an answer that a key stands for, if it stands for one. -/
def keyed (cells : List Operand) (key : Expression) : Option Operand :=
  (place? key).map fun n => cells.getD (n - 1).toNat default

/-- A name for a column of an answer that is made of something else. -/
def unnamed : String := ""

/-! ## Values -/

mutual

def value : Nat → Surroundings → Expression → Operand
  | 0, _, _ => default
  | n + 1, s, e =>
    match e with
    | .constant cell => .plain cell
    | .name origin name quoted =>
      match s.meaning origin name, s.alias? origin name with
      | .one o, _ => o
      | _, some e => value n { s with aliases := [] } e
      | _, none => .plain ((Surroundings.unbound? origin name quoted).getD .null)
    | .signed sign a => .plain (sign.apply (value n s a).cell)
    | .joined op a b => .plain (op.apply (value n s a) (value n s b))
    | .cast type a => castTo type (value n s a).cell
    | .choice condition yes no =>
      .plain (value n s (if (value n s condition).cell.truth? = some true then yes else no)).cell
    | .among a choices =>
      .plain (isAmong (value n s a) (choices.map fun c => .plain (value n s c).cell))
    | .call function distinct arguments =>
      if Expression.isAggregate function arguments.length then
        let inRow (f : Frame) (a : Expression) : Operand :=
          value n { s with frames := f :: s.frames.tail, group := [] } a
        let operands := arguments.head?.elim (s.group.map fun _ => .plain (.integer 0)) fun a =>
          (s.group.map fun f => inRow f a).filter fun o => !o.cell.isNull
        let operands := if distinct then withoutEquals operands else operands
        .plain ((Cell.aggregate? function).elim .null fun f => f.value (operands.map (·.cell)))
      else
        .plain ((Cell.function? function).elim .null fun f =>
          f.value (arguments.map fun a => (value n s a).cell))
    | .callOnRows _ => .plain (.integer s.group.length)
    | .answer q => (((rows n s q).head?.bind fun r => r.cells.head?).getD default)
    | .amongAnswers a q =>
      .plain (isAmong (value n s a) ((rows n s q).map fun r => r.cells.headD default))
    | .hasAnswer q => .plain (Cell.ofBool !(rows n s q).isEmpty)

def rows : Nat → Surroundings → Query → List Row
  | 0, _, _ => []
  | n + 1, s, q =>
    match q with
    | .values lists => lists.map fun es => ⟨s, es.map fun e => .plain (value n s e).cell⟩
    | .select distinct items origins test groups having =>
      let frames := Relation.frames (origins.map fun o => relation n s o)
      let aliases := Surroundings.aliasesOf items
      let holds (s : Surroundings) (e : Expression) : Bool :=
        (value n s e).cell.truth? = some true
      let kept := frames.filter fun f => test.all (holds (s.within f aliases))
      let isGrouped := !groups.isEmpty ||
        (items.filterMap Item.value? ++ having.toList).any (Expression.usesGroup n)
      let ofGroup (g : List Frame) : Surroundings :=
        let shapes := (origins.map fun o => relation n s o).map Relation.shape
        { s.within (g.headD shapes) aliases with group := g }
      let places :=
        if !isGrouped then kept.map fun f => s.within f aliases
        else if groups.isEmpty then [ofGroup kept]
        else
          let key (f : Frame) (e : Expression) : Cell :=
            (keyed (cellsOf n (s.within f aliases) items) e).elim
              (value n (s.within f aliases) e).cell (·.cell)
          (groupsOf (kept.map fun f => (groups.map (key f), f))).map ofGroup
      let made := (places.filter fun p => having.all (holds p)).map fun p =>
        ⟨p, cellsOf n p items⟩
      if distinct then withoutRepeats made else made
    | .combined how a b =>
      let columns := columns n s a
      (combine how (rows n s a) (rows n s b)).map fun r =>
        { r with around := s.within [⟨unnamed, columns, none, r.cells⟩] [] }
    | .ordered q keys limit offset =>
      let key (r : Row) (k : Expression × Bool) : Cell × Bool :=
        ((keyed r.cells k.1).elim (value n r.around k.1).cell (·.cell), k.2)
      let withKeys := (rows n s q).map fun r => (keys.map (key r), r)
      let sorted := (withKeys.mergeSort fun a b => goesBefore a.1 b.1).map (·.2)
      limited (limit.map fun e => (value n s e).cell) (offset.map fun e => (value n s e).cell)
        sorted

def cellsOf : Nat → Surroundings → List (Item Expression) → List Operand
  | 0, _, _ => []
  | n + 1, s, items =>
    items.flatMap fun
      | .all origin =>
        ((s.frames.headD []).ofOrigin (origin.map (⟨none, ·⟩))).flatMap fun r =>
          r.columns.map fun c => (r.column? c).getD default
      | .value e _ => [value n s e]

def relation : Nat → Surroundings → Origin Query → Relation
  | 0, _, _ => ⟨unnamed, [], false, []⟩
  | n + 1, s, o =>
    match o with
    | .table table name =>
      match s.database.named table with
      | .ok t => .ofTable t (name.getD table.name)
      | .error _ => ⟨name.getD table.name, [], false, []⟩
    | .answer q name =>
      ⟨name.getD unnamed, columns n s q, false, (rows n s q).map fun r => (0, r.cells)⟩

def columns : Nat → Surroundings → Query → List String
  | 0, _, _ => []
  | n + 1, s, q =>
    match q with
    | .values lists => (lists.headD []).map fun _ => unnamed
    | .select _ items origins _ _ _ =>
      let frame : Frame := (origins.map fun o => relation n s o).map Relation.shape
      items.flatMap fun
        | .all origin => (frame.ofOrigin (origin.map (⟨none, ·⟩))).flatMap (·.columns)
        | .value _ (some name) => [name]
        | .value (.name _ name _) none => [name]
        | .value _ none => [unnamed]
    | .combined _ a _ => columns n s a
    | .ordered q _ _ _ => columns n s q

end

end Registry.Query
