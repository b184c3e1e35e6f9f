import Registry.Database.Basic
import Registry.Database.Query.Operator

/-! # Query — expressions and the rows that they are worked out in

A query takes rows from its origins, combines each with each, keeps those that pass a test and makes
a row of its answer from each of them, or from each group of them. A name in an expression stands
for a column of the innermost query that has one of that name. -/

namespace Registry

open Registry.Text

/-- A table as a statement names it, perhaps within a database. -/
structure TableName where
  database : Option String
  name : String
  deriving DecidableEq

namespace TableName

def written (n : TableName) : String := n.database.elim n.name fun d => d ++ "." ++ n.name

def mainDatabase : String := "main"

-- The name can be that of a table that is there.
def isMain (n : TableName) : Bool := n.database.all (sameName mainDatabase)

end TableName

def Database.named (db : Database) (n : TableName) : Except DatabaseFault Table :=
  match if n.isMain then db.table? n.name else none with
  | some t => .ok t
  | none => .error (.noTable n.written)

/-! ## Expressions and queries -/

/-- What a query makes of each row. -/
inductive Item (ε : Type) where
  -- Every column, or every column of one origin.
  | all (origin : Option String)
  | value (e : ε) (name : Option String)

/-- Where a query takes rows from. -/
inductive Origin (κ : Type) where
  | table (table : TableName) (name : Option String)
  | answer (q : κ) (name : Option String)

/-- How the rows of two answers are put together. -/
inductive Combination where
  | append
  | union
  | intersect
  | except
  deriving DecidableEq, Repr

def Combination.word : Combination → String
  | append => "UNION ALL"
  | union => "UNION"
  | intersect => "INTERSECT"
  | except => "EXCEPT"

mutual

inductive Expression where
  | constant (cell : Cell)
  -- A name; one in double quotes that stands for nothing is a text.
  | name (origin : Option TableName) (name : String) (quoted : Bool)
  | signed (sign : Sign) (e : Expression)
  | joined (op : Operator) (a b : Expression)
  | cast (type : String) (e : Expression)
  | choice (condition yes no : Expression)
  | among (e : Expression) (choices : List Expression)
  | call (function : String) (distinct : Bool) (arguments : List Expression)
  -- A function of the rows themselves.
  | callOnRows (function : String)
  -- The first cell of an answer.
  | answer (q : Query)
  | amongAnswers (e : Expression) (q : Query)
  | hasAnswer (q : Query)

inductive Query where
  | values (rows : List (List Expression))
  | select (distinct : Bool) (items : List (Item Expression)) (origins : List (Origin Query))
    (test : Option Expression) (groups : List Expression) (having : Option Expression)
  | combined (how : Combination) (a b : Query)
  -- An answer in order, each key with its direction, from a row on and up to a number of rows.
  | ordered (q : Query) (keys : List (Expression × Bool)) (limit offset : Option Expression)

end

instance : Inhabited Expression := ⟨.constant .null⟩

instance : Inhabited Query := ⟨.values []⟩

namespace Expression

def and? : Option Expression → Option Expression → Option Expression
  | some a, some b => some (.joined .and a b)
  | a, b => a.or b

def isAggregate (function : String) (count : Nat) : Bool :=
  (Cell.aggregate? function).isSome && (count ≤ 1 || (Cell.function? function).isNone)

/-- The first call of a function of several rows in an expression. -/
def aggregate? : Nat → Expression → Option String
  | 0, _ => none
  | n + 1, e =>
    match e with
    | .call f _ args =>
      if isAggregate f args.length then some f else args.findSome? (aggregate? n)
    | .callOnRows f => some f
    | .signed _ a | .cast _ a | .amongAnswers a _ => aggregate? n a
    | .joined _ a b => [a, b].findSome? (aggregate? n)
    | .choice a b c => [a, b, c].findSome? (aggregate? n)
    | .among a choices => (a :: choices).findSome? (aggregate? n)
    | _ => none

def usesGroup (n : Nat) (e : Expression) : Bool := (e.aggregate? n).isSome

end Expression

def Item.value? {ε : Type} : Item ε → Option ε
  | all _ => none
  | value e _ => some e

/-! ## Rows with names -/

/-- A row of an origin, under the name that the origin has in the query. -/
structure NamedRow where
  name : String
  columns : List String
  -- The number of the row, where rows have numbers.
  id : Option Int
  cells : List Operand
  deriving DecidableEq

namespace NamedRow

def column? (r : NamedRow) (name : String) : Option Operand :=
  (r.columns.findIdx? fun c => sameName c name).map fun place => r.cells.getD place default

def number? (r : NamedRow) (name : String) : Option Operand :=
  if Table.numberNames.any (sameName name) then
    r.id.map fun id => ⟨some .integer, .integer id⟩
  else none

end NamedRow

abbrev Frame := List NamedRow

/-- What a name stands for. -/
inductive Meaning where
  | nothing
  | one (o : Operand)
  | several
  deriving DecidableEq

namespace Frame

def ofOrigin (f : Frame) (origin : Option TableName) : List NamedRow :=
  f.filter fun r => origin.all fun o => sameName r.name o.name && o.isMain

def meaning (f : Frame) (origin : Option TableName) (name : String) : Meaning :=
  let rows := f.ofOrigin origin
  match rows.filterMap fun r => r.column? name with
  | [o] => .one o
  | _ :: _ => .several
  | [] =>
    match rows.filterMap fun r => r.number? name with
    | [o] => .one o
    | _ :: _ => .several
    | [] => .nothing

end Frame

/-- What an expression is worked out in. -/
structure Surroundings where
  database : Database
  -- The rows of the queries around the expression, the innermost first.
  frames : List Frame
  -- The rows of the group that the expression speaks of.
  group : List Frame
  -- The expressions that have names in the answer.
  aliases : List (String × Expression)

namespace Surroundings

def bare (db : Database) : Surroundings := ⟨db, [], [], []⟩

def within (s : Surroundings) (f : Frame) (aliases : List (String × Expression)) : Surroundings :=
  { s with frames := f :: s.frames, group := [], aliases }

-- What a name stands for in the innermost query that knows it.
def meaning (s : Surroundings) (origin : Option TableName) (name : String) : Meaning :=
  (s.frames.map fun f => f.meaning origin name).find? (· ≠ .nothing) |>.getD .nothing

def alias? (s : Surroundings) (origin : Option TableName) (name : String) : Option Expression :=
  if origin.isSome then none
  else (s.aliases.find? fun a => sameName a.1 name).map (·.2)

-- The expressions with the names that they have in the answer.
def aliasesOf (items : List (Item Expression)) : List (String × Expression) :=
  items.filterMap fun
    | .value e (some name) => some (name, e)
    | _ => none

/-- What a name stands for that no row has: a text in double quotes, or a truth. -/
def unbound? (origin : Option TableName) (name : String) (quoted : Bool) : Option Cell :=
  if origin.isSome then none
  else if quoted then some (.text name)
  else Table.constant? name

end Surroundings

/-- Rows that a query takes from an origin. -/
structure Relation where
  name : String
  columns : List String
  -- The rows have numbers.
  isNumbered : Bool
  rows : List (Int × List Operand)

namespace Relation

def ofTable (t : Table) (name : String) : Relation where
  name := name
  columns := t.names
  isNumbered := true
  rows := t.rows.entries.map fun e =>
    (e.1, t.names.map fun name => ⟨t.affinity name, t.read e.1 e.2 name⟩)

def named (r : Relation) (row : Int × List Operand) : NamedRow where
  name := r.name
  columns := r.columns
  id := if r.isNumbered then some row.1 else none
  cells := row.2

-- A row in which every cell is null, to look up names in.
def shape (r : Relation) : NamedRow := r.named (0, [])

-- Each row of some relations with each row of the others.
def frames : List Relation → List Frame
  | [] => [[]]
  | r :: rest => r.rows.flatMap fun row => (frames rest).map fun f => r.named row :: f

end Relation

end Registry
