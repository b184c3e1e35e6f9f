import Registry.Database.Fault
import Registry.Database.Word
import Registry.SortedMap

/-! # Table — columns and numbered rows

A table has columns and rows. Each row has a number, given when it is added: one more than the
largest number in the table and, where the table keeps count, than any that it has ever given. The
number may show in a column of its own, and it always shows under some names that no column has to
have. Names of columns are compared without regard to the case of ASCII letters, and no two columns
share a name. -/

namespace Registry

open Registry.Text

/-! ## Rows -/

abbrev Cells := List (String × Cell)

namespace Cells

/-- The cell in a column; a column that is not there reads as null. -/
def read (cells : Cells) (name : String) : Cell :=
  match cells.find? fun e => sameName e.1 name with
  | some e => e.2
  | none => .null

-- The last value that a list of assignments has for a column.
def assigned? (assignments : Cells) (name : String) : Option Cell :=
  (assignments.reverse.find? fun e => sameName e.1 name).map (·.2)

end Cells

/-! ## Tables -/

/-- A column whose values are those of a column of another table. -/
structure Parent where
  table : String
  column : String
  -- A row may come before the one it refers to, until everything is closed for good.
  deferred : Bool
  deriving DecidableEq

structure Column where
  name : String
  affinity : Affinity
  -- The column never holds null.
  required : Bool
  -- What a new row has in this column if nothing is said.
  initial : Cell := .null
  -- No two rows have the same value in the column, for a cause.
  uniqueness : Option Uniqueness := none
  parent : Option Parent := none
  deriving DecidableEq

/-- What a new table is to be. -/
structure TableDesign where
  name : String
  -- The table gives no number twice.
  keepsCount : Bool := true
  -- The column that shows the number of a row.
  idColumn : Option String
  -- How many of the other columns stand before that one.
  idPlace : Nat := 0
  columns : List Column
  deriving DecidableEq

def TableDesign.names (d : TableDesign) : List String :=
  let others := d.columns.map Column.name
  others.take d.idPlace ++ d.idColumn.toList ++ others.drop d.idPlace

def firstRepeated? (earlier : List String) : List String → Option String
  | [] => none
  | name :: rest =>
    if earlier.contains (foldAscii name) then some name
    else firstRepeated? (earlier ++ [foldAscii name]) rest

theorem nodup_of_firstRepeated?_eq_none {names earlier : List String}
    (h : firstRepeated? earlier names = none) :
    (names.map foldAscii).Nodup ∧ ∀ name ∈ names, foldAscii name ∉ earlier := by
  induction names generalizing earlier with
  | nil => simp
  | cons name rest ih =>
    unfold firstRepeated? at h
    split at h
    · cases h
    · rename_i hnew
      obtain ⟨hnodup, hdisjoint⟩ := ih h
      simp only [List.mem_append, List.mem_singleton, not_or] at hdisjoint
      constructor
      · simp only [List.map_cons, List.nodup_cons, List.mem_map, not_exists, not_and]
        exact ⟨fun n hn he => (hdisjoint n hn).2 he, hnodup⟩
      · simp only [List.mem_cons, forall_eq_or_imp]
        exact ⟨by simpa using hnew, fun n hn => (hdisjoint n hn).1⟩

structure Table extends TableDesign where
  rows : SortedMap Int Cells
  -- The largest number that was ever given.
  lastId : Int
  names_nodup : (toTableDesign.names.map foldAscii).Nodup
  deriving DecidableEq

namespace Table

/-- A table without rows; of two columns with one name the later one is refused. -/
def create? (d : TableDesign) : Except DatabaseFault Table :=
  match h : firstRepeated? [] d.names with
  | some repeated => .error (.repeatedColumn repeated)
  | none =>
    .ok { d with
          rows := .empty
          lastId := 0
          names_nodup := (nodup_of_firstRepeated?_eq_none h).1 }

/-! ## Names -/

/-- What a name stands for in the rows of a table. -/
inductive Source where
  | number
  | column (c : Column)
  deriving DecidableEq

/-- The names under which every table shows the numbers of its rows. -/
def numberNames : List String := ["rowid", "oid", "_rowid_"]

-- The cell of a name that stands for the same everywhere.
def constant? (name : String) : Option Cell :=
  if sameName name "TRUE" then some (.integer 1)
  else if sameName name "FALSE" then some (.integer 0)
  else none

def column? (t : Table) (name : String) : Option Column :=
  t.columns.find? fun c => sameName c.name name

-- The name is that of the column with the numbers of the rows.
def isId (t : Table) (name : String) : Bool := t.idColumn.any fun c => sameName c name

/-- What a name stands for; a column goes before the names for the numbers. -/
def source? (t : Table) (name : String) : Option Source :=
  match t.column? name with
  | some c => some (.column c)
  | none => if t.isId name || numberNames.any (sameName name) then some .number else none

-- The first of some names that stand for nothing in a row.
def lacking? (t : Table) (names : List String) : Option String :=
  names.find? fun name => (t.source? name).isNone

-- The first of some names that have no value at all.
def unknown? (t : Table) (names : List String) : Option String :=
  names.find? fun name =>
    senseOf name = .column && (t.source? name).isNone && (constant? name).isNone

/-- The fault of an index on some names, for the first that it cannot be on: it takes no reading of the
clock, and no number of a row but the one in a column. -/
def indexFault? (t : Table) (names : List String) : Option DatabaseFault :=
  names.findSome? fun name =>
    if senseOf name ≠ .column then some .indexOnClock
    else if (t.column? name).isNone && !t.isId name && (constant? name).isNone then
      some (.noColumn name)
    else none

/-- The column by which the rows of another table refer to those of this one: a given one, or else
the one that the rows are known by. No value may repeat in it. -/
def keyName? (t : Table) (name : String) : Option String :=
  if name = "" then
    t.idColumn.or ((t.columns.find? fun c => c.uniqueness = some .primary).map Column.name)
  else if t.isId name || (t.column? name).any (·.uniqueness.isSome) then some name
  else none

def resultName (t : Table) (name : String) : String :=
  match t.source? name with
  | some (.column c) => c.name
  | some .number => t.idColumn.getD "rowid"
  | none => name

/-! ## Rows -/

def read (t : Table) (id : Int) (cells : Cells) (name : String) : Cell :=
  match t.source? name with
  | some (.column c) => cells.read c.name
  | some .number => .integer id
  | none => (constant? name).getD .null

-- The kind that the column of a name leans to.
def affinity (t : Table) (name : String) : Option Affinity :=
  match t.source? name with
  | some (.column c) => some c.affinity
  | some .number => some .integer
  | none => none

def coerce (t : Table) (name : String) (cell : Cell) : Cell :=
  match t.source? name with
  | some (.column c) => c.affinity.coerce cell
  | some .number => Affinity.integer.coerce cell
  | none => cell

/-- The fault of a row without a value that a column requires, for the first such column. -/
def missingValue? (t : Table) (cells : Cells) : Option DatabaseFault :=
  (t.columns.find? fun c => c.required && (cells.read c.name).isNull).map fun c =>
    .missingValue t.name c.name

/-- A row has the value of another row in a column where no value repeats. -/
def repeats (c : Column) (cells other : Cells) : Bool :=
  c.uniqueness.isSome && (cells.read c.name).equals (other.read c.name)

/-- The fault of a row that has the number of another row, or a value that may not repeat. -/
def repeated? (t : Table) (id : Int) (cells : Cells) : Option DatabaseFault :=
  if t.rows.contains id then
    some (match t.idColumn with
      | some name => .repeatedValue t.name name .primary
      | none => .repeatedValue t.name "rowid" .number)
  else
    (t.columns.find? fun c => t.rows.entries.any fun e => repeats c cells e.2).map fun c =>
      .repeatedValue t.name c.name (c.uniqueness.getD .other)

/-! ## Changing rows -/

def newCell (values : Cells) (c : Column) : Cell :=
  match values.find? fun e => sameName e.1 c.name with
  | some e => c.affinity.coerce e.2
  | none => c.initial

-- The integer in a cell that is to be the number of a row.
def number? (cell : Cell) : Except DatabaseFault Int :=
  match Affinity.integer.coerce cell with
  | .integer id => .ok id
  | _ => .error .notNumber

def numberCell? (t : Table) (values : Cells) : Option Cell :=
  (values.reverse.find? fun e => t.source? e.1 = some .number).map (·.2)

-- The number of a new row for which none is given.
def nextId (t : Table) : Int :=
  let behindLast := t.rows.lastKey?.elim 1 (· + 1)
  if t.keepsCount then max behindLast (t.lastId + 1) else behindLast

-- The number of a new row: the given one, or the next.
def newId (t : Table) (values : Cells) : Except DatabaseFault Int :=
  match (t.numberCell? values).getD .null with
  | .null => if Cell.isInteger t.nextId then .ok t.nextId else .error .full
  | cell => number? cell

def insert (t : Table) (values : Cells) : Except DatabaseFault (Int × Table) :=
  let cells := t.columns.map fun c => (c.name, newCell values c)
  match t.newId values with
  | .error fault => .error fault
  | .ok id =>
    match t.missingValue? cells, t.repeated? id cells with
    | some fault, _ | none, some fault => .error fault
    | none, none => .ok (id, { t with rows := t.rows.insert id cells, lastId := max id t.lastId })

def assign (t : Table) (assignments cells : Cells) : Cells :=
  cells.map fun e => (e.1,
    match Cells.assigned? assignments e.1 with
    | some cell => t.coerce e.1 cell
    | none => e.2)

def assignId (t : Table) (assignments : Cells) (id : Int) : Except DatabaseFault Int :=
  match t.numberCell? assignments with
  | some cell => number? cell
  | none => .ok id

/-- The table with values set in some rows, one row after the other. -/
def setAll (t : Table) (names : List String) (values : Int → Cells → List Cell) :
    List (Int × Cells) → Except DatabaseFault Table
  | [] => .ok t
  | (id, cells) :: rest =>
    let assignments := names.zip (values id cells)
    match t.assignId assignments id with
    | .error fault => .error fault
    | .ok new =>
      let cells := t.assign assignments cells
      let others := { t with rows := t.rows.erase id }
      match others.missingValue? cells, others.repeated? new cells with
      | some fault, _ | none, some fault => .error fault
      | none, none =>
        { others with rows := others.rows.insert new cells }.setAll names values rest

/-- A value for one of some names may be refused because of another row. -/
def concernsOthers (t : Table) (names : List String) : Bool :=
  names.any fun name =>
    match t.source? name with
    | some (.column c) => c.uniqueness.isSome
    | some .number => true
    | none => false

/-- The table with values for some names set in the rows that pass a test, and the number of these
rows. -/
def update (t : Table) (names : List String) (values : Int → Cells → List Cell)
    (test : Int → Cells → Bool) : Except DatabaseFault (Nat × Table) :=
  let touched := t.rows.entries.filter fun e => test e.1 e.2
  if t.concernsOthers names then
    (t.setAll names values touched).map fun t => (touched.length, t)
  else
    let changed (id : Int) (cells : Cells) : Cells := t.assign (names.zip (values id cells)) cells
    match touched.findSome? fun e => t.missingValue? (changed e.1 e.2) with
    | some fault => .error fault
    | none =>
      .ok (touched.length,
        { t with rows := t.rows.map fun id cells =>
            if test id cells then changed id cells else cells })

/-- The table without the rows that pass a test, and the number of these rows. -/
def delete (t : Table) (test : Int → Cells → Bool) : Nat × Table :=
  let kept := t.rows.filter fun id cells => !test id cells
  (t.rows.size - kept.size, { t with rows := kept })

end Table

/-! ## Conditions -/

/-- What a statement asks of a row. -/
inductive Condition where
  | isNull (column : String)
  | equals (column : String) (cell : Cell)
  | atMost (column : String) (cell : Cell)
  -- The column is null or above the cell.
  | nullOrAbove (column : String) (cell : Cell)
  -- The column is null or not below the cell.
  | nullOrAtLeast (column : String) (cell : Cell)
  deriving DecidableEq

namespace Condition

def column : Condition → String
  | isNull c | equals c _ | atMost c _ | nullOrAbove c _ | nullOrAtLeast c _ => c

/-- The condition holds where its column has a cell; a given cell is first brought to the kind of the
column. -/
def holdsOf (known : Cell) (brought : Cell → Cell) : Condition → Bool
  | isNull _ => known.isNull
  | equals _ cell => known.equals (brought cell)
  | atMost _ cell => known.atMost (brought cell)
  | nullOrAbove _ cell => known.isNull || (brought cell).below known
  | nullOrAtLeast _ cell => known.isNull || (brought cell).atMost known

def holds (t : Table) (id : Int) (cells : Cells) (c : Condition) : Bool :=
  c.holdsOf (t.read id cells c.column) (t.coerce c.column)

-- All of some conditions hold of a row.
def allHold (t : Table) (conditions : List Condition) (id : Int) (cells : Cells) : Bool :=
  conditions.all (·.holds t id cells)

/-- All of some conditions hold of a row for a statement that is run now. A condition on a word for the
clock asks nothing of the row. -/
def allHoldAt (now : Instant) (t : Table) (conditions : List Condition) (id : Int) (cells : Cells) :
    Bool :=
  conditions.all fun c =>
    match clockText? now c.column with
    | some text => c.holdsOf (.text text) fun cell => cell
    | none => c.holds t id cells

theorem allHoldAt_eq {conditions : List Condition} (h : ∀ c ∈ conditions, senseOf c.column = .column)
    (now : Instant) (t : Table) : allHoldAt now t conditions = allHold t conditions := by
  funext id cells
  unfold allHoldAt allHold
  induction conditions with
  | nil => rfl
  | cons c rest ih =>
    obtain ⟨hfirst, hrest⟩ := List.forall_mem_cons.1 h
    rw [List.all_cons, List.all_cons, clockText?_of_column hfirst, ih hrest]

/-- The token behind the column of a condition. -/
def sign : Condition → String
  | isNull _ | nullOrAbove _ _ | nullOrAtLeast _ _ => "IS"
  | equals _ _ => "="
  | atMost _ _ => "<="

end Condition

/-- What a name has in a row for a statement that is run now, under the name that the answer has for
it. -/
def Table.shown (now : Instant) (t : Table) (id : Int) (cells : Cells) (name : String) : String × Cell :=
  match clockText? now name with
  | some text => (name, .text text)
  | none => (t.resultName name, t.read id cells name)

/-- What some names have in the rows that meet all conditions, in the order of their numbers, for a
statement that is run now. -/
def Table.select (now : Instant) (t : Table) (names : List String) (conditions : List Condition) :
    List Cells :=
  (t.rows.entries.filter fun e => Condition.allHoldAt now t conditions e.1 e.2).map fun e =>
    names.map (t.shown now e.1 e.2)

/-- The fault of a statement that reads some names, each with the token behind it, for the first of them
that opens a phrase. -/
def phraseFault? (tokens : List (String × String)) : Option DatabaseFault :=
  (tokens.find? fun e => senseOf e.1 = .phrase).map fun e => .notUnderstood e.2

-- Names in a list, each with the token behind it.
def listed (last : String) : List String → List (String × String)
  | [] => []
  | [name] => [(name, last)]
  | name :: rest => (name, ",") :: listed last rest

theorem phraseFault?_eq_none {tokens : List (String × String)}
    (h : ∀ e ∈ tokens, senseOf e.1 = .column) : phraseFault? tokens = none := by
  rw [phraseFault?, Option.map_eq_none_iff, List.find?_eq_none]
  intro e he
  rw [h e he]
  decide

theorem mem_listed {last : String} {names : List String} {e : String × String}
    (h : e ∈ listed last names) : e.1 ∈ names := by
  induction names with
  | nil => cases h
  | cons name rest ih =>
    cases rest with
    | nil =>
      rw [List.mem_singleton.1 h]
      exact List.mem_singleton_self _
    | cons next rest =>
      rcases List.mem_cons.1 h with rfl | h
      · exact List.mem_cons_self ..
      · exact List.mem_cons_of_mem _ (ih h)

end Registry
