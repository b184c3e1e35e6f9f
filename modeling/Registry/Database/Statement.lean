import Registry.Database.Query.Check

/-! # Statement — what is asked of a database in words

A register may bring statements of its own beside what the history does for it. A statement is run
inside a transaction or stands alone; alone, it has to leave every row with the row that it refers
to. A statement that is refused leaves all rows as they were. -/

namespace Registry

open Registry.Text

/-- What is done with a new row that is refused because of a value in it. -/
inductive Policy where
  | refuse
  -- The row is left out.
  | skip
  -- The rows in its way are taken out, and null gives way to what the column has at first.
  | replace
  deriving DecidableEq, Repr

inductive Statement where
  | createTable (ifMissing : Bool) (d : TableDesign)
  | createIndex (ifMissing : Bool) (index table : String) (columns : List String)
  | dropTable (ifPresent : Bool) (table : TableName)
  | dropIndex (ifPresent : Bool) (index : String)
  -- New rows from the answer to a query, for some columns or for all.
  | insert (policy : Policy) (table : TableName) (columns : Option (List String)) (q : Query)
  | update (policy : Policy) (table : TableName) (assignments : List (String × Expression))
    (test : Option Expression)
  | delete (table : TableName) (test : Option Expression)
  | query (q : Query)

namespace Table

/-- The table without the rows that stand in the way of a new one. -/
def withoutRivals (t : Table) (id : Int) (cells : Cells) : Table :=
  { t with rows := t.rows.filter fun other row =>
      other != id && !t.columns.any fun c => repeats c cells row }

/-- Values for a new row, where null gives way to what a column has at first. -/
def withInitial (t : Table) (values : Cells) : Cells :=
  values.map fun e =>
    match e.2, t.source? e.1 with
    | .null, some (.column c) => (e.1, if c.required then c.initial else .null)
    | _, _ => e

/-- The table with a row added as a policy has it, and whether one was added. -/
def insertBy (t : Table) (policy : Policy) (values : Cells) : Except DatabaseFault (Bool × Table) :=
  match policy, t.insert values with
  | _, .ok (_, t) => .ok (true, t)
  | .skip, .error (.missingValue ..) | .skip, .error (.repeatedValue ..) => .ok (false, t)
  | .replace, .error (.missingValue ..) | .replace, .error (.repeatedValue ..) =>
    let values := t.withInitial values
    let cells := t.columns.map fun c => (c.name, newCell values c)
    match t.newId values with
    | .error fault => .error fault
    | .ok id => ((t.withoutRivals id cells).insert values).map fun (_, t) => (true, t)
  | _, .error fault => .error fault

/-- The table with rows added as a policy has it, and the number of those that were added. -/
def insertAll (t : Table) (policy : Policy) : List Cells → Except DatabaseFault (Nat × Table)
  | [] => .ok (0, t)
  | values :: rest =>
    match t.insertBy policy values with
    | .error fault => .error fault
    | .ok (added, t) =>
      (t.insertAll policy rest).map fun (count, t) => (if added then count + 1 else count, t)

/-- The table with values set in those of some rows that the new values fit, one row after the
other, and the number of these rows. -/
def setFitting (t : Table) (names : List String) (values : Int → Cells → List Cell) :
    List (Int × Cells) → Except DatabaseFault (Nat × Table)
  | [] => .ok (0, t)
  | row :: rest =>
    match t.setAll names values [row] with
    | .ok t => (t.setFitting names values rest).map fun (count, t) => (count + 1, t)
    | .error .notNumber => .error .notNumber
    | .error _ => t.setFitting names values rest

/-- The table with values set as a policy has it in the rows that pass a test, and the number of
these rows. -/
def updateBy (t : Table) (policy : Policy) (names : List String)
    (values : Int → Cells → List Cell) (test : Int → Cells → Bool) :
    Except DatabaseFault (Nat × Table) :=
  match policy with
  | .skip => t.setFitting names values (t.rows.entries.filter fun e => test e.1 e.2)
  | _ => t.update names values test

end Table

namespace Database

def width (db : Database) (q : Query) : Nat :=
  (Query.columns Query.depth (.bare db) q).length

/-- The fault of new rows with another number of cells than there are columns for them. -/
def countFault? (t : Table) (table : TableName) (columns : Option (List String)) (count : Nat) :
    Option DatabaseFault :=
  match columns with
  | some columns =>
    if columns.length = count then none else some (.countForColumns count columns.length)
  | none =>
    if t.names.length = count then none
    else some (.countForTable table.written t.names.length count)

def insertFrom (db : Database) (policy : Policy) (table : TableName)
    (columns : Option (List String)) (q : Query) : Except DatabaseFault Database :=
  match db.named table with
  | .error fault => .error fault
  | .ok t =>
    let lacking := (t.lacking? (columns.getD [])).map (.noColumnIn table.written)
    let refusal := (lacking.or (Query.fault? db q)).or <|
      (countFault? t table columns (db.width q)).or (db.parentFault? t)
    match refusal with
    | some fault => .error fault
    | none =>
      let names := columns.getD t.names
      match t.insertAll policy ((Query.answer db q).map names.zip) with
      | .error fault => .error fault
      | .ok (count, t) => .ok { db.put table.name t with changed := count }

def assignmentFault? (db : Database) (t : Table) (assignments : List (String × Expression)) :
    Option DatabaseFault :=
  assignments.findSome? fun (name, e) =>
    (Query.expressionFault? db t e).or ((t.lacking? [name]).map .noColumn)

-- The test of a statement on the rows of a table.
def holdsIn (db : Database) (t : Table) (test : Option Expression) (id : Int) (cells : Cells) : Bool :=
  test.all fun e => (Query.cellIn db t id cells e).truth? = some true

/-- The database with values set in the rows of a table that pass a test. -/
def setWhere (db : Database) (policy : Policy) (table : TableName)
    (assignments : List (String × Expression)) (test : Option Expression) :
    Except DatabaseFault Database :=
  match db.named table with
  | .error fault => .error fault
  | .ok t =>
    match (db.assignmentFault? t assignments).or (test.bind (Query.expressionFault? db t)) with
    | some fault => .error fault
    | none =>
      let values (id : Int) (cells : Cells) : List Cell :=
        assignments.map fun e => Query.cellIn db t id cells e.2
      let names := assignments.map (·.1)
      (t.updateBy policy names values (db.holdsIn t test)).map fun (count, t) =>
        { db.put table.name t with changed := count }

def deleteWhere (db : Database) (table : TableName) (test : Option Expression) :
    Except DatabaseFault Database :=
  match db.named table with
  | .error fault => .error fault
  | .ok t =>
    match test.bind (Query.expressionFault? db t) with
    | some fault => .error fault
    | none =>
      let (count, t) := t.delete (db.holdsIn t test)
      .ok { db.put table.name t with changed := count }

/-- The database after a statement, without a look at what its rows refer to. -/
def obey (db : Database) : Statement → Except DatabaseFault Database
  | .createTable ifMissing d => db.createTable ifMissing d
  | .createIndex ifMissing index table columns => db.createIndex ifMissing index table columns
  | .dropTable ifPresent table =>
    if table.isMain && (db.table? table.name).isSome then db.dropTable ifPresent table.name
    else if ifPresent then .ok db
    else .error (.noTable table.written)
  | .dropIndex ifPresent index => db.dropIndex ifPresent index
  | .insert policy table columns q => db.insertFrom policy table columns q
  | .update policy table assignments test => db.setWhere policy table assignments test
  | .delete table test => db.deleteWhere table test
  | .query q =>
    match Query.fault? db q with
    | some fault => .error fault
    | none => .ok db

/-- The database after a statement. Where a row may not wait for the one that it refers to, it has
to be there now. -/
def run (db : Database) (statement : Statement) : Except DatabaseFault Database :=
  match db.obey statement with
  | .error fault => .error fault
  | .ok db => if db.hasOrphan false then .error .orphanRow else .ok db

-- The database after a statement that stands alone.
def runAlone (db : Database) (statement : Statement) : Except DatabaseFault Database :=
  match db.run statement with
  | .error fault => .error fault
  | .ok db => if db.canCommit then .ok db else .error .orphanRow

end Database

end Registry
