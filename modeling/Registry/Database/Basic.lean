import Registry.Database.Table

/-! # Database — tables under their names, and the statements on them

A database has tables and the names of their indexes. A statement either succeeds or leaves them as
they were: each returns a fault or its answer with the database after it. A transaction keeps what was
there when it began; it can be closed for good only while every row has the row of another table that it
refers to. A statement that finds the database full undoes the whole transaction, and what follows is
kept at once, as outside of a transaction. -/

namespace Registry

open Registry.Text

/-- What a transaction takes back. -/
structure Content where
  -- The tables under their names in lower case.
  tables : SortedMap String Table
  -- The names of the indexes in lower case, each with the name of its table.
  indexes : SortedMap String String
  deriving DecidableEq

structure Database extends Content where
  -- How many rows the last statement changed that writes rows; a rollback does not take it back.
  changed : Nat
  -- What was there when the open transaction began, if one is open.
  begun : Option Content
  -- The clock of the machine, as a statement reads it that is run now.
  clock : Instant
  deriving DecidableEq

namespace Database

def empty : Database :=
  { tables := .empty, indexes := .empty, changed := 0, begun := none, clock := .epoch }

instance : Inhabited Database := ⟨empty⟩

-- The table of a name, in whatever case.
def table? (db : Database) (name : String) : Option Table := db.tables.get? (foldAscii name)

def find (db : Database) (name : String) : Except DatabaseFault Table :=
  match db.table? name with
  | some t => .ok t
  | none => .error (.noTable name)

def put (db : Database) (name : String) (t : Table) : Database :=
  { db with tables := db.tables.insert (foldAscii name) t }

theorem table?_put (db : Database) (name : String) (t : Table) (other : String) :
    (db.put name t).table? other =
      if foldAscii name = foldAscii other then some t else db.table? other :=
  SortedMap.get?_insert _ _ _ _

theorem find_eq_ok_iff {db : Database} {name : String} {t : Table} :
    db.find name = .ok t ↔ db.table? name = some t := by
  unfold find
  cases db.table? name <;> simp

/-! ## Tables and indexes -/

-- What the names of a database's own tables start with.
def ownMark : String := "sqlite_"

-- A name that no new table or index may have.
def isReserved (name : String) : Bool := (foldAscii name).startsWith ownMark

/-- The database with a new table. A table that is already there is left alone or refused. -/
def createTable (db : Database) (ifMissing : Bool) (d : TableDesign) :
    Except DatabaseFault Database :=
  if isReserved d.name then .error (.reservedName d.name)
  else if (db.table? d.name).isSome then
    if ifMissing then .ok db else .error (.tableExists d.name)
  else if db.indexes.contains (foldAscii d.name) then .error (.namedLikeIndex d.name)
  else
    match Table.create? d with
    | .error fault => .error fault
    | .ok t => .ok (db.put d.name t)

/-- The database with an index on columns of a table. An index that is already there is left alone
or refused. -/
def createIndex (db : Database) (ifMissing : Bool) (index table : String) (columns : List String) :
    Except DatabaseFault Database :=
  match phraseFault? (listed ")" columns), db.table? table with
  | some fault, _ => .error fault
  | none, none => .error (.noTable ("main." ++ table))
  | none, some t =>
    if isReserved index then .error (.reservedName index)
    else if (db.table? index).isSome then .error (.namedLikeTable index)
    else if db.indexes.contains (foldAscii index) then
      if ifMissing then .ok db else .error (.indexExists index)
    else
      match t.indexFault? columns with
      | some fault => .error fault
      | none => .ok { db with indexes := db.indexes.insert (foldAscii index) (foldAscii table) }

def dropTable (db : Database) (ifPresent : Bool) (name : String) : Except DatabaseFault Database :=
  match db.table? name with
  | none => if ifPresent then .ok db else .error (.noTable name)
  | some _ =>
    .ok { db with
      tables := db.tables.erase (foldAscii name)
      indexes := db.indexes.filter fun _ table => table ≠ foldAscii name }

def dropIndex (db : Database) (ifPresent : Bool) (name : String) : Except DatabaseFault Database :=
  if db.indexes.contains (foldAscii name) then
    .ok { db with indexes := db.indexes.erase (foldAscii name) }
  else if ifPresent then .ok db
  else .error (.noIndex name)

/-! ## What a database keeps for itself -/

/-- A table that a database keeps for itself. -/
structure OwnTable where
  name : String
  -- No statement can change it.
  isFixed : Bool
  columns : List String
  deriving DecidableEq

def catalogueColumns : List String := ["type", "name", "tbl_name", "rootpage", "sql"]

/-- The table that a database keeps for itself under a name; the one with the numbers that tables
have given is there as soon as a table keeps count. -/
def ownTable? (db : Database) (name : String) : Option OwnTable :=
  match foldAscii name with
  | "sqlite_master" | "sqlite_schema" => some ⟨"sqlite_master", true, catalogueColumns⟩
  | "sqlite_temp_master" | "sqlite_temp_schema" => some ⟨"sqlite_temp_master", true, catalogueColumns⟩
  | "sqlite_sequence" =>
    if db.tables.entries.any (·.2.keepsCount) then some ⟨name, false, ["name", "seq"]⟩ else none
  | _ => none

/-- Why nothing is done with some columns of a table that is not there, or that the database keeps
for itself. -/
def absence (db : Database) (name : String) (changes : Bool) (names : List String)
    (lacking : String → DatabaseFault) : DatabaseFault :=
  match db.ownTable? name with
  | none => .noTable name
  | some own =>
    if changes && own.isFixed then .readOnlyTable own.name
    else
      (names.find? fun n => !(own.columns ++ Table.numberNames).any (sameName n)).elim
        (.noTable name) lacking

/-! ## Rows -/

-- The columns of conditions, each with the token behind it.
def asked (conditions : List Condition) : List (String × String) :=
  conditions.map fun c => (c.column, c.sign)

/-- What some names stand for in the rows of a table that meet all conditions; these names and those
in the conditions have to stand for something. -/
def select (db : Database) (table : String) (names : List String) (conditions : List Condition) :
    Except DatabaseFault (List Cells) :=
  let needed := names ++ conditions.map Condition.column
  match phraseFault? (listed "FROM" names ++ asked conditions), db.find table with
  | some fault, _ => .error fault
  | none, .error _ => .error (db.absence table false needed .noColumn)
  | none, .ok t =>
    match t.unknown? needed with
    | some column => .error (.noColumn column)
    | none => .ok (t.select db.clock names conditions)

-- Why no row can be added to a table that refers to others.
def parentFault? (db : Database) (t : Table) : Option DatabaseFault :=
  (t.columns.filterMap Column.parent).findSome? fun p =>
    match db.table? p.table with
    | none => some (.noTable ("main." ++ p.table))
    | some parent =>
      if (parent.keyName? p.column).isNone then some (.unfitParent t.name p.table) else none

/-- The database with a row added to a table, and the number of the row. The tables that a row may
refer to have to be there. -/
def insert (db : Database) (table : String) (values : Cells) : Except DatabaseFault (Int × Database) :=
  match db.find table with
  | .error _ => .error (db.absence table true (values.map (·.1)) (.noColumnIn table))
  | .ok t =>
    match t.lacking? (values.map (·.1)), db.parentFault? t with
    | some column, _ => .error (.noColumnIn table column)
    | none, some fault => .error fault
    | none, none =>
      match t.insert values with
      | .error fault => .error fault
      | .ok (id, t) => .ok (id, { db.put table t with changed := 1 })

/-- The database with assignments made in the rows that meet all conditions, and the number of
these rows. -/
def update (db : Database) (table : String) (assignments : Cells) (conditions : List Condition) :
    Except DatabaseFault (Nat × Database) :=
  match phraseFault? (asked conditions), db.find table with
  | some fault, _ => .error fault
  | none, .error _ =>
    .error (db.absence table true (assignments.map (·.1) ++ conditions.map Condition.column) .noColumn)
  | none, .ok t =>
    match t.lacking? (assignments.map (·.1)), t.unknown? (conditions.map Condition.column) with
    | some column, _ | none, some column => .error (.noColumn column)
    | none, none =>
      match t.update (assignments.map (·.1)) (fun _ _ => assignments.map (·.2))
          (Condition.allHoldAt db.clock t conditions) with
      | .error fault => .error fault
      | .ok (count, t) => .ok (count, { db.put table t with changed := count })

/-- The database without the rows that meet all conditions, and the number of these rows. -/
def delete (db : Database) (table : String) (conditions : List Condition) :
    Except DatabaseFault (Nat × Database) :=
  match phraseFault? (asked conditions), db.find table with
  | some fault, _ => .error fault
  | none, .error _ => .error (db.absence table true (conditions.map Condition.column) .noColumn)
  | none, .ok t =>
    match t.unknown? (conditions.map Condition.column) with
    | some column => .error (.noColumn column)
    | none =>
      let (count, t) := t.delete (Condition.allHoldAt db.clock t conditions)
      .ok (count, { db.put table t with changed := count })

/-! ## Transactions -/

-- A transaction begins.
def opened (db : Database) : Database := { db with begun := some db.toContent }

/-- The database after the open transaction is undone, if one is open. -/
def undone (db : Database) : Database :=
  match db.begun with
  | some content => { db with toContent := content, begun := none }
  | none => db

/-- The database after a statement was refused: one that fails on the rows has changed none, and one
that finds the database full undoes the transaction. -/
def refused (db : Database) (fault : DatabaseFault) : Database :=
  let db := if fault = .full then db.undone else db
  if fault.isFromRows then { db with changed := 0 } else db

/-- A row of a table refers to a value that no row of the parent has. -/
def isOrphaned (db : Database) (t : Table) (c : Column) (p : Parent) : Bool :=
  t.rows.entries.any fun e =>
    let cell := e.2.read c.name
    !cell.isNull &&
      match db.table? p.table with
      | none => true
      | some parent =>
        !((parent.keyName? p.column).any fun key =>
          parent.rows.entries.any fun e => (parent.read e.1 e.2 key).equals cell)

/-- Some row refers to nothing, for those columns where this may or may not be for a while. -/
def hasOrphan (db : Database) (deferred : Bool) : Bool :=
  db.tables.entries.any fun e => e.2.columns.any fun c =>
    match c.parent with
    | some p => p.deferred == deferred && db.isOrphaned e.2 c p
    | none => false

/-- A transaction that has come to this database may be closed for good. -/
def canCommit (db : Database) : Bool := !db.hasOrphan true

/-- The database after the open transaction is closed for good. -/
def commit (db : Database) : Except DatabaseFault Database :=
  if db.begun.isNone then .error (.noTransaction "commit")
  else if db.canCommit then .ok { db with begun := none }
  else .error .orphanRow

/-- The database after a transaction that began at `before` is undone. Where the database has undone it
already, there is nothing to undo. -/
def rollback (db before : Database) : Except DatabaseFault Unit × Database :=
  if db.begun.isSome then (.ok (), { before with changed := db.changed, clock := db.clock })
  else (.error (.noTransaction "rollback"), db)

end Database

end Registry
