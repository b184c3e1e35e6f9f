import Registry.Database.Basic
import Registry.Record.Layout

/-! # Schema — the table of a register

A table has the number of a version in front, then a column for every stored field in declared
order, then the three times of a version. A column is required where its field is. An index on the
key and the start of validity goes with the table. -/

namespace Registry

def pidColumn : String := "PID"

def validFromColumn : String := "ValidFrom"

def validToColumn : String := "ValidTo"

def modifiedColumn : String := "ModifiedDate"

-- The kind of cell that holds the values of a type.
def FieldType.affinity : FieldType → Affinity
  | .text => .text
  | .integer => .integer
  | .decimal => .real
  | .datetime => .integer

def Field.column (f : Field) : Column :=
  { name := f.name, affinity := f.type.affinity, required := !f.optional }

def timeColumns : List Column :=
  [{ name := validFromColumn, affinity := .integer, required := true },
   { name := validToColumn, affinity := .integer, required := false },
   { name := modifiedColumn, affinity := .integer, required := true }]

def Column.definition (c : Column) : String :=
  c.name ++ " " ++ c.affinity.word ++ if c.required then " NOT NULL" else ""

namespace Layout

-- The columns of the table behind the number of a version.
def columns (l : Layout) : List Column := l.persisted.map Field.column ++ timeColumns

/-- The names of the columns in which a version is read and written, without its number. -/
def columnNames (l : Layout) : List String := l.columns.map Column.name

def tableText (l : Layout) : String :=
  let definitions := (pidColumn ++ " INTEGER PRIMARY KEY AUTOINCREMENT") ::
    l.columns.map Column.definition
  s!"CREATE TABLE IF NOT EXISTS {l.table} (\n    " ++ ",\n    ".intercalate definitions ++ "\n)"

def indexName (l : Layout) : String := s!"idx_{l.table}_{l.key}"

def indexText (l : Layout) : String :=
  s!"CREATE INDEX IF NOT EXISTS {l.indexName} ON {l.table} ({l.key}, {validFromColumn})"

/-- The database with the table and the index of the layout, each where it is not there yet. Where
the index is refused, the table stays. -/
def createTable (l : Layout) (db : Database) : Except DatabaseFault Unit × Database :=
  match db.createTable true { name := l.table, idColumn := some pidColumn, columns := l.columns } with
  | .error fault => (.error fault, db)
  | .ok db =>
    match db.createIndex true l.indexName l.table [l.key, validFromColumn] with
    | .error fault => (.error fault, db)
    | .ok db => (.ok (), db)

end Layout

end Registry
