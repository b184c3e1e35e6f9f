import Registry.History.Encoding
import Registry.Text.Quoted

/-! # Recorder — the versions of a register over time

A recorder writes at one pinned instant, in whole milliseconds. Every version that it writes is
marked with that instant, and a new version holds from it unless a period is given. History is not
edited: a correction closes the version that holds and adds another.

Each function returns its answer or a fault, with the database after it. A single statement that
fails changes no row, unless the database is full and undoes the transaction; `reconcile` may do two,
and outside of a transaction it keeps the first where the second fails. -/

namespace Registry

-- An answer or a fault, and the database after it.
abbrev Edit (α : Type) := Except HistoryFault α × Database

structure Recorder where
  time : Instant
  time_truncated : time.truncated = time

theorem Instant.truncated_truncated (t : Instant) : t.truncated.truncated = t.truncated := by
  unfold Instant.truncated
  by_cases h : Instant.MillisInRange t.toMillis
  · rw [Instant.toMillis_ofMillis h]
  · rw [Instant.ofMillis_of_not_inRange h]
    decide

namespace Recorder

/-- The recorder for an instant, which is cut to whole milliseconds. -/
def pinnedAt (t : Instant) : Recorder := ⟨t.truncated, t.truncated_truncated⟩

def description (w : Recorder) (runId : String) : String :=
  s!"ImportRun \x7b run_id: {Text.quoted runId}, transaction_time: {w.time.zuluText}, .. \x7d"

/-! ## Lookups -/

/-- The condition that a column holds a key; a null key asks for null. -/
def keyCondition (column : String) (key : Value) : Condition :=
  if key.isNull then .isNull column else .equals column key.cell

/-- The conditions that a version with a key in a column holds at an instant. -/
def validConditions (column : String) (key : Value) (asOf : Instant) : List Condition :=
  [keyCondition column key, .atMost validFromColumn asOf.cell, .nullOrAbove validToColumn asOf.cell]

/-- The rows of the versions that hold at an instant and have a key in a column. -/
def validRows (l : Layout) (column : String) (key : Value) (asOf : Instant) (db : Database) :
    Except DatabaseFault (List Cells) :=
  db.select l.table (pidColumn :: l.columnNames) (validConditions column key asOf)

/-- The version that holds at an instant and has a key in a column. -/
def fetchBy (l : Layout) (column : String) (key : Value) (asOf : Instant) (db : Database) :
    Except HistoryFault (Option Version) :=
  match l.persisted.find? fun f => f.name == column with
  | none => .error (.notStored column l.table)
  | some f =>
    match f.cell key with
    | .error fault => .error fault
    | .ok _ =>
      match validRows l column key asOf db with
      | .error fault => .error (.database fault)
      | .ok [] => .ok none
      | .ok [row] => (l.readVersion row).map some
      | .ok rows => .error (.severalCurrent l.table column key.display rows.length)

def fetchAt (l : Layout) (key : Value) (asOf : Instant) (db : Database) :
    Except HistoryFault (Option Version) :=
  fetchBy l l.key key asOf db

def fetchCurrent (w : Recorder) (l : Layout) (key : Value) (db : Database) :
    Except HistoryFault (Option Version) :=
  fetchAt l key w.time db

/-- The version that holds at the recorder's instant and has a key in a column. -/
def fetchCurrentBy (w : Recorder) (l : Layout) (column : String) (key : Value) (db : Database) :
    Except HistoryFault (Option Version) :=
  fetchBy l column key w.time db

/-! ## Writes of one statement -/

-- The number of a version added to the table.
def insertRow (w : Recorder) (l : Layout) (v : Version) (db : Database) : Edit Int :=
  match l.fault? v.record with
  | some fault => (.error (.record fault), db)
  | none =>
    match v.cells l w.time with
    | .error fault => (.error fault, db)
    | .ok cells =>
      match db.insert l.table cells with
      | .error fault => (.error (.database fault), db.refused fault)
      | .ok (pid, db) => (.ok pid, db)

def insertVersion (w : Recorder) (l : Layout) (v : Version) (db : Database) : Edit Version :=
  match w.insertRow l v db with
  | (.error fault, db) => (.error fault, db)
  | (.ok pid, db) => (.ok { v with pid := some pid, modified := some w.time }, db)

-- A record as it holds from the recorder's instant on.
def openVersion (w : Recorder) (record : Record) : Version := .unstored record w.time none

/-- A record that holds from the recorder's instant on, added to the table. -/
def insert (w : Recorder) (l : Layout) (record : Record) (db : Database) : Edit Version :=
  w.insertVersion l (w.openVersion record) db

/-- The number of versions of a record's key that are closed at an instant: those that hold on to
it or beyond, or without end. -/
def terminateAt (w : Recorder) (l : Layout) (record : Record) (stop : Instant) (db : Database) :
    Edit Nat :=
  let key := record.valueOrNull l.key
  match l.keyField.cell key with
  | .error fault => (.error fault, db)
  | .ok _ =>
    match db.update l.table [(validToColumn, stop.cell), (modifiedColumn, w.time.cell)]
        [keyCondition l.key key, .nullOrAtLeast validToColumn stop.cell] with
    | .error fault => (.error (.database fault), db.refused fault)
    | .ok (count, db) => (.ok count, db)

/-- The number of versions of a record's key that are closed at the recorder's instant. -/
def terminate (w : Recorder) (l : Layout) (record : Record) (db : Database) : Edit Nat :=
  w.terminateAt l record w.time db

def update (w : Recorder) (l : Layout) (v : Version) (db : Database) : Edit Version :=
  match v.pid with
  | none => (.error (.unnumbered l.table), db)
  | some pid =>
    match l.fault? v.record with
    | some fault => (.error (.record fault), db)
    | none =>
      match v.cells l w.time with
      | .error fault => (.error fault, db)
      | .ok cells =>
        match db.update l.table cells [.equals pidColumn (.integer pid)] with
        | .error fault => (.error (.database fault), db.refused fault)
        | .ok (0, db) => (.error (.noRow l.table pid), db)
        | .ok (_, db) => (.ok { v with modified := some w.time }, db)

/-! ## Reconciliation -/

/-- What became of a record that replaces what is known under its key. -/
inductive Reconciliation where
  | inserted (pid : Int)
  | unchanged (pid : Int)
  | replaced (terminated inserted : Int)
  deriving DecidableEq, Repr

/-- A record as the whole truth about its key from the recorder's instant on: added where no
version holds, nothing where the version that holds has the same stored values, and otherwise that
version is closed and the record added. -/
def reconcile (w : Recorder) (l : Layout) (record : Record) (db : Database) : Edit Reconciliation :=
  match w.fetchCurrent l (record.valueOrNull l.key) db with
  | .error fault => (.error fault, db)
  | .ok none =>
    match w.insertRow l (w.openVersion record) db with
    | (.error fault, db) => (.error fault, db)
    | (.ok pid, db) => (.ok (.inserted pid), db)
  | .ok (some existing) =>
    match existing.pid with
    | none => (.error (.unnumbered l.table), db)
    | some terminated =>
      if l.samePersisted existing.record record then (.ok (.unchanged terminated), db)
      else
        match w.update l { existing with validTo := some w.time } db with
        | (.error fault, db) => (.error fault, db)
        | (.ok _, db) =>
          match w.insertRow l (w.openVersion record) db with
          | (.error fault, db) => (.error fault, db)
          | (.ok pid, db) => (.ok (.replaced terminated pid), db)

end Recorder

/-! ## The whole table -/

-- The kinds of the cells in a row of `dump?`.
def Layout.dumpKinds (l : Layout) : List Affinity :=
  List.replicate 4 .integer ++ l.persisted.map fun f => f.type.affinity

/-- Every row of a register's table: the number, the three times and the stored fields, or nothing
where the table or one of these columns is missing. A cell of another kind than its column's shows
as null. -/
def Layout.dump? (l : Layout) (db : Database) : Option (List (List Cell)) :=
  let columns := [pidColumn, validFromColumn, validToColumn, modifiedColumn] ++
    l.persisted.map Field.name
  match db.select l.table columns [] with
  | .error _ => none
  | .ok rows =>
    some (rows.map fun row =>
      (l.dumpKinds.zip row).map fun e => (e.2.2.ofKind? e.1).getD .null)

end Registry
