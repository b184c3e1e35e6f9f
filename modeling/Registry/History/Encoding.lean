import Registry.History.Fault
import Registry.History.Schema
import Registry.Record.Version

/-! # Encoding — versions as rows, and back

Text is stored as it is, an instant as its milliseconds and an amount as the double nearest to it.
A null of a row is left out of the record that is read. -/

namespace Registry

def Instant.cell (t : Instant) : Cell := .integer t.toMillis

namespace Value

def cell : Value → Cell
  | text s => .text s
  | integer n => .integer n
  | decimal d => .real d.toBinary64
  | datetime t => t.cell
  | null => .null

theorem cell_isNull (v : Value) : v.cell.isNull = v.isNull := by cases v <;> rfl

end Value

/-! ## Writing -/

/-- The cell of a value for the column of a field; the value has to be of the field's type. -/
def Field.cell (f : Field) (v : Value) : Except HistoryFault Cell :=
  if v.fits f.type then .ok v.cell else .error (.wrongKind f.name f.type v.kind)

def fieldCells (r : Record) : List Field → Except HistoryFault Cells
  | [] => .ok []
  | f :: rest =>
    match f.cell (r.valueOrNull f.name) with
    | .error fault => .error fault
    | .ok cell =>
      match fieldCells r rest with
      | .error fault => .error fault
      | .ok cells => .ok ((f.name, cell) :: cells)

-- The cells of the times of a version.
def periodCells (validFrom : Instant) (validTo : Option Instant) (modified : Instant) : Cells :=
  [(validFromColumn, validFrom.cell), (validToColumn, Cell.ofOption Instant.cell validTo),
   (modifiedColumn, modified.cell)]

/-- The cells of a version that is changed at an instant, without its number. -/
def Version.cells (v : Version) (l : Layout) (modified : Instant) : Except HistoryFault Cells :=
  match fieldCells v.record l.persisted with
  | .error fault => .error fault
  | .ok cells => .ok (cells ++ periodCells v.validFrom v.validTo modified)

-- A record whose values fit the fields has a cell for each.
theorem fieldCells_eq_ok {r : Record} {fields : List Field}
    (h : ∀ f ∈ fields, (r.valueOrNull f.name).fits f.type = true) :
    fieldCells r fields = .ok (fields.map fun f => (f.name, (r.valueOrNull f.name).cell)) := by
  induction fields with
  | nil => rfl
  | cons f rest ih =>
    simp only [List.mem_cons, forall_eq_or_imp] at h
    simp [fieldCells, Field.cell, h.1, ih h.2]

/-! ## Reading -/

-- The value in the column of a field.
def Field.readCell (f : Field) (cell : Cell) : Except HistoryFault Value :=
  match f.type, cell with
  | _, .null => .ok .null
  | .text, .text s => .ok (.text s)
  | .integer, .integer n => .ok (.integer n)
  | .decimal, .real x =>
    match Decimal.ofBinary64? x with
    | some d => .ok (.decimal d)
    | none => .error (.doesNotFit f.name x)
  | .datetime, .integer ms => .ok (.datetime (Instant.ofMillis ms))
  | _, cell => .error (.database (.mismatch f.name true f.type.affinity cell.kind))

def readColumn (row : Cells) (column : String) : Except HistoryFault Cell :=
  match row.lookup column with
  | some cell => .ok cell
  | none => .error (.database (.noResult column))

def readFields (row : Cells) : List Field → Except HistoryFault Record
  | [] => .ok .empty
  | f :: rest =>
    match (readColumn row f.name).bind f.readCell with
    | .error fault => .error fault
    | .ok v =>
      match readFields row rest with
      | .error fault => .error fault
      | .ok r => .ok (if v.isNull then r else r.insert f.name v)

def readInteger (row : Cells) (column : String) : Except HistoryFault Int :=
  match readColumn row column with
  | .error fault => .error fault
  | .ok (.integer n) => .ok n
  | .ok .null => .error (.database (.unexpectedNull column))
  | .ok cell => .error (.database (.mismatch column false .integer cell.kind))

def readOptionalTime (row : Cells) (column : String) : Except HistoryFault (Option Instant) :=
  match readColumn row column with
  | .error fault => .error fault
  | .ok .null => .ok none
  | .ok (.integer ms) => .ok (some (Instant.ofMillis ms))
  | .ok cell => .error (.database (.mismatch column true .integer cell.kind))

def Layout.readVersion (l : Layout) (row : Cells) : Except HistoryFault Version := do
  let record ← readFields row l.persisted
  let pid ← readInteger row pidColumn
  let validFrom ← readInteger row validFromColumn
  let validTo ← readOptionalTime row validToColumn
  let modified ← readInteger row modifiedColumn
  return { pid := some pid, record, validFrom := Instant.ofMillis validFrom, validTo
           modified := some (Instant.ofMillis modified) }

end Registry
