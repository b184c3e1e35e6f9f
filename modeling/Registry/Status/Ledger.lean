import Registry.Database.Basic
import Registry.Record.Layout
import Registry.Status.Attempt

/-! # Ledger — the attempts at importing one register

Each attempt has a row in a table of its own. The newest attempt is the one with the latest start,
of several the one added last; ending an attempt and telling the latest both look at that row. Imports
are overdue when the latest attempt started longer ago than allowed. -/

namespace Registry

structure Ledger where
  home : String
  home_identifier : isIdentifier home = true
  -- How many days may pass from the start of one attempt to that of the next.
  maxDays : Int

namespace Ledger

/-- The ledger of a register, whose name has to be an identifier. -/
def open? (home : String) (maxDays : Int) : Except StatusFault Ledger :=
  if h : isIdentifier home = true then .ok ⟨home, h, maxDays⟩ else .error (.invalidHome home)

def table (g : Ledger) : String := g.home ++ "ImportStatus"

def idColumn : String := "Id"

def startColumn : String := "StartTime"

def stopColumn : String := "EndTime"

def outcomeColumn : String := "Outcome"

def columns : List Column :=
  [{ name := startColumn, affinity := .integer, required := true },
   { name := stopColumn, affinity := .integer, required := false },
   { name := outcomeColumn, affinity := .text, required := false }]

def ensureTable (g : Ledger) (db : Database) : Except StatusFault Database :=
  (db.createTable true { name := g.table, idColumn := some idColumn, columns }).mapError .database

/-! ## The newest attempt -/

/-- Of two rows in the order of their numbers, the one that started later; the second of equals. -/
def later (best row : Cells) : Cells :=
  if (best.read startColumn).atMost (row.read startColumn) then row else best

-- The row of the newest attempt.
def newest? : List Cells → Option Cells
  | [] => none
  | row :: rest => some (rest.foldl later row)

/-- The database with an attempt added that started at an instant. -/
def begin (g : Ledger) (start : Instant) (db : Database) : Except StatusFault Database :=
  match db.insert g.table [(startColumn, .integer start.toMillis)] with
  | .error fault => .error (.database fault)
  | .ok (_, db) => .ok db

/-- The database with the newest attempt ended; without attempts nothing changes. -/
def finish (g : Ledger) (stop : Instant) (outcome : Outcome) (db : Database) :
    Except StatusFault Database :=
  match db.select g.table [stopColumn, outcomeColumn, idColumn, startColumn] [] with
  | .error fault => .error (.database fault)
  | .ok rows =>
    let id := match newest? rows with
      | some row => row.read idColumn
      | none => .null
    match db.update g.table
        [(stopColumn, .integer stop.toMillis), (outcomeColumn, .text outcome.word)]
        [.equals idColumn id] with
    | .error fault => .error (.database fault)
    | .ok (_, db) => .ok db

/-! ## Telling the state -/

def readColumn (row : Cells) (column : String) : Except StatusFault Cell :=
  match row.lookup column with
  | some cell => .ok cell
  | none => .error (.database (.noResult column))

def readTime (row : Cells) (column : String) (optional : Bool) :
    Except StatusFault (Option Instant) :=
  match readColumn row column with
  | .error fault => .error fault
  | .ok .null => .ok none
  | .ok (.integer ms) => .ok (some (Instant.ofMillis ms))
  | .ok cell => .error (.database (.mismatch column optional .integer cell.kind))

def readOutcome (row : Cells) : Except StatusFault (Option Outcome) :=
  match readColumn row outcomeColumn with
  | .error fault => .error fault
  | .ok .null => .ok none
  | .ok (.text word) => (Outcome.ofWord word).map some
  | .ok cell => .error (.database (.mismatch outcomeColumn true .text cell.kind))

def readAttempt (row : Cells) : Except StatusFault Attempt :=
  match readOutcome row with
  | .error fault => .error fault
  | .ok outcome =>
    match readTime row startColumn false with
    | .error fault => .error fault
    | .ok none => .error (.database (.unexpectedNull startColumn))
    | .ok (some start) => (readTime row stopColumn true).map fun stop => { start, stop, outcome }

def latest (g : Ledger) (db : Database) : Except StatusFault (Option Attempt) :=
  match db.select g.table [startColumn, stopColumn, outcomeColumn, idColumn] [] with
  | .error fault => .error (.database fault)
  | .ok rows =>
    match newest? rows with
    | none => .ok none
    | some row => (readAttempt row).map some

-- The nanoseconds of a day.
def nanosPerDay : Int := 86400 * nanosPerSecond

/-- The largest number of days that a difference between instants can have. -/
def longestDays : Nat := 106751991167

-- The instant by which the latest attempt has to have started.
def deadline? (g : Ledger) (now : Instant) : Option Instant :=
  if g.maxDays.natAbs ≤ longestDays then now.shift? (-(g.maxDays * nanosPerDay)) else none

/-- The latest attempt started before the deadline. Before the first attempt nothing is overdue, and
nothing is where the deadline is no instant. -/
def isOverdue (g : Ledger) (now : Instant) (db : Database) : Except StatusFault Bool :=
  match g.latest db with
  | .error fault => .error fault
  | .ok none => .ok false
  | .ok (some attempt) =>
    .ok (match g.deadline? now with
      | some deadline => attempt.start < deadline
      | none => false)

def isAlive (g : Ledger) (db : Database) : Bool := (db.select g.table [idColumn] []).isOk

def isReadable (a : Affinity) (cell : Cell) : Bool := cell.isNull || cell.kind == a

/-- Every row of the table: the number, start, end and outcome, or nothing where one of them cannot
be read. -/
def dump? (g : Ledger) (db : Database) : Option (List (List Cell)) :=
  match db.select g.table [idColumn, startColumn, stopColumn, outcomeColumn] [] with
  | .error _ => none
  | .ok rows =>
    rows.mapM fun row =>
      let cells := row.map (·.2)
      if ([.integer, .integer, .integer, .text].zip cells).all fun e => isReadable e.1 e.2 then
        some cells
      else none

end Ledger

end Registry
