import Registry.Database.Cell

/-! # Fault — why a database refuses a statement

Each cause carries the names that its message shows, and most have a number, the code of the
cause. A connection that cannot be had is a cause without one, and so is an answer that cannot be
read. -/

namespace Registry

/-- Why a value may not be in a column twice. -/
inductive Uniqueness where
  -- It is the number of a row.
  | number
  -- It is what the rows of the table are known by.
  | primary
  | other
  deriving DecidableEq, Repr

inductive DatabaseFault where
  | noTable (name : String)
  | tableExists (name : String)
  -- A new table is to have the name of an index.
  | namedLikeIndex (name : String)
  -- A new index is to have the name of a table.
  | namedLikeTable (name : String)
  | indexExists (name : String)
  | noIndex (name : String)
  | reservedName (name : String)
  | repeatedColumn (name : String)
  -- A statement reads or sets a column that the table lacks.
  | noColumn (name : String)
  | ambiguousColumn (name : String)
  -- A new row has a value for a column that the table lacks.
  | noColumnIn (table column : String)
  -- New rows have another number of values than the table has columns.
  | countForTable (table : String) (columns values : Nat)
  -- New rows have another number of values than there are columns for them.
  | countForColumns (values columns : Nat)
  | unevenRows
  -- The queries that a word combines have answers with different numbers of columns.
  | unevenAnswers (word : String)
  -- A number that stands for a column of the answer is not one of its columns; the place of the
  -- number among the keys and the words that they stand behind come with it.
  | noSuchColumn (place : Nat) (words : String) (columns : Nat)
  -- A key for the order of combined answers is none of their columns.
  | unknownKey (place : Nat)
  | noSource
  | noFunction (name : String)
  | argumentCount (function : String)
  | misusedAggregate (function : String)
  -- A function of several rows stands in the test that picks these rows.
  | aggregateInTest (function : String)
  -- A function of several rows stands in a key by which rows are put into groups.
  | aggregateInGroups
  -- Groups are to pass a test, but there are none.
  | unfitHaving
  | missingValue (table column : String)
  -- A row would have a value that another one has.
  | repeatedValue (table column : String) (cause : Uniqueness)
  -- What is to be the number of a row is no integer.
  | notNumber
  -- There is no number left for a row.
  | full
  | orphanRow
  -- What a table refers to may repeat in the other table.
  | unfitParent (table parent : String)
  | readOnlyTable (name : String)
  -- An index is to be on a reading of the clock.
  | indexOnClock
  -- A transaction is to be ended, but there is none.
  | noTransaction (ending : String)
  | cannotOpen
  -- What was opened to be read is no file.
  | cannotRead
  -- A file is to be opened in a way that is not known.
  | noAccess (name : String)
  -- A way to open a file, or to share it, that is not known.
  | noMode (kind name : String)
  -- A way to open a file that goes beyond what is allowed.
  | modeNotAllowed (name : String)
  -- The name of a file says on which machine the file is.
  | foreignFile (machine : String)
  -- The name of a file holds a character that no name may hold.
  | invalidFileName
  | notUnderstood (near : String)
  | notFinished
  | noToken (text : String)
  -- The answer has no column of a name.
  | noResult (column : String)
  -- A column of the answer holds a cell of another kind than the one that is read.
  | mismatch (column : String) (optional : Bool) (wanted stored : Affinity)
  -- A column of the answer is null, but a value is read.
  | unexpectedNull (column : String)
  | poolClosed
  deriving DecidableEq, Repr

namespace DatabaseFault

def code? : DatabaseFault → Option Nat
  | missingValue .. => some 1299
  | repeatedValue _ _ .primary => some 1555
  | repeatedValue _ _ .other => some 2067
  | repeatedValue _ _ .number => some 2579
  | orphanRow => some 787
  | notNumber => some 20
  | cannotOpen => some 14
  | cannotRead => some 266
  | full => some 13
  | modeNotAllowed _ => some 3
  | noResult _ | mismatch .. | unexpectedNull _ | invalidFileName | poolClosed => none
  | _ => some 1

/-- The cause arises from the rows that are there, and not from the words of the statement. -/
def isFromRows : DatabaseFault → Bool
  | missingValue .. | repeatedValue .. | orphanRow | notNumber | full => true
  | _ => false

def ordinal (n : Nat) : String :=
  let ending :=
    if n / 10 % 10 = 1 then "th"
    else match n % 10 with
      | 1 => "st"
      | 2 => "nd"
      | 3 => "rd"
      | _ => "th"
  toString n ++ ending

def detail : DatabaseFault → String
  | noTable name => s!"no such table: {name}"
  | tableExists name => s!"table {name} already exists"
  | namedLikeIndex name => s!"there is already an index named {name}"
  | namedLikeTable name => s!"there is already a table named {name}"
  | indexExists name => s!"index {name} already exists"
  | noIndex name => s!"no such index: {name}"
  | reservedName name => s!"object name reserved for internal use: {name}"
  | repeatedColumn name => s!"duplicate column name: {name}"
  | noColumn name => s!"no such column: {name}"
  | ambiguousColumn name => s!"ambiguous column name: {name}"
  | noColumnIn table column => s!"table {table} has no column named {column}"
  | countForTable table columns values =>
    s!"table {table} has {columns} columns but {values} values were supplied"
  | countForColumns values columns => s!"{values} values for {columns} columns"
  | unevenRows => "all VALUES must have the same number of terms"
  | unevenAnswers word =>
    s!"SELECTs to the left and right of {word} do not have the same number of result columns"
  | noSuchColumn place words columns =>
    s!"{ordinal place} {words} term out of range - should be between 1 and {columns}"
  | unknownKey place =>
    s!"{ordinal place} ORDER BY term does not match any column in the result set"
  | noSource => "no tables specified"
  | noFunction name => s!"no such function: {name}"
  | argumentCount function => s!"wrong number of arguments to function {function}()"
  | aggregateInTest function => s!"misuse of aggregate: {function}()"
  | misusedAggregate function => s!"misuse of aggregate function {function}()"
  | aggregateInGroups => "aggregate functions are not allowed in the GROUP BY clause"
  | unfitHaving => "HAVING clause on a non-aggregate query"
  | missingValue table column => s!"NOT NULL constraint failed: {table}.{column}"
  | repeatedValue table column _ => s!"UNIQUE constraint failed: {table}.{column}"
  | notNumber => "datatype mismatch"
  | full => "database or disk is full"
  | orphanRow => "FOREIGN KEY constraint failed"
  | unfitParent table parent => s!"foreign key mismatch - \"{table}\" referencing \"{parent}\""
  | readOnlyTable name => s!"table {name} may not be modified"
  | indexOnClock => "non-deterministic functions prohibited in index expressions"
  | noTransaction ending => s!"cannot {ending} - no transaction is active"
  | cannotOpen => "unable to open database file"
  | cannotRead => "disk I/O error"
  | noAccess name => s!"no such vfs: {name}"
  | noMode kind name => s!"no such {kind} mode: {name}"
  | modeNotAllowed name => s!"access mode not allowed: {name}"
  | foreignFile machine => s!"invalid uri authority: {machine}"
  | invalidFileName =>
    "error communicating with database: filename passed to SQLite must not contain nul bytes"
  | notUnderstood near => s!"near \"{near}\": syntax error"
  | notFinished => "incomplete input"
  | noToken text => s!"unrecognized token: \"{text}\""
  | noResult column => s!"no column found for name: {column}"
  | mismatch column optional wanted stored =>
    let type := wanted.valueType
    let type := if optional then s!"core::option::Option<{type}>" else type
    s!"error occurred while decoding column \"{column}\": mismatched types; Rust type `{type}` (as SQL type `{wanted.word}`) is not compatible with SQL type `{stored.word}`"
  | unexpectedNull column =>
    s!"error occurred while decoding column \"{column}\": unexpected null; try decoding as an `Option`"
  | poolClosed => "attempted to acquire a connection on a closed pool"

def message (fault : DatabaseFault) : String :=
  match fault.code? with
  | some code => s!"error returned from database: (code: {code}) {fault.detail}"
  | none => fault.detail

end DatabaseFault

end Registry
