import Registry.Database.Fault
import Registry.Number.Binary64.Shortest
import Registry.Record.Fault

/-! # Fault — why a history refuses a write or a lookup

A write or a lookup fails by the database, by the record, or by what the history finds in its
table. -/

namespace Registry

inductive HistoryFault where
  | database (fault : DatabaseFault)
  | record (fault : RecordFault)
  -- More than one row holds for one key at one instant.
  | severalCurrent (table column key : String) (count : Nat)
  | unnumbered (table : String)
  | noRow (table : String) (pid : Int)
  | wrongKind (column : String) (expected : FieldType) (actual : String)
  | notStored (column table : String)
  -- A column holds a double that no amount is near to.
  | doesNotFit (column : String) (x : Binary64)
  deriving DecidableEq

def HistoryFault.message : HistoryFault → String
  | database fault => s!"Database operation failed: {fault.message}"
  | record fault => fault.message
  | severalCurrent table column key count =>
    s!"{count} rows in '{table}' are currently valid for {column} = {key}"
  | unnumbered table => s!"Record for '{table}' has no PID and was never persisted"
  | noRow table pid => s!"No row with PID {pid} in '{table}'"
  | wrongKind column expected actual =>
    s!"Cannot bind a {actual} value to {expected.word} column '{column}'"
  | notStored column table => s!"'{column}' is not a persisted column of '{table}'"
  | doesNotFit column x =>
    s!"Column '{column}' holds an unreadable value: {x.text} does not fit DECIMAL(10,3)"

end Registry
