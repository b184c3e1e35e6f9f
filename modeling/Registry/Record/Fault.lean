import Registry.Record.Value

/-! # Fault — why a line or a record is refused

Each cause carries what its message names. `Record.Fault.message` words all of them. -/

namespace Registry

/-- Why the characters of a field denote no value. -/
inductive FieldReading where
  | digitsExpected
  | integerOutOfRange
  | decimalExpected
  | datetimeExpected
  deriving DecidableEq, Repr

def FieldReading.message : FieldReading → String
  | digitsExpected => "expected digits"
  | integerOutOfRange => "integer out of range"
  | decimalExpected => "expected a decimal number"
  | datetimeExpected => "expected yyyyMMdd, yyyyMMddHHmm or yyyyMMddHHmmss"

/-- Why a table and its fields make up no layout. -/
inductive LayoutFault where
  | invalidTable (table : String)
  | invalidField (name : String)
  | repeatedField (name : String)
  | keyNotPersisted (key table : String)
  deriving DecidableEq, Repr

def LayoutFault.message : LayoutFault → String
  | invalidTable table => s!"'{table}' is not a valid table name"
  | invalidField name => s!"'{name}' is not a valid field name"
  | repeatedField name => s!"field '{name}' is declared twice"
  | keyNotPersisted key table => s!"key column '{key}' must be a persisted field of '{table}'"

inductive RecordFault where
  | lineLength (expected actual : Nat)
  | fieldReading (field : String) (offset : Nat) (raw : String) (reason : FieldReading)
  | unknownField (field : String)
  | ignoredField (field : String)
  | typeMismatch (field : String) (expected : FieldType) (actual : String)
  | tooWide (field : String) (width actual : Nat)
  | missingField (field : String)
  | invalidDecimal (text : String)
  | invalidLayout (fault : LayoutFault)
  deriving DecidableEq, Repr

def RecordFault.message : RecordFault → String
  | lineLength expected actual =>
    s!"Line is {actual} characters long, expected exactly {expected}"
  | fieldReading field offset raw reason =>
    s!"Field '{field}' at offset {offset} has invalid value '{raw}': {reason.message}"
  | unknownField field => s!"Field '{field}' is not part of the record specification"
  | ignoredField field => s!"Field '{field}' is ignored and cannot carry a value"
  | typeMismatch field expected actual => s!"Field '{field}' holds {actual}, expected {expected.word}"
  | tooWide field width actual =>
    s!"Field '{field}' is {actual} characters wide, at most {width} allowed"
  | missingField field => s!"Required field '{field}' is missing"
  | invalidDecimal text => s!"'{text}' is not a valid DECIMAL(10,3) value"
  | invalidLayout fault => s!"Invalid record specification: {fault.message}"

end Registry
