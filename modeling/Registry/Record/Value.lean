import Registry.Number.Decimal
import Registry.Time.Rfc3339

/-! # Value — what a field of a record holds

A field has one of four types, and a value has one of the four or is null. A null fits a field of
any type. -/

namespace Registry

inductive FieldType where
  | text
  | integer
  | decimal
  | datetime
  deriving DecidableEq, Repr

def FieldType.word : FieldType → String
  | .text => "text"
  | .integer => "integer"
  | .decimal => "decimal"
  | .datetime => "datetime"

inductive Value where
  | text (s : String)
  | integer (n : Int)
  | decimal (d : Decimal)
  | datetime (t : Instant)
  | null
  deriving DecidableEq

namespace Value

instance : Inhabited Value := ⟨null⟩

def kind : Value → String
  | text _ => "text"
  | integer _ => "integer"
  | decimal _ => "decimal"
  | datetime _ => "datetime"
  | null => "null"

def isNull : Value → Bool
  | null => true
  | _ => false

/-- The value may stand in a field of the type; null may stand in any. -/
def fits : Value → FieldType → Bool
  | null, _ | text _, .text | integer _, .integer | decimal _, .decimal | datetime _, .datetime => true
  | _, _ => false

def text? : Value → Option String
  | text s => some s
  | _ => none

def integer? : Value → Option Int
  | integer n => some n
  | _ => none

def decimal? : Value → Option Decimal
  | decimal d => some d
  | _ => none

def datetime? : Value → Option Instant
  | datetime t => some t
  | _ => none

/-- A value as messages show it: text between apostrophes, as it is. -/
def display : Value → String
  | text s => "'" ++ s ++ "'"
  | integer n => toString n
  | decimal d => d.text
  | datetime t => t.text
  | null => "NULL"

theorem isNull_iff {v : Value} : v.isNull = true ↔ v = null := by
  cases v <;> simp [isNull]

theorem fits_null (type : FieldType) : null.fits type = true := by
  cases type <;> rfl

end Value

end Registry
