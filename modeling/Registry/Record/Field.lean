import Registry.Record.Value

/-! # Field — one fixed-width field of a record

A field has a name, a type and a width, and four marks. What a mark brings with it is part of the
type: an ignored field is neither stored nor required, and a computed one is not required. -/

namespace Registry

structure Field where
  name : String
  type : FieldType
  width : Nat
  -- The table has a column for the field.
  persisted : Bool
  -- A record may do without the field.
  optional : Bool
  -- The line has characters for the field, and nobody reads them.
  ignored : Bool
  -- The line has no characters for the field.
  computed : Bool
  not_persisted_of_ignored : ignored = true → persisted = false := by simp
  optional_of_ignored : ignored = true → optional = true := by simp
  optional_of_computed : computed = true → optional = true := by simp
  deriving DecidableEq

namespace Field

def required (name : String) (width : Nat) : Field :=
  { name, type := .text, width, persisted := true, optional := false, ignored := false,
    computed := false }

def withType (f : Field) (type : FieldType) : Field := { f with type }

def asOptional (f : Field) : Field :=
  { f with optional := true, optional_of_ignored := fun _ => rfl, optional_of_computed := fun _ => rfl }

-- The field as one that is read from a line and has no column.
def notPersisted (f : Field) : Field :=
  { f with persisted := false, not_persisted_of_ignored := fun _ => rfl }

-- The field as one that is skipped in a line.
def asIgnored (f : Field) : Field :=
  { f with
    ignored := true, persisted := false, optional := true
    not_persisted_of_ignored := fun _ => rfl
    optional_of_ignored := fun _ => rfl
    optional_of_computed := fun _ => rfl }

-- The field as one that is set after a line has been read.
def asComputed (f : Field) : Field :=
  { f with
    computed := true, optional := true
    optional_of_ignored := fun _ => rfl
    optional_of_computed := fun _ => rfl }

def filler (name : String) (width : Nat) : Field := (required name width).asIgnored

-- The number of characters that a line has for the field.
def lineWidth (f : Field) : Nat := if f.computed then 0 else f.width

end Field

end Registry
