import Registry.Record.Draft
import Registry.Text.Blank
import Registry.Time.Compact

/-! # Line — records in lines of fixed width

A line is as many characters long as the fields of its layout together. Each field owns a slice of
the line; blanks around the content are padding. Ignored fields are skipped, and computed fields
have no slice. -/

namespace Registry

open Registry.Text

-- The largest integer of 64 bits.
def largestInteger : Nat := 2 ^ 63 - 1

namespace FieldType

/-- The value that the characters of a field denote, without the padding. -/
def read (type : FieldType) (content : List Char) : Except FieldReading Value :=
  match type with
  | .text => .ok (.text (String.ofList content))
  | .integer =>
    if content.isEmpty || !allDigits content then .error .digitsExpected
    else if largestInteger < natOfDigits content then .error .integerOutOfRange
    else .ok (.integer (natOfDigits content))
  | .decimal =>
    match Decimal.ofDigits? content with
    | some d => .ok (.decimal d)
    | none => .error .decimalExpected
  | .datetime =>
    match Instant.ofCompact? content with
    | some t => .ok (.datetime t)
    | none => .error .datetimeExpected

end FieldType

-- The value in the slice of a field that starts at an offset.
def Field.read (f : Field) (offset : Nat) (slice : List Char) : Except RecordFault Value :=
  match f.type.read (trim slice) with
  | .ok v => .ok v
  | .error reason => .error (.fieldReading f.name offset (String.ofList slice) reason)

namespace Draft

/-- The draft after the fields in the rest of a line, which starts at an offset. -/
def readFields (d : Draft) (offset : Nat) (line : List Char) : List Field → Except RecordFault Draft
  | [] => .ok d
  | f :: rest =>
    if f.computed then d.readFields offset line rest
    else if f.ignored then d.readFields (offset + f.width) (line.drop f.width) rest
    else
      match f.read offset (line.take f.width) with
      | .error fault => .error fault
      | .ok v =>
        match d.put f.name v with
        | .error fault => .error fault
        | .ok d => d.readFields (offset + f.width) (line.drop f.width) rest

end Draft

namespace Layout

def decodeChars (l : Layout) (line : List Char) : Except RecordFault Record :=
  if line.length ≠ l.width then .error (.lineLength l.width line.length)
  else
    match (Draft.start l).readFields 0 line l.fields with
    | .error fault => .error fault
    | .ok d => d.finish

def decode (l : Layout) (line : String) : Except RecordFault Record := l.decodeChars line.toList

end Layout

end Registry
