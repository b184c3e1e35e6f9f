import Registry.Text.Flaw

/-! # Percent — bytes written as two hexadecimal digits behind a percent sign

An address of a database may hold any byte in this form. A percent sign without two digits behind it
stands for itself. -/

namespace Registry.Text

def hexValue? (b : UInt8) : Option UInt8 :=
  if 0x30 ≤ b ∧ b ≤ 0x39 then some (b - 0x30)
  else if 0x41 ≤ b ∧ b ≤ 0x46 then some (b - 0x37)
  else if 0x61 ≤ b ∧ b ≤ 0x66 then some (b - 0x57)
  else none

-- The bytes that a written form stands for.
def percentDecoded : List UInt8 → List UInt8
  | [] => []
  | 0x25 :: a :: b :: rest =>
    match hexValue? a, hexValue? b with
    | some high, some low => (high * 16 + low) :: percentDecoded rest
    | _, _ => 0x25 :: percentDecoded (a :: b :: rest)
  | byte :: rest => byte :: percentDecoded rest
termination_by bytes => bytes.length
decreasing_by all_goals simp only [List.length_cons]; omega

/-- The text that a written form stands for, if its bytes are a text. -/
def percentText (written : String) : Except Flaw String :=
  let bytes := percentDecoded written.toUTF8.data.toList
  match firstFlaw? bytes with
  | some flaw => .error flaw
  | none => .ok ((String.fromUTF8? ⟨bytes.toArray⟩).getD written)

/-- The text of one part of a form, in which a plus sign stands for a blank. -/
def formText (written : String) : String :=
  let spaced := String.ofList (written.toList.map fun c => if c = '+' then ' ' else c)
  mended (percentDecoded spaced.toUTF8.data.toList)

/-- A list of characters up to the first one of a kind, and what stands behind that one, if there is
any. -/
def cut (separator : Char) : List Char → List Char × Option (List Char)
  | [] => ([], none)
  | c :: rest =>
    if c = separator then ([], some rest)
    else
      let (left, right) := cut separator rest
      (c :: left, right)

/-- The parts of a form: names and values between ampersands; a name without a value has an empty
one. -/
def formParts (written : String) : List (String × String) :=
  ((written.splitOn "&").filter (· != "")).map fun part =>
    let (name, value) := cut '=' part.toList
    (formText (String.ofList name), formText (String.ofList (value.getD [])))

end Registry.Text
