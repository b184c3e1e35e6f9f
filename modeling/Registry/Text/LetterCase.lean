/-! # LetterCase — comparing words whatever the case of their letters

Three foldings. Names in a database compare by `foldAscii`, which touches `A` to `Z` only. Words
of a configuration and of the status table are matched after full Unicode case mapping; they are
ASCII words, so of that mapping only the characters matter whose image is ASCII. -/

namespace Registry.Text

-- The ASCII letters in lower case, everything else as it is.
def foldAscii (text : String) : String := String.ofList (text.toList.map Char.toLower)

-- The two names are one name for a database.
def sameName (a b : String) : Bool := foldAscii a == foldAscii b

theorem sameName_refl (a : String) : sameName a a = true := by simp [sameName]

/-- The upper-case image of a character where that image is ASCII; any other character stays,
since its image holds a character that no ASCII word has. -/
def upperImage (c : Char) : List Char :=
  match c with
  | 'ß' => ['S', 'S']
  | 'ı' => ['I']
  | 'ſ' => ['S']
  | 'ﬀ' => ['F', 'F']
  | 'ﬁ' => ['F', 'I']
  | 'ﬂ' => ['F', 'L']
  | 'ﬃ' => ['F', 'F', 'I']
  | 'ﬄ' => ['F', 'F', 'L']
  | 'ﬅ' => ['S', 'T']
  | 'ﬆ' => ['S', 'T']
  | c => [c.toUpper]

/-- A text in upper case, as far as it can be told from an ASCII word. -/
def upperCased (text : String) : String := String.ofList (text.toList.flatMap upperImage)

/-- The lower-case image of a character where that image is ASCII; the sign of the unit kelvin is
the one character outside ASCII that has such an image. -/
def lowerImage (c : Char) : Char := if c = '\u212a' then 'k' else c.toLower

/-- A text in lower case, as far as it can be told from an ASCII word. -/
def lowerCased (text : String) : String := String.ofList (text.toList.map lowerImage)

end Registry.Text
