import Registry.Settings.File
import Registry.SortedMap
import Registry.Text.Digits
import Registry.Text.WordChar

/-! # Environment — named texts that settings are read from

An environment gives texts to names. A file of entries `NAME=value` can add to it: a name that has a
text already keeps it, so of two entries for one name the first counts. -/

namespace Registry

abbrev Environment := SortedMap String String

namespace Environment

/-! ## Reading settings -/

-- The natural number of a name, if it has one below a limit.
def nat? (e : Environment) (limit : Nat) (name : String) : Option Nat :=
  (e.get? name).bind (Text.boundedNat? limit)

def int? (e : Environment) (name : String) : Option Int := (e.get? name).bind Text.signed64?

/-- The answer of a name that is set to one of the two words for it. -/
def flag? (e : Environment) (name : String) : Option Bool :=
  match e.get? name with
  | some "true" => some true
  | some "false" => some false
  | _ => none

/-! ## Entries of a file -/

def textOf (e : Environment) (name : List Char) : List Char :=
  ((e.get? (String.ofList name)).getD "").toList

/-- Where in a value the reading stands. -/
inductive Place where
  | bare
  -- Between single quotes, where every character stands for itself.
  | single
  | double
  | escaped (quoted : Bool)
  -- In a name behind a dollar sign; the name stands for its text.
  | name (quoted : Bool) (letters : List Char)
  | braced (quoted : Bool) (letters : List Char)
  -- Behind the value, where only blanks and a comment may come.
  | behind

/-- The place that a value goes on at, between double quotes or outside. -/
def Place.outer (quoted : Bool) : Place := if quoted then .double else .bare

def readValue (e : Environment) : Place → List Char → Option (List Char)
  | .bare, [] | .escaped false, [] | .behind, [] => some []
  | .name false letters, [] => some (e.textOf letters)
  | .behind, '#' :: _ => some []
  | .behind, c :: rest => if c = ' ' || c = '\t' then e.readValue .behind rest else none
  | .bare, c :: rest =>
    match c with
    | '\'' => e.readValue .single rest
    | '"' => e.readValue .double rest
    | '\\' => e.readValue (.escaped false) rest
    | '$' => e.readValue (.name false []) rest
    | ' ' | '\t' => e.readValue .behind rest
    | c => (e.readValue .bare rest).map (c :: ·)
  | .single, c :: rest =>
    if c = '\'' then e.readValue .bare rest else (e.readValue .single rest).map (c :: ·)
  | .double, c :: rest =>
    match c with
    | '"' => e.readValue .bare rest
    | '\\' => e.readValue (.escaped true) rest
    | '$' => e.readValue (.name true []) rest
    | c => (e.readValue .double rest).map (c :: ·)
  | .escaped quoted, c :: rest =>
    if ['\\', '\'', '"', '$', ' '].contains c then (e.readValue (.outer quoted) rest).map (c :: ·)
    else if c = 'n' then (e.readValue (.outer quoted) rest).map ('\n' :: ·)
    else none
  | .name quoted letters, c :: rest =>
    if Text.isWordChar c then e.readValue (.name quoted (letters ++ [c])) rest
    else if c = '\x7b' && letters.isEmpty then e.readValue (.braced quoted []) rest
    else if c = '$' then (e.readValue (.name quoted []) rest).map (e.textOf letters ++ ·)
    else (e.readValue (.outer quoted) rest).map (e.textOf letters ++ c :: ·)
  | .braced quoted letters, c :: rest =>
    if c = '\x7d' then (e.readValue (.outer quoted) rest).map (e.textOf letters ++ ·)
    else e.readValue (.braced quoted (letters ++ [c])) rest
  | _, [] => none

def isNameChar (c : Char) : Bool := c.isAlphanum || c = '_' || c = '.'

/-- A name and what stands behind it and behind blanks, if the text starts with a name. -/
def readName? (text : List Char) : Option (String × List Char) :=
  match text with
  | [] => none
  | c :: _ =>
    if c.isAlpha || c = '_' then
      some (String.ofList (text.takeWhile isNameChar), Text.trimLeft (text.dropWhile isNameChar))
    else none

/-- An entry: nothing, or a name and its text. It may start with the word `export`. -/
def readEntry (e : Environment) (entry : List Char) : Option (Option (String × String)) :=
  match Text.trim entry with
  | [] | '#' :: _ => some none
  | text => do
    let (name, behind) ← match ← readName? text with
      | ("export", '=' :: behind) => pure ("export", '=' :: behind)
      | ("export", behind) => readName? behind
      | found => pure found
    match behind with
    | '=' :: value =>
      match Text.trimLeft value with
      | [] | '#' :: _ => return some (name, "")
      | value => return some (name, String.ofList (← e.readValue .bare value))
    | _ => none

-- The environment with a text for a name that has none.
def withDefault (e : Environment) (name value : String) : Environment :=
  if e.contains name then e else e.insert name value

/-- The environment after some entries, up to the first that is not written well. -/
def withEntries (e : Environment) : List (List Char) → Environment
  | [] => e
  | entry :: rest =>
    match e.readEntry entry with
    | none => e
    | some none => e.withEntries rest
    | some (some (name, value)) => (e.withDefault name value).withEntries rest

def withFile (e : Environment) (content : String) : Environment :=
  e.withEntries (SettingsFile.entries content)

end Environment

end Registry
