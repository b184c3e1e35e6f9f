import Registry.Text.Blank

/-! # File — the entries of a file of settings

An entry is a line of the file, or several lines where a quotation or a backslash reaches over the
end of one. A hash sign behind a blank begins a comment that ends the entry, and a line that starts
with a hash sign is none. What is open at the end of the file is no entry either. -/

namespace Registry.SettingsFile

open Registry.Text

/-! ## Lines -/

-- The lines of a text, each with the line feed at its end.
def lines : List Char → List (List Char)
  | [] => []
  | '\n' :: rest => ['\n'] :: lines rest
  | c :: rest =>
    match lines rest with
    | [] => [[c]]
    | line :: more => (c :: line) :: more

-- Nothing is lost or added between the lines.
theorem flatten_lines (text : List Char) : (lines text).flatten = text := by
  fun_induction lines text with
  | case1 => rfl
  | case2 rest ih => simp [ih]
  | case3 c rest _ h ih => simp_all
  | case4 c rest _ line more h ih => simp_all

/-! ## Ends of entries -/

/-- Where in an entry the search for its end stands. -/
inductive Reach where
  | plain
  -- Behind a blank, where a comment may begin.
  | blank
  | escaped
  -- Between two marks of a quotation.
  | quoted (mark : Char)
  | quotedEscape (mark : Char)
  deriving DecidableEq, Repr

namespace Reach

-- The place behind a character outside of quotations.
def outside (c : Char) : Reach :=
  match c with
  | '\\' => .escaped
  | '"' | '\'' => .quoted c
  | _ => .plain

/-- The place behind a character, if no comment begins there. A blank behind a blank counts as any
other character. -/
def after? : Reach → Char → Option Reach
  | .plain, c => some (if isBlank c && c != '\n' && c != '\r' then .blank else outside c)
  | .blank, '#' => none
  | .blank, c => some (outside c)
  | .escaped, _ => some .plain
  | .quoted mark, c =>
    some (if c = '\\' then .quotedEscape mark else if c = mark then .plain else .quoted mark)
  | .quotedEscape mark, _ => some (.quoted mark)

/-- The part of a line in front of a comment, and the place at the end of the line. -/
def along : Reach → List Char → List Char × Option Reach
  | reach, [] => ([], some reach)
  | reach, c :: rest =>
    match reach.after? c with
    | none => ([], none)
    | some reach =>
      let (kept, last) := reach.along rest
      (c :: kept, last)

-- The part that is kept stands at the start of the line.
theorem along_isPrefix (reach : Reach) (line : List Char) : (reach.along line).1 <+: line := by
  induction line generalizing reach with
  | nil => simp [along]
  | cons c rest ih =>
    unfold along
    split
    · simp
    · simpa [List.cons_prefix_cons] using ih _

end Reach

/-! ## Entries -/

def isComment (line : List Char) : Bool := (trimLeft line).head? == some '#'

-- The entries of some lines, behind what has begun already.
def entriesBehind (begun : List Char) (reach : Reach) : List (List Char) → List (List Char)
  | [] => []
  | line :: rest =>
    if isComment (begun ++ line) then entriesBehind [] .plain rest
    else
      match reach.along line with
      | (_, some .plain) => (begun ++ line) :: entriesBehind [] .plain rest
      | (kept, none) => (begun ++ kept) :: entriesBehind [] .plain rest
      | (_, some reach) => entriesBehind (begun ++ line) reach rest

/-- The mark in front of a text that tells the order of its bytes. -/
def orderMark : Char := '\ufeff'

def entries (content : String) : List (List Char) :=
  let text := content.toList
  entriesBehind [] .plain (lines (if text.head? = some orderMark then text.drop 1 else text))

end Registry.SettingsFile
