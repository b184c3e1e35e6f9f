import Registry.Database.Cell
import Registry.Text.LetterCase

/-! # Token — what a text of statements consists of

White space and comments stand between the tokens. A token keeps the characters that it is written
with, since a complaint about it shows them. Characters that begin no token, and texts that are not
closed, are broken tokens. -/

namespace Registry.Statement

open Registry.Text

inductive Token.Kind where
  | word
  -- A name between marks.
  | name (value : String)
  -- A text between apostrophes.
  | text (value : String)
  | number
  | parameter
  | mark
  | broken
  deriving DecidableEq, Repr

structure Token where
  kind : Token.Kind
  written : String
  deriving DecidableEq, Repr

namespace Token

/-! ## Characters -/

def continuesWord (c : Char) : Bool :=
  c.isAlphanum || c == '_' || c == '$' || 0x80 ≤ c.toNat

def startsWord (c : Char) : Bool := c.isAlpha || c == '_' || 0x80 ≤ c.toNat

def startsSpace (c : Char) : Bool :=
  c == ' ' || c == '\t' || c == '\n' || c == '\x0c' || c == '\r' || c == '\ufeff'

def isHexDigit (c : Char) : Bool := c.isDigit || ('a' ≤ c.toLower && c.toLower ≤ 'f')

/-! ## Parts of tokens -/

/-- The characters up to a closing mark, where two marks stand for one; then the characters as they
are written, with the mark, and the rest. There is no answer where the mark never comes. -/
def enclosed? (mark : Char) : List Char → Option (List Char × List Char × List Char)
  | [] => none
  | c :: d :: rest =>
    if c = mark then
      if d = mark then
        (enclosed? mark rest).map fun (value, written, rest) => (c :: value, c :: d :: written, rest)
      else some ([], [c], d :: rest)
    else
      (enclosed? mark (d :: rest)).map fun (value, written, rest) => (c :: value, c :: written, rest)
  | [c] => if c = mark then some ([], [c], []) else none

-- Digits, with low lines between them, and what follows them.
def digits (isDigit : Char → Bool) : List Char → List Char × List Char
  | '_' :: c :: rest =>
    if isDigit c then
      let (ds, rest) := digits isDigit rest
      ('_' :: c :: ds, rest)
    else ([], '_' :: c :: rest)
  | c :: rest =>
    if isDigit c then
      let (ds, rest) := digits isDigit rest
      (c :: ds, rest)
    else ([], c :: rest)
  | [] => ([], [])

def exponent : List Char → List Char × List Char
  | e :: rest =>
    let (sign, behind) := match rest with
      | '+' :: behind => (['+'], behind)
      | '-' :: behind => (['-'], behind)
      | rest => ([], rest)
    if (e = 'e' || e = 'E') && behind.head?.any Char.isDigit then
      let (ds, rest) := digits Char.isDigit behind
      (e :: (sign ++ ds), rest)
    else ([], e :: rest)
  | [] => ([], [])

def number (text : List Char) : List Char × List Char :=
  match text with
  | '0' :: x :: c :: rest =>
    if (x = 'x' || x = 'X') && isHexDigit c then
      let (ds, rest) := digits isHexDigit (c :: rest)
      ('0' :: x :: ds, rest)
    else decimal text
  | text => decimal text
where
  decimal (text : List Char) : List Char × List Char :=
    let (whole, rest) := digits Char.isDigit text
    let (fraction, rest) := match rest with
      | '.' :: rest => ((digits Char.isDigit rest).1.cons '.', (digits Char.isDigit rest).2)
      | rest => ([], rest)
    let (power, rest) := exponent rest
    (whole ++ fraction ++ power, rest)

-- The marks of two characters and more.
def longMarks : List String := ["->>", "->", "||", "<=", "<>", "<<", ">=", ">>", "==", "!="]

def shortMarks : List Char :=
  ['(', ')', ';', '+', '-', '*', '/', '%', '=', '<', '>', '|', ',', '&', '~', '.']

/-! ## Tokens -/

def ofChars (kind : Kind) (written : List Char) : Token := ⟨kind, String.ofList written⟩

def between (opening closing : Char) (kind : String → Kind) (rest : List Char) : Token × List Char :=
  match enclosed? closing rest with
  | some (value, written, rest) => (ofChars (kind (String.ofList value)) (opening :: written), rest)
  | none => (ofChars .broken (opening :: rest), [])

-- The token that begins with a character, and what follows it.
def next (c : Char) (rest : List Char) : Token × List Char :=
  if c = '\'' then between c c .text rest
  else if c = '"' || c = '\x60' then between c c .name rest
  else if c = '[' then
    match rest.dropWhile (· != ']') with
    | _ :: behind =>
      let value := rest.takeWhile (· != ']')
      (ofChars (.name (String.ofList value)) (c :: value ++ [']']), behind)
    | [] => (ofChars .broken (c :: rest), [])
  else if c.isDigit || (c = '.' && rest.head?.any Char.isDigit) then
    let (written, behind) := number (c :: rest)
    let more := behind.takeWhile continuesWord
    (ofChars (if more.isEmpty then .number else .broken) (written ++ more),
      behind.dropWhile continuesWord)
  else if startsWord c then
    (ofChars .word (c :: rest.takeWhile continuesWord), rest.dropWhile continuesWord)
  else if c = '?' then
    (ofChars .parameter (c :: rest.takeWhile Char.isDigit), rest.dropWhile Char.isDigit)
  else if c = ':' || c = '@' || c = '$' || c = '#' then
    let name := rest.takeWhile continuesWord
    (ofChars (if name.isEmpty then .broken else .parameter) (c :: name),
      rest.dropWhile continuesWord)
  else
    match longMarks.find? fun m => m.toList.isPrefixOf (c :: rest) with
    | some m => (⟨.mark, m⟩, (c :: rest).drop m.length)
    | none => (ofChars (if shortMarks.contains c then .mark else .broken) [c], rest)

def behindComment? : List Char → Option (List Char)
  | '-' :: '-' :: rest => some (rest.dropWhile (· != '\n'))
  | '/' :: '*' :: c :: rest => some (behindStar (c :: rest))
  | _ => none
where
  behindStar : List Char → List Char
    | '*' :: '/' :: rest => rest
    | _ :: rest => behindStar rest
    | [] => []

def allWithin : Nat → List Char → List Token
  | 0, _ | _, [] => []
  | bound + 1, c :: rest =>
    match behindComment? (c :: rest) with
    | some rest => allWithin bound rest
    | none =>
      if startsSpace c then allWithin bound (rest.dropWhile Cell.isSpace)
      else
        let (token, rest) := next c rest
        token :: allWithin bound rest

-- The tokens of a text, which ends before a character zero.
def all (text : String) : List Token :=
  allWithin text.length (text.toList.takeWhile (· != '\x00'))

/-! ## Values -/

def isWord (word : String) (t : Token) : Bool := t.kind == .word && sameName word t.written

def isMark (mark : String) (t : Token) : Bool := t.kind == .mark && t.written == mark

def hexNumber (ds : List Char) : Nat :=
  ds.foldl (fun n c =>
    16 * n + if c.isDigit then c.toNat - '0'.toNat else c.toLower.toNat - 'a'.toNat + 10) 0

end Token

end Registry.Statement
