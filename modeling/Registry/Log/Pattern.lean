import Registry.Text.Blank
import Registry.Text.WordChar

/-! # Pattern — the pattern that the value of a field is to match

A directive may ask for a value by a pattern. No event ever has such a value, so all that shows of a
pattern is whether it is one. It is read from left to right: a repetition needs something in front
of it, groups and classes have to be closed, and marks behind a question mark in parentheses set the
modes for what follows. The tables of letters are not at hand, so that what needs them is no pattern
unless the mode for them is off. -/

namespace Registry.Log.Pattern

open Registry.Text

/-- How a part of a pattern is read. -/
structure Modes where
  ignoresCase : Bool := false
  -- The pattern speaks of all characters, not only of those of ASCII.
  allCharacters : Bool := true
  -- Blanks and comments may stand in the pattern.
  spaced : Bool := false
  deriving DecidableEq, Repr

namespace Modes

/-- Letters can be compared: whatever their case, they cannot without a table. -/
def comparesLetters (m : Modes) : Bool := !(m.ignoresCase && m.allCharacters)

-- What follows blanks and comments, where these may stand.
def skip (m : Modes) (text : List Char) : List Char :=
  if m.spaced then skipSpace text else text
where
  skipSpace : List Char → List Char
    | [] => []
    | c :: rest =>
      if isBlank c then skipSpace rest
      else if c = '#' then inComment rest
      else c :: rest
  inComment : List Char → List Char
    | [] => []
    | c :: rest => if c = '\n' then skipSpace rest else inComment rest

end Modes

/-! ## Escapes -/

/-- What an escape stands for. -/
inductive Escape where
  | literal (c : Char)
  -- A byte by its number.
  | byte (n : Nat)
  -- A class by its letter.
  | kind (letter : Char)
  | place
  -- A place at the edge of a word.
  | wordEdge
  deriving DecidableEq, Repr

def metaChars : List Char :=
  ['\\', '.', '+', '*', '?', '(', ')', '|', '[', ']', '\x7b', '\x7d', '^', '$', '#', '&', '-', '~']

def controlLetters : List Char := ['a', 'f', 'n', 'r', 't', 'v']

def classLetters : List Char := ['d', 's', 'w', 'D', 'S', 'W']

def hexValue? (c : Char) : Option Nat :=
  if c.isDigit then some (c.toNat - '0'.toNat)
  else if 'a' ≤ c.toLower && c.toLower ≤ 'f' then some (c.toLower.toNat - 'a'.toNat + 10)
  else none

/-- The number of some hexadecimal digits, and what follows them. -/
def hexNumber? (m : Modes) : Nat → Nat → List Char → Option (Nat × List Char)
  | 0, n, rest => some (n, rest)
  | count + 1, n, rest =>
    match m.skip rest with
    | c :: rest => (hexValue? c).bind fun d => hexNumber? m count (16 * n + d) rest
    | [] => none

def charOf? (n : Nat) : Option Char := if h : n.isValidChar then some (Char.ofNatAux n h) else none

def escape? (m : Modes) : List Char → Option (Escape × List Char)
  | [] => none
  | c :: rest =>
    if c = 'x' then (hexNumber? m 2 0 rest).map fun (n, rest) => (.byte n, rest)
    else if c = 'u' || c = 'U' then do
      let (n, rest) ← hexNumber? m (if c = 'u' then 4 else 8) 0 rest
      return (.literal (← charOf? n), rest)
    else if classLetters.contains c then some (.kind c, rest)
    else if c = 'A' || c = 'z' then some (.place, rest)
    else if c = 'b' || c = 'B' || c = '<' || c = '>' then some (.wordEdge, rest)
    else if controlLetters.contains c || metaChars.contains c || (c.toNat < 0x80 && !c.isAlphanum) then
      some (.literal c, rest)
    else none

def lastAscii : Nat := 0x7F

def Escape.fits (m : Modes) : Escape → Bool
  | literal _ => m.comparesLetters
  | byte n => m.comparesLetters && (m.allCharacters || n ≤ lastAscii)
  | kind letter => !m.allCharacters && letter.isLower
  | place => true
  | wordEdge => !m.allCharacters

/-! ## Classes -/

def asciiClasses : List String :=
  ["alnum", "alpha", "ascii", "blank", "cntrl", "digit", "graph", "lower", "print", "punct", "space",
   "upper", "word", "xdigit"]

/-- What follows a class by name, from behind its opening bracket, and whether it is the opposite of
that class. -/
def asciiClass? (text : List Char) : Option (Bool × List Char) :=
  match text with
  | ':' :: rest =>
    let (negated, rest) := match rest with
      | '^' :: rest => (true, rest)
      | rest => (false, rest)
    let name := String.ofList (rest.takeWhile (· != ':'))
    match rest.dropWhile (· != ':') with
    | ':' :: ']' :: rest => if asciiClasses.contains name then some (negated, rest) else none
    | _ => none
  | _ => none

/-- What follows the opening of a class, from behind its bracket. Hyphens, and a closing bracket in
the first place, stand for themselves; all other characters can be meant only where the class speaks
of all characters. -/
def openClass? (m : Modes) (text : List Char) : Option (List Char) :=
  let (negated, rest) := match m.skip text with
    | '^' :: rest => (true, m.skip rest)
    | rest => (false, rest)
  if negated && !m.allCharacters then none else some (afterHyphens false rest)
where
  afterHyphens (seen : Bool) : List Char → List Char
    | '-' :: rest => afterHyphens true rest
    | ']' :: rest => if seen then ']' :: rest else rest
    | rest => rest

-- A character of a class, and what follows it.
def member? (m : Modes) : List Char → Option (Escape × List Char)
  | [] => none
  | '\\' :: rest => escape? m rest
  | c :: rest => some (.literal c, rest)

/-- The number of a character that a range may start or end with. -/
def rangeEnd? : Escape → Option Nat
  | .literal c => some c.toNat
  | .byte n => some n
  | _ => none

def fitsClass (m : Modes) : Escape → Bool
  | .literal c => m.allCharacters || c.toNat ≤ lastAscii
  | .byte n => m.allCharacters || n ≤ lastAscii
  | .kind letter => !m.allCharacters && letter.isLower
  | _ => false

/-- What follows a character or a range of characters in a class. -/
def range? (m : Modes) (text : List Char) : Option (List Char) := do
  let (first, rest) ← member? m text
  let rest := m.skip rest
  if !fitsClass m first then none
  else
    match rest with
    | '-' :: behind =>
      match m.skip behind with
      | ']' :: _ | '-' :: _ => some rest
      | behind =>
        let (last, rest) ← member? m behind
        if fitsClass m last && (← rangeEnd? first) ≤ (← rangeEnd? last) then some rest else none
    | rest => some rest

/-- What follows a class, from behind its opening, where some classes are open. -/
def class? (m : Modes) : Nat → Nat → List Char → Option (List Char)
  | 0, _, _ => none
  | fuel + 1, depth, text =>
    match m.skip text with
    | [] => none
    | '[' :: rest =>
      match asciiClass? rest with
      | some (negated, rest) =>
        if negated && !m.allCharacters then none else class? m fuel depth rest
      | none => (openClass? m rest).bind (class? m fuel (depth + 1))
    | ']' :: rest => if depth ≤ 1 then some rest else class? m fuel (depth - 1) rest
    | '&' :: '&' :: rest | '-' :: '-' :: rest | '~' :: '~' :: rest => class? m fuel depth rest
    | rest => (range? m rest).bind (class? m fuel depth)

/-! ## Groups -/

def withMark (m : Modes) (on : Bool) : Char → Option Modes
  | 'i' => some { m with ignoresCase := on }
  | 'u' => some { m with allCharacters := on }
  | 'x' => some { m with spaced := on }
  | 'm' | 's' | 'U' | 'R' => some m
  | _ => none

/-- The modes that marks set, up to the parenthesis or the colon behind them; no mark stands twice,
and one stands behind a hyphen, which turns off. -/
def marks? (on : Bool) (seen : List Char) (m : Modes) :
    List Char → Option (List Char × Modes × Char × List Char)
  | [] => none
  | c :: rest =>
    if c = ')' || c = ':' then if seen.getLast? = some '-' then none else some (seen, m, c, rest)
    else if seen.contains c then none
    else if c = '-' then marks? false (seen ++ [c]) m rest
    else (withMark m on c).bind fun m => marks? on (seen ++ [c]) m rest

-- The name of a group, up to its closing bracket.
def groupName? (text : List Char) : Option (String × List Char) :=
  let name := text.takeWhile (· != '>')
  let isFirst (c : Char) : Bool := c = '_' || (isWordChar c && !c.isDigit)
  let isLater (c : Char) : Bool := ['_', '.', '[', ']'].contains c || isWordChar c
  match name, text.dropWhile (· != '>') with
  | c :: others, '>' :: rest =>
    if isFirst c && others.all isLater then some (String.ofList name, rest) else none
  | _, _ => none

/-- What an opening parenthesis begins. -/
inductive Opening where
  -- Nothing but other modes.
  | modes (m : Modes)
  | group (m : Modes) (name : Option String)
  deriving DecidableEq, Repr

def opening? (m : Modes) (text : List Char) : Option (Opening × List Char) :=
  match m.skip text with
  | '?' :: 'P' :: '<' :: rest | '?' :: '<' :: rest =>
    (groupName? rest).map fun (name, rest) => (.group m (some name), rest)
  | '?' :: rest =>
    (marks? true [] m rest).bind fun (seen, inside, last, rest) =>
      if last = ':' then some (.group inside none, rest)
      else if seen.isEmpty then none
      else some (.modes inside, rest)
  | rest => some (.group m none, rest)

/-! ## Patterns -/

/-- A text is the rest of a pattern. The modes outside the open groups, the names that groups have,
and whether there is something in front that can be repeated, come from what was read before. -/
def isRest : Nat → Modes → List Modes → List String → Bool → List Char → Bool
  | 0, _, _, _, _, _ => false
  | fuel + 1, m, outside, names, repeatable, text =>
    let go := isRest fuel m outside names
    match m.skip text with
    | [] => outside.isEmpty
    | '(' :: rest =>
      match opening? m rest with
      | none => false
      | some (.modes m, rest) => isRest fuel m outside names false rest
      | some (.group inside name, rest) =>
        !name.any names.contains && isRest fuel inside (m :: outside) (name.toList ++ names) false rest
    | ')' :: rest =>
      match outside with
      | [] => false
      | m :: outside => isRest fuel m outside names true rest
    | '|' :: rest => go false rest
    | '[' :: rest =>
      m.comparesLetters &&
        ((openClass? m rest).bind (class? m (rest.length + 1) 1)).any (go true)
    | '*' :: '?' :: rest | '+' :: '?' :: rest | '?' :: '?' :: rest => repeatable && go true rest
    | '*' :: rest | '+' :: rest | '?' :: rest => repeatable && go true rest
    | '\x7b' :: _ => false
    | '\\' :: rest =>
      (escape? m rest).any fun (e, rest) => e.fits m && go true rest
    | '^' :: rest | '$' :: rest => go true rest
    | '.' :: rest => m.allCharacters && go true rest
    | _ :: rest => m.comparesLetters && go true rest

def isPattern (text : List Char) : Bool := isRest (text.length + 1) {} [] [] false text

end Registry.Log.Pattern
