import Registry.Log.Level
import Registry.Log.Pattern
import Registry.Number.Binary64.Shortest
import Registry.Text.Digits
import Registry.Text.LetterCase
import Registry.Text.WordChar

/-! # Directive — which events of the log pass

A directive sets a threshold for the events whose target starts with a text. Of the directives for
an event the one with the longest target decides, and of two that are alike the later one. -/

namespace Registry.Log

structure Event where
  message : String
  level : Level
  target : String
  deriving DecidableEq, Repr

/-- What an event has beside its level and its target: nothing but a message. -/
def Event.fields : List String := ["message"]

structure Directive where
  -- What the target of an event starts with; none for every event.
  target : Option String
  -- A field that an event has to have.
  field : Option String
  -- The directive is about spans of work, or about values in them, and no event is meant.
  spansOnly : Bool
  threshold : Threshold
  deriving DecidableEq, Repr

/-! ## Reading -/

/-- The threshold with a name or a number, in letters of either case. -/
def Threshold.ofText? (text : String) : Option Threshold :=
  match Text.boundedNat? 6 text with
  | some n => some (Level.all.find? fun l => l.number == n)
  | none =>
    let word := Text.foldAscii text
    if word = "off" then some none else (Level.ofWord? word).map some

namespace Directive

def base (t : Threshold) : Directive :=
  { target := none, field := none, spansOnly := false, threshold := t }

/-- The threshold behind an equals sign; everything passes where nothing is written there. -/
def levelOf? (text : List Char) : Option Threshold :=
  if text.isEmpty then some (some .trace) else Threshold.ofText? (String.ofList text)

-- What may stand behind the part in brackets.
def withTail (d : Directive) : List Char → Option Directive
  | [] => some d
  | '=' :: level => (levelOf? level).map fun t => { d with threshold := t }
  | _ => none

/-- A text says what value a field is to have: a number, or a pattern for its text. -/
def isValue (text : List Char) : Bool :=
  Pattern.isPattern text || (Binary64.ofText? (String.ofList text)).isSome

/-- The directive with a field between braces, which may be asked for a value. -/
def withField (d : Directive) (text : List Char) : Option Directive :=
  match text.takeWhile (· != '='), text.dropWhile (· != '=') with
  | [], [] => none
  | field, [] => some { d with field := some (String.ofList field) }
  | field, _ :: rest =>
    if isValue (rest.takeWhile (· != '=')) then
      some { d with field := some (String.ofList field), spansOnly := true }
    else none

/-- The directive with the part in brackets, from behind the opening one: the name of a span, a field
in braces, or both. -/
def withBrackets (d : Directive) (text : List Char) : Option Directive :=
  let isNamePart (c : Char) : Bool := c != ']' && c != '\x7b'
  let name := text.takeWhile isNamePart
  match text.dropWhile isNamePart with
  | ']' :: tail => { d with spansOnly := true }.withTail tail
  | '\x7b' :: rest => do
    let d ← { d with spansOnly := !name.isEmpty }.withField (rest.takeWhile (· != '\x7d'))
    match rest.dropWhile (· != '\x7d') with
    | '\x7d' :: ']' :: tail => d.withTail tail
    | _ => none
  | _ => none

def startsTarget (c : Char) : Bool := ['-', ':', '_'].contains c || Text.isWordChar c

/-- The directive that a text says: a threshold, or a target, and brackets and a threshold behind
it. A target alone lets everything pass. -/
def ofText? (text : String) : Option Directive :=
  let open_ : Directive := base (some .trace)
  match text.toList with
  | [] => none
  | '[' :: rest => open_.withBrackets rest
  | c :: rest =>
    if !startsTarget c then none
    else
      let ends (c : Char) : Bool := c != '=' && c != '['
      let target := String.ofList (c :: rest.takeWhile ends)
      let open_ := { open_ with target := some target }
      match rest.dropWhile ends with
      | '[' :: rest => open_.withBrackets rest
      | [] => (Threshold.ofText? target).map base |>.or (some open_)
      | tail => open_.withTail tail

/-! ## Deciding -/

def covers (d : Directive) (e : Event) : Bool :=
  !d.spansOnly && d.target.all (fun t => t.toList.isPrefixOf e.target.toList) &&
    d.field.all Event.fields.contains

/-- How closely a directive describes its events: by the length of the target, then by a field. -/
def closeness (d : Directive) : Nat :=
  2 * d.target.elim 0 (fun t => t.utf8ByteSize + 1) + d.field.elim 0 fun _ => 1

end Directive

abbrev Filter := List Directive

namespace Filter

/-- The closer one of two directives, the second one if they are equally close. -/
def closer (a? : Option Directive) (b : Directive) : Option Directive :=
  match a? with
  | some a => if b.closeness < a.closeness then some a else some b
  | none => some b

-- The directive that decides on an event.
def decisive? (f : Filter) (e : Event) : Option Directive :=
  (f.filter (·.covers e)).foldl closer none

def passes (f : Filter) (e : Event) : Bool :=
  (f.decisive? e).any fun d => d.threshold.admits e.level

end Filter

end Registry.Log
