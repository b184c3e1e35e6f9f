import Registry.Log.Directive
import Registry.Settings.Environment
import Registry.Text.Blank

/-! # Settings — what is logged, where to, and in which form

Words for a level, a sink and a form are read whatever the case of their letters. Everything that is
not said has a usual value. -/

namespace Registry.Log

/-! ## Words -/

/-- Where events are written to. -/
inductive Output where
  | console
  | file
  | both
  deriving DecidableEq, Repr

/-- The form of a written event. -/
inductive Format where
  | text
  | json
  deriving DecidableEq, Repr

/-- Why there is no log. -/
inductive LogFault where
  | noLevel (text : String)
  | noOutput (text : String)
  | noFormat (text : String)
  | badDirective (text : String)
  -- There is a log already.
  | installed
  deriving DecidableEq, Repr

def LogFault.message : LogFault → String
  | noLevel text => s!"Invalid log level: {text}"
  | noOutput text => s!"Invalid log output: {text}"
  | noFormat text => s!"Invalid log format: {text}"
  | badDirective text => s!"Failed to parse filter directive '{text}'"
  | installed => "Failed to install tracing subscriber"

def Level.ofText (text : String) : Except LogFault Level :=
  let word := Text.lowerCased text
  match if word = "warning" then some .warn else ofWord? word with
  | some l => .ok l
  | none => .error (.noLevel text)

namespace Output

def word : Output → String
  | console => "console"
  | file => "file"
  | both => "both"

def hasConsole : Output → Bool
  | file => false
  | _ => true

def hasFile : Output → Bool
  | console => false
  | _ => true

def ofText (text : String) : Except LogFault Output :=
  match Text.lowerCased text with
  | "console" | "stdout" => .ok console
  | "file" => .ok file
  | "both" | "all" => .ok both
  | _ => .error (.noOutput text)

end Output

namespace Format

def word : Format → String
  | text => "text"
  | json => "json"

def ofText (s : String) : Except LogFault Format :=
  match Text.lowerCased s with
  | "text" | "pretty" => .ok text
  | "json" => .ok json
  | _ => .error (.noFormat s)

end Format

theorem Level.ofText_word (l : Level) : Level.ofText l.word = .ok l := by
  cases l <;> rfl

/-! ## All settings -/

structure LogSettings where
  level : Level
  output : Output
  format : Format
  directory : String
  -- What the name of a log file starts with; the date follows.
  fileStem : String
  directives : Option String
  showsPlace : Bool
  showsThread : Bool
  showsTarget : Bool
  deriving DecidableEq, Repr

namespace LogSettings

def usual : LogSettings :=
  { level := .info, output := .console, format := .text, directory := "./logs"
    fileStem := "stamdata", directives := none, showsPlace := false, showsThread := false
    showsTarget := true }

/-- The value that a reader makes of the text of a name, or the usual value where there is none. -/
def readOr {α : Type} (reader : String → Except LogFault α) (usual : α) :
    Option String → Except LogFault α
  | none => .ok usual
  | some text => reader text

def ofEnvironment (e : Environment) : Except LogFault LogSettings := do
  let level ← readOr Level.ofText usual.level (e.get? "LOG_LEVEL")
  let output ← readOr Output.ofText usual.output (e.get? "LOG_OUTPUT")
  let format ← readOr Format.ofText usual.format (e.get? "LOG_FORMAT")
  return {
    level, output, format
    directory := (e.get? "LOG_DIR").getD usual.directory
    fileStem := (e.get? "LOG_FILE_PREFIX").getD usual.fileStem
    directives := e.get? "LOG_FILTER"
    showsPlace := (e.flag? "LOG_INCLUDE_LOCATION").getD usual.showsPlace
    showsThread := (e.flag? "LOG_INCLUDE_THREAD_IDS").getD usual.showsThread
    showsTarget := (e.flag? "LOG_INCLUDE_TARGETS").getD usual.showsTarget }

/-! ## The filter -/

/-- The directives in a text, with the first one that cannot be read as a fault. -/
def readDirectives (text : String) : Except LogFault Filter :=
  (((text.splitOn ",").map Text.trimmed).filter (· != "")).mapM fun part =>
    match Directive.ofText? part with
    | some d => .ok d
    | none => .error (.badDirective part)

-- The directives in a text that can be read.
def readableDirectives (text : String) : Filter := (text.splitOn ",").filterMap Directive.ofText?

/-- The filter of settings: standing directives, then the base level, then the directives of the
settings. -/
def filter (s : LogSettings) (standing : String) : Except LogFault Filter := do
  let own ← s.directives.elim (.ok []) readDirectives
  return readableDirectives standing ++ .base (some s.level) :: own

end LogSettings

end Registry.Log
