/-! # Level — how much an event of the log matters

A threshold lets the events of a level and of all that matter more pass, or no event at all. -/

namespace Registry.Log

inductive Level where
  | trace
  | debug
  | info
  | warn
  | error
  deriving DecidableEq, Repr

namespace Level

def word : Level → String
  | trace => "trace"
  | debug => "debug"
  | info => "info"
  | warn => "warn"
  | error => "error"

/-- The word of a level in capital letters, as an event shows it. -/
def capitals : Level → String
  | trace => "TRACE"
  | debug => "DEBUG"
  | info => "INFO"
  | warn => "WARN"
  | error => "ERROR"

/-- The number of a level; the less an event matters, the greater. -/
def number : Level → Nat
  | error => 1
  | warn => 2
  | info => 3
  | debug => 4
  | trace => 5

def all : List Level := [trace, debug, info, warn, error]

-- The level with a word.
def ofWord? (word : String) : Option Level := all.find? fun l => l.word == word

theorem ofWord?_word (l : Level) : ofWord? l.word = some l := by cases l <;> decide

end Level

-- The least important level that passes; none if nothing does.
abbrev Threshold := Option Level

namespace Threshold

/-- The number of a threshold; the more it lets pass, the greater. -/
def number : Threshold → Nat
  | none => 0
  | some l => l.number

def admits (t : Threshold) (l : Level) : Bool := l.number ≤ t.number

end Threshold

end Registry.Log
