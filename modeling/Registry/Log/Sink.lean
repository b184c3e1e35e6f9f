import Registry.Log.Settings

/-! # Sink — what a log writes to the console and to a file

Both sinks get the events that pass the filter. The layout of a line is left open: a `Line` tells
which parts it has. -/

namespace Registry.Log

/-- An event as it is written. -/
structure Line where
  event : Event
  format : Format
  showsTarget : Bool
  -- The parts stand out by colours.
  coloured : Bool
  -- The file and the line of the source are shown.
  showsPlace : Bool
  showsThread : Bool
  deriving DecidableEq, Repr

/-- A log that takes events. -/
structure Logger where
  settings : LogSettings
  filter : Filter
  deriving DecidableEq, Repr

namespace Logger

/-- A log with some settings, where `current` is the one that there is already. There is only one
log at a time. -/
def start (current : Option Logger) (settings : LogSettings) (standing : String) :
    Except LogFault Logger :=
  match settings.filter standing, current with
  | .error fault, _ => .error fault
  | .ok _, some _ => .error .installed
  | .ok filter, none => .ok { settings, filter }

def line (l : Logger) (toConsole : Bool) (e : Event) : Line :=
  { event := e, format := l.settings.format, showsTarget := l.settings.showsTarget
    coloured := toConsole, showsPlace := l.settings.showsPlace
    showsThread := l.settings.showsThread }

def consoleLines (l : Logger) (events : List Event) : List Line :=
  if l.settings.output.hasConsole then (events.filter l.filter.passes).map (l.line true) else []

/-- The log files with what they hold of some events; the date is left out of their names. -/
def files (l : Logger) (events : List Event) : List (String × List Line) :=
  if l.settings.output.hasFile then
    let stem := l.settings.fileStem
    [(if stem = "" then "" else stem ++ ".", (events.filter l.filter.passes).map (l.line false))]
  else []

-- There is one log at a time.
theorem start_some (l : Logger) (settings : LogSettings) (standing : String) (other : Logger) :
    start (some l) settings standing ≠ .ok other := by
  unfold start
  cases settings.filter standing <;> simp

end Logger

end Registry.Log
