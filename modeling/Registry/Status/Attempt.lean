import Registry.Status.Outcome
import Registry.Time.Rfc3339

/-! # Attempt — one attempt at an import

An attempt has a start, and once it is over an end and an outcome. It is shown to people as a
sentence and to programs as an object with three fields, always in the same order. -/

namespace Registry

structure Attempt where
  start : Instant
  stop : Option Instant
  outcome : Option Outcome
  deriving DecidableEq

namespace Attempt

def display (a : Attempt) : String :=
  let stop := match a.stop with
    | some stop =>
      let seconds := Instant.wholeSeconds (stop.nanosSince a.start)
      s!" and ended at {stop.text}. Processing took {seconds} seconds"
    | none => " and is still running"
  let outcome := match a.outcome with
    | some o => s!". Outcome was {o.word}"
    | none => ""
  s!"Last import started at {a.start.text}{stop}{outcome}"

/-! ## As an object -/

/-- A text between double quotes, for texts in which nothing has to be marked. -/
def plainQuoted (s : String) : String := "\"" ++ s ++ "\""

-- A field of an object that may be null.
def optionalField (name : String) (value : Option String) : String :=
  plainQuoted name ++ ":" ++ (value.map plainQuoted).getD "null"

def objectText (a : Attempt) : String :=
  let fields := [optionalField "start_time" (some a.start.zuluText),
    optionalField "end_time" (a.stop.map Instant.zuluText),
    optionalField "outcome" (a.outcome.map Outcome.word)]
  "\x7b" ++ ",".intercalate fields ++ "\x7d"

-- What follows a text, if the characters start with it.
def behind? : List Char → List Char → Option (List Char)
  | [], rest => some rest
  | c :: lead, d :: rest => if c = d then behind? lead rest else none
  | _ :: _, [] => none

-- The value of a field and what follows it.
def fieldThen? (name : String) (text : List Char) : Option (Option String × List Char) := do
  let rest ← behind? (plainQuoted name ++ ":").toList text
  match rest with
  | '"' :: rest =>
    let body := rest.takeWhile (· != '"')
    some (some (String.ofList body), ← behind? ['"'] (rest.drop body.length))
  | rest => some (none, ← behind? "null".toList rest)

/-- The value of an optional field: nothing, or what a reader makes of the text that is there. -/
def optionally {α : Type} (reader : String → Option α) : Option String → Option (Option α)
  | none => some none
  | some s => (reader s).map some

def ofObjectText? (text : String) : Option Attempt := do
  let rest ← behind? ['\x7b'] text.toList
  let (start, rest) ← fieldThen? "start_time" rest
  let (stop, rest) ← fieldThen? "end_time" (← behind? [','] rest)
  let (outcome, rest) ← fieldThen? "outcome" (← behind? [','] rest)
  let start ← Instant.ofText? (← start)
  let stop ← optionally Instant.ofText? stop
  let outcome ← optionally (fun s => (Outcome.ofWord s).toOption) outcome
  if rest = ['\x7d'] then some { start, stop, outcome } else none

end Attempt

end Registry
