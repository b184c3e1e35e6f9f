import Registry.Database.Statement.Sequence
import Registry.Files.Step
import Registry.Import.World
import Registry.Record.Line

/-! # Script — a parser that does what it is told

A scripted parser reads every file of a data set, in the order of their names, and makes a record of
each line. What it does with a record is its mode. Before and after that it may take steps on the
side, and in the end it may be told to fail. -/

namespace Registry

/-- What a parser does beside its work. -/
inductive SideStep where
  | file (step : FileStep)
  | setClock (t : Instant)
  | advanceClock (ms : Int)
  | statement (text : String)

/-- What is done with the record of a line. -/
inductive RecordMode where
  | reconcile
  | insert
  | terminate
  -- Nothing but reading it.
  | decode
  deriving DecidableEq, Repr

structure Script where
  layout : Layout
  mode : RecordMode
  before : List SideStep
  after : List SideStep
  fail : Option String
  outOfSequence : Option String

namespace Script

/-! ## Lines -/

/-- A line from its characters in reverse order, without a carriage return at its end. -/
def ended : List Char → List Char
  | '\r' :: reversed => reversed.reverse
  | reversed => reversed.reverse

/-- The lines of a text, where `reversed` holds the characters of the current line in reverse order.
A line ends at a line feed with or without a carriage return in front; nothing behind the last one
is no line. -/
def linesFrom (reversed : List Char) : List Char → List (List Char)
  | [] => if reversed.isEmpty then [] else [reversed.reverse]
  | c :: rest => if c = '\n' then ended reversed :: linesFrom [] rest else linesFrom (c :: reversed) rest

def lines (text : List Char) : List (List Char) := linesFrom [] text

/-! ## Work -/

/-- A step on the side. Only a statement can make the parser fail. -/
def sideStep (w : World) : SideStep → Except ParserFault Unit × World
  | .file step => (.ok (), { w with files := (step.run w.files).2 })
  | .setClock t => (.ok (), { w with now := t })
  | .advanceClock ms => (.ok (), { w with now := w.now.advanced ms })
  | .statement text =>
    let (answer, db) := w.database.runText Database.run text
    ((answer.map fun _ => ()).mapError fun fault => .other fault.message, w.withDatabase db)

def sideSteps (w : World) : List SideStep → Except ParserFault Unit × World
  | [] => (.ok (), w)
  | step :: rest =>
    match sideStep w step with
    | (.error fault, w) => (.error fault, w)
    | (.ok (), w) => sideSteps w rest

-- What the mode does with a record, without the answer.
def store (s : Script) (run : Run) (r : Record) (db : Database) : Except HistoryFault Unit × Database :=
  let quiet {α : Type} (e : Edit α) : Except HistoryFault Unit × Database := (e.1.map fun _ => (), e.2)
  match s.mode with
  | .reconcile => quiet (run.recorder.reconcile s.layout r db)
  | .insert => quiet (run.recorder.insert s.layout r db)
  | .terminate => quiet (run.recorder.terminate s.layout r db)
  | .decode => (.ok (), db)

def processLines (s : Script) (run : Run) (w : World) :
    List (List Char) → Except ParserFault Unit × World
  | [] => (.ok (), w)
  | line :: rest =>
    match s.layout.decodeChars line with
    | .error fault => (.error (.record fault), w)
    | .ok r =>
      match s.store run r w.database with
      | (.error fault, db) => (.error (.history fault), w.withDatabase db)
      | (.ok (), db) => s.processLines run (w.withDatabase db) rest

def processFiles (s : Script) (dataSet : DataSet) (run : Run) (w : World) :
    List String → Except ParserFault Unit × World
  | [] => (.ok (), w)
  | name :: rest =>
    match w.files.read (dataSet.path ++ [name]) with
    | .error fault => (.error (.unreadable fault), w)
    | .ok content =>
      match String.fromUTF8? content with
      | none => (.error .notText, w)
      | some text =>
        match s.processLines run w (lines text.toList) with
        | (.error fault, w) => (.error fault, w)
        | (.ok (), w) => s.processFiles dataSet run w rest

def ending (s : Script) (dataSet : DataSet) : Except ParserFault Unit :=
  match s.fail, s.outOfSequence with
  | some text, _ => .error (.other text)
  | none, some reason => .error (.outOfSequence dataSet.shown reason)
  | none, none => .ok ()

def parser (s : Script) : Parser := fun dataSet run w =>
  match sideSteps w s.before with
  | (.error fault, w) => (.error fault, w)
  | (.ok (), w) =>
    match w.files.names dataSet.path with
    | .error fault => (.error (.unreadable fault), w)
    | .ok names =>
      match s.processFiles dataSet run w names with
      | (.error fault, w) => (.error fault, w)
      | (.ok (), w) =>
        match sideSteps w s.after with
        | (.error fault, w) => (.error fault, w)
        | (.ok (), w) => (s.ending dataSet, w)

end Script

end Registry
