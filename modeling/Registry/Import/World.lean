import Registry.Database.Pool
import Registry.Files.Tree
import Registry.History.Recorder

/-! # World — what an import works on

An import reads delivered files, writes to a database and looks at a clock. A run is one attempt at
a data set: its name, and the recorder that marks everything written in it. A parser makes of a data
set whatever writes it likes. -/

namespace Registry

structure World where
  pool : Pool
  files : Tree
  now : Instant
  deriving DecidableEq

namespace World

def database (w : World) : Database := w.pool.database

def withDatabase (w : World) (db : Database) : World := { w with pool := w.pool.withDatabase db }

end World

/-- A data set: where it is, and its path as it is shown. -/
structure DataSet where
  path : Path
  shown : String
  deriving DecidableEq

/-- One attempt at a data set. -/
structure Run where
  id : String
  recorder : Recorder

/-- Why a parser gives up on a data set. -/
inductive ParserFault where
  | outOfSequence (dataSet reason : String)
  | record (fault : RecordFault)
  | history (fault : HistoryFault)
  | unreadable (fault : FileFault)
  -- A file holds bytes that are no text.
  | notText
  | other (text : String)
  deriving DecidableEq

namespace ParserFault

def message : ParserFault → String
  | outOfSequence dataSet reason => s!"Data set '{dataSet}' is out of sequence: {reason}"
  | record fault => s!"Invalid record: {fault.message}"
  | history fault => s!"Persistence failed: {fault.message}"
  | unreadable fault => s!"IO error: {fault.message}"
  | notText => "IO error: stream did not contain valid UTF-8"
  | other text => text

def isOutOfSequence : ParserFault → Bool
  | outOfSequence .. => true
  | _ => false

end ParserFault

/-- What is made of a data set in a run: success or a fault, and the world after it. -/
abbrev Parser := DataSet → Run → World → Except ParserFault Unit × World

end Registry
