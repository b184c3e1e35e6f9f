import Registry.Import.World
import Registry.Inbox
import Registry.Status.Ledger

/-! # Importer — one run of an import

A run takes the first data set that is ready, records its start, and then does three things in one
transaction: the parser works on the data set, the inbox moves past it, and success is recorded.
Where anything fails, the transaction is undone, the inbox is locked, and the failure is recorded if
the start was. The first fault is the one that is reported.

A report tells, besides the outcome, which calls were made on the inbox and the parser. -/

namespace Registry

/-- Why a run fails. -/
inductive RunFault where
  | inbox (fault : InboxFault)
  | parser (fault : ParserFault)
  | status (fault : StatusFault)
  | database (fault : DatabaseFault)
  deriving DecidableEq

def RunFault.message : RunFault → String
  | inbox fault => s!"Inbox error: {fault.message}"
  | parser fault => s!"Parser error: {fault.message}"
  | status fault => s!"Status error: {fault.message}"
  | database fault => s!"Database error: {fault.message}"

inductive RunOutcome where
  | locked
  | idle
  | imported (runId : String) (dataSet : String)
  deriving DecidableEq, Repr

/-- A call on the inbox or the parser. -/
inductive Call where
  | isLocked
  | update
  | top
  | process (dataSet : DataSet)
  | advance
  | lock
  deriving DecidableEq

/-- What a run asks of its database, besides what the parser does. -/
inductive Demand where
  | connectForStart
  | recordStart
  | begin
  | recordSuccess
  | commit
  | rollback
  | connectForFailure
  | recordFailure
  deriving DecidableEq, Repr

/-- What goes wrong around a run. -/
structure Outage where
  -- The demands that the database refuses, whatever its content.
  refuses : Demand → Option DatabaseFault
  -- What stops the removal of the data set.
  halt : Option Halt

instance : CoeFun Outage fun _ => Demand → Option DatabaseFault := ⟨Outage.refuses⟩

def Outage.none : Outage := { refuses := fun _ => Option.none, halt := Option.none }

/-- The importer of one register. -/
structure Importer where
  ledger : Ledger
  inbox : Inbox

/-- What a run has come to: its importer's inbox, the world, and the calls made so far. -/
structure Progress where
  inbox : Inbox
  world : World
  calls : List Call

structure Report where
  result : Except RunFault RunOutcome
  progress : Progress

namespace Progress

def call (p : Progress) (c : Call) : Progress := { p with calls := p.calls ++ [c] }

def withDatabase (p : Progress) (db : Database) : Progress :=
  { p with world := p.world.withDatabase db }

-- The transaction that began at a database is undone, where it is still open.
def rollback (p : Progress) (before : Database) : Progress :=
  p.withDatabase (p.world.database.rollback before).2

-- The database, unless it is refused.
def connect (p : Progress) (outage : Outage) (demand : Demand) : Except DatabaseFault Database :=
  match outage demand with
  | some fault => .error fault
  | none => p.world.pool.acquire

end Progress

namespace Importer

/-! ## The steps of a run -/

-- The first data set that is ready after a look at the inbox.
def nextDataSet (p : Progress) : Except RunFault (Option String) × Progress :=
  let (updated, inbox) := p.inbox.update p.world.files p.world.now
  let p := { p.call .update with inbox }
  match updated with
  | .error fault => (.error (.inbox fault), p)
  | .ok () =>
    match inbox.top p.world.files with
    | .error fault => (.error (.inbox fault), p.call .top)
    | .ok name => (.ok name, p.call .top)

-- The start of a run, recorded outside its transaction.
def recordStart (ledger : Ledger) (outage : Outage) (start : Instant) (p : Progress) :
    Except RunFault Unit × Progress :=
  match p.connect outage .connectForStart with
  | .error fault => (.error (.database fault), p)
  | .ok db =>
    match outage .recordStart with
    | some fault => (.error (.status (.database fault)), p)
    | none =>
      match ledger.begin start db with
      | .error fault => (.error (.status fault), p)
      | .ok db => (.ok (), p.withDatabase db)

/-- What is done in the transaction: the parser's work, the step past the data set, and the record
of success. -/
def processAndAdvance (ledger : Ledger) (parser : Parser) (outage : Outage) (dataSet : DataSet)
    (run : Run) (p : Progress) : Except RunFault Unit × Progress :=
  let (parsed, world) := parser dataSet run p.world
  let p := { p.call (.process dataSet) with world }
  match parsed with
  | .error fault => (.error (.parser fault), p)
  | .ok () =>
    let (advanced, inbox, files) := p.inbox.advance p.world.files outage.halt
    let p := { p.call .advance with inbox, world := { p.world with files } }
    match advanced with
    | .error fault => (.error (.inbox fault), p)
    | .ok () =>
      match outage .recordSuccess with
      | some fault => (.error (.status (.database fault)), p)
      | none =>
        match ledger.finish p.world.now .success p.world.database with
        | .error fault => (.error (.status fault), p)
        | .ok db => (.ok (), p.withDatabase db)

def commit (outage : Outage) (before : Database) (p : Progress) : Except RunFault Unit × Progress :=
  match outage .commit with
  | some fault => (.error (.database fault), p.rollback before)
  | none =>
    match p.world.database.commit with
    | .error fault => (.error (.database fault), p.rollback before)
    | .ok db => (.ok (), p.withDatabase db)

/-- The end of a transaction that failed. A rollback that is refused is made up for when the
transaction is given back, so the database goes back all the same. -/
def rollBack (outage : Outage) (before : Database) (p : Progress) :
    Except DatabaseFault Unit × Progress :=
  match outage .rollback with
  | some fault => (.error fault, p.rollback before)
  | none => ((p.world.database.rollback before).1, p.rollback before)

def inTransaction (ledger : Ledger) (parser : Parser) (outage : Outage) (dataSet : DataSet)
    (run : Run) (p : Progress) : Except RunFault Unit × Progress :=
  match p.connect outage .begin with
  | .error fault => (.error (.database fault), p)
  | .ok before =>
    match processAndAdvance ledger parser outage dataSet run (p.withDatabase before.opened) with
    | (.error fault, p) => (.error fault, (rollBack outage before p).2)
    | (.ok (), p) => commit outage before p

/-- The failure of a run: the inbox is locked, and the failure recorded if the start was. Neither
hides why the run failed. -/
def fail (ledger : Ledger) (outage : Outage) (started : Bool) (p : Progress) : Progress :=
  let p := p.call .lock
  let p := match p.inbox.lock p.world.files with
    | .error _ => p
    | .ok files => { p with world := { p.world with files } }
  if started then
    match p.connect outage .connectForFailure with
    | .error _ => p
    | .ok db =>
      match outage .recordFailure with
      | some _ => p
      | none =>
        match ledger.finish p.world.now .failure db with
        | .error _ => p
        | .ok db => p.withDatabase db
  else p

/-! ## A run -/

-- The run for a register that starts at an instant.
def runAt (home : String) (start : Instant) : Run :=
  { id := s!"{home}-{start.truncated.toMillis}", recorder := .pinnedAt start.truncated }

def importDataSet (ledger : Ledger) (parser : Parser) (outage : Outage) (name : String)
    (p : Progress) : Report :=
  let dataSet : DataSet := { path := p.inbox.path ++ [name], shown := p.inbox.shown name }
  let run := runAt ledger.home p.world.now
  match recordStart ledger outage run.recorder.time p with
  | (.error fault, p) => { result := .error fault, progress := fail ledger outage false p }
  | (.ok (), p) =>
    match inTransaction ledger parser outage dataSet run p with
    | (.error fault, p) => { result := .error fault, progress := fail ledger outage true p }
    | (.ok (), p) => { result := .ok (.imported run.id dataSet.shown), progress := p }

/-- One run: the import of the next data set, if there is one and the inbox is not locked. -/
def run (i : Importer) (parser : Parser) (outage : Outage) (world : World) : Report :=
  let p : Progress := { inbox := i.inbox, world, calls := [.isLocked] }
  if i.inbox.isLocked world.files then { result := .ok .locked, progress := p }
  else
    match nextDataSet p with
    | (.error fault, p) => { result := .error fault, progress := fail i.ledger outage false p }
    | (.ok none, p) => { result := .ok .idle, progress := p }
    | (.ok (some name), p) => importDataSet i.ledger parser outage name p

def after (i : Importer) (r : Report) : Importer := { i with inbox := r.progress.inbox }

/-- The importer with a fresh look at its inbox, whose directory is made again if it is gone. -/
def restart (i : Importer) (world : World) : Except InboxFault Unit × Importer × World :=
  let (answer, inbox, files) := i.inbox.reopen world.files
  (answer, { i with inbox }, { world with files })

/-- The importer and the world after some runs, one behind the other; there is always one. -/
def runMany (i : Importer) (parser : Parser) (world : World) : Nat → Importer × World
  | 0 | 1 =>
    let r := i.run parser Outage.none world
    (i.after r, r.progress.world)
  | n + 1 =>
    let r := i.run parser Outage.none world
    (i.after r).runMany parser r.progress.world n

end Importer

/-! ## Setting up -/

/-- Why an importer cannot be set up. -/
inductive SetupFault where
  | inbox (home : String) (fault : InboxFault)
  | home (fault : StatusFault)
  | table (fault : StatusFault)
  deriving DecidableEq

-- The causes of a fault of an inbox, from the outermost.
def InboxFault.causes : InboxFault → List String
  | fault@(unreadable _ false cause) | fault@(notDeleted _ cause) | fault@(notLockable _ cause) =>
    [fault.message, cause.message]
  | fault@(unreadable path true cause) => [fault.message, cause.walkMessage path, cause.message]
  | fault => [fault.message]

def StatusFault.causes : StatusFault → List String
  | fault@(database cause) => [fault.message, cause.message]
  | fault => [fault.message]

def SetupFault.message : SetupFault → String
  | inbox name fault => ": ".intercalate (s!"Failed to open inbox for '{name}'" :: fault.causes)
  | home fault => fault.message
  | table fault => ": ".intercalate ("Failed to create import status table" :: fault.causes)

/-- An importer over an inbox and a ledger, with the directory and the table that they need. The
directory is made first, and stays where the rest fails. -/
def Importer.setUp (home : String) (inbox : Inbox) (maxDays : Int) (world : World) :
    Except SetupFault Importer × World :=
  let (answer, files) := inbox.establish world.files
  let world := { world with files }
  match answer with
  | .error fault => (.error (.inbox home fault), world)
  | .ok () =>
    match Ledger.open? home maxDays with
    | .error fault => (.error (.home fault), world)
    | .ok ledger =>
      match world.pool.acquire with
      | .error fault => (.error (.table (.database fault)), world)
      | .ok db =>
        match ledger.ensureTable db with
        | .error fault => (.error (.table fault), world)
        | .ok db => (.ok { ledger, inbox }, world.withDatabase db)

end Registry
