import Registry.Proofs.Import.Atomicity

/-!
# Chronicle — the ledger tells what the runs have come to

A run that has started leaves one row in its ledger, which tells when it started, when it ended and
whether it imported; any other run leaves the ledger as it was.  So behind the rows that were there
before, a ledger has those of the runs that have started, in their order.
-/

namespace Registry

open Importer

/-! ## Runs in a row -/

/-- A run: who runs, with which parser, what the database refuses, and the world that is met. -/
structure Turn where
  importer : Importer
  parser : Parser
  outage : Outage
  world : World

namespace Turn

def report (turn : Turn) : Report := turn.importer.run turn.parser turn.outage turn.world

/-- The transaction time of the run, in milliseconds. -/
def time (turn : Turn) : Int := turn.world.now.truncated.toMillis

/-- The run comes to a data set, and its start is recorded. -/
def isStarted (turn : Turn) : Bool :=
  match nextDataSet (turn.importer.opening turn.world) with
  | (.ok (some _), p) =>
    let run := runAt turn.importer.ledger.home turn.world.now
    (recordStart turn.importer.ledger turn.outage run.recorder.time p).1.isOk
  | _ => false

/-- How the run ends, if it has started. -/
def outcome? (turn : Turn) : Option Outcome :=
  match turn.report.result with
  | .ok (.imported _ _) => some .success
  | .ok _ => none
  | .error _ => if turn.isStarted then some .failure else none

/-- The row that the run leaves in its ledger, if any: its start, the clock after it, and how it ended. -/
def row? (turn : Turn) : Option Cells :=
  turn.outcome?.map fun outcome =>
    Ledger.row turn.time (some (turn.report.progress.world.now.toMillis, outcome))

end Turn

/-- The parser leaves the table of the ledger alone in the transaction that has begun for it. -/
def Parser.Spares (parser : Parser) (g : Ledger) : Prop :=
  ∀ dataSet run (w : World),
    (parser dataSet run (w.withDatabase w.database.opened)).2.database.table? g.table =
      w.database.table? g.table

/-- The run is one with the ledger, its parser leaves the ledger alone, and where the run fails after
its start, the database takes the record of the failure. -/
structure Turn.IsSound (turn : Turn) (g : Ledger) : Prop where
  ledger : turn.importer.ledger = g
  spares : turn.parser.Spares g
  recorded : turn.outcome? = some .failure → turn.outage .connectForFailure = none ∧
    turn.outage .recordFailure = none ∧ turn.report.progress.world.pool.isClosed = false

/-- Runs with a ledger one behind the other, and the database before and after them.  Between two runs
anything may change but the table of the ledger. -/
inductive Ledger.Chronicle (g : Ledger) (before : Database) : List Turn → Database → Prop where
  | nil : Chronicle g before [] before
  | next {turns : List Turn} {db : Database} {turn : Turn} (h : Chronicle g before turns db)
      (hsound : turn.IsSound g) (hsame : turn.world.database.table? g.table = db.table? g.table) :
      Chronicle g before (turns ++ [turn]) turn.report.progress.world.database

/-! ## A failure -/

namespace Importer

variable {ledger : Ledger} {outage : Outage} {p : Progress}

theorem fail_world (ledger : Ledger) (outage : Outage) (started : Bool) (p : Progress) :
    (fail ledger outage started p).world.now = p.world.now ∧
      (fail ledger outage started p).world.pool.isClosed = p.world.pool.isClosed := by
  obtain ⟨-, hpool, hnow, -⟩ := (p.call .lock).locked_spec
  have hclosed : (p.call .lock).locked.world.pool.isClosed = p.world.pool.isClosed :=
    congrArg Pool.isClosed hpool
  rw [fail_eq]
  cases started with
  | false => exact ⟨hnow, hclosed⟩
  | true =>
    rw [if_pos rfl]
    rcases (p.call .lock).locked.recordedFailure_cases ledger outage with heq | ⟨db, -, heq⟩ <;> rw [heq]
    · exact ⟨hnow, hclosed⟩
    · exact ⟨hnow, hclosed⟩

theorem database_fail_unstarted (ledger : Ledger) (outage : Outage) (p : Progress) :
    (fail ledger outage false p).world.database = p.world.database := by
  obtain ⟨-, hpool, -⟩ := (p.call .lock).locked_spec
  exact congrArg Pool.database hpool

-- A failure after the start is recorded, where the database takes the record.
theorem database_fail (hconnect : outage .connectForFailure = none)
    (hrecord : outage .recordFailure = none) (hopen : p.world.pool.isClosed = false) {db : Database}
    (hfinish : ledger.finish p.world.now .failure p.world.database = .ok db) :
    (fail ledger outage true p).world.database = db := by
  obtain ⟨-, hpool, hnow, -⟩ := (p.call .lock).locked_spec
  have hacquire : (p.call .lock).locked.connect outage .connectForFailure = .ok p.world.database := by
    rw [Progress.connect, hconnect, hpool]
    show p.world.pool.acquire = _
    rw [Pool.acquire, hopen]
    rfl
  have hnow' : (p.call .lock).locked.world.now = p.world.now := hnow
  rw [fail_eq, if_pos rfl, Progress.recordedFailure, hacquire, hrecord]
  dsimp only
  rw [hnow', hfinish]
  rfl

end Importer

/-! ## A transaction -/

section

variable {ledger : Ledger} {parser : Parser} {outage : Outage} {dataSet : DataSet} {run : Run}
variable {p q : Progress} {result : Except RunFault Unit}
variable {t : Table} {start : Int} {ending : Option (Int × Outcome)}

-- Work behind the start of an attempt leaves its row, with success where it is done.
theorem Work.adds (h : Work ledger parser outage dataSet run p (result, q))
    (hadds : ledger.Adds t start ending p.world.database)
    (hstarts : ∀ e ∈ t.rows.entries, (e.2.read Ledger.startColumn).atMost (.integer start) = true)
    (hspared : (parser dataSet run p.world).2.database.table? ledger.table =
      p.world.database.table? ledger.table) :
    ∃ ending', ledger.Adds t start ending' q.world.database ∧
      (result = .ok () → ending' = some (q.world.now.toMillis, .success)) := by
  generalize hanswer : (result, q) = answer at h
  cases h with
  | unparsed hparser | stuck hparser _ | unrecorded hparser _ _ =>
    cases hanswer
    rw [hparser] at hspared
    exact ⟨ending, hadds.congr hspared, fun hok => by cases hok⟩
  | @done world _ _ _ hparser hadvance hrecord =>
    cases hanswer
    rw [hparser] at hspared
    obtain ⟨db, hfinish, hadds'⟩ := (hadds.congr hspared).finish hstarts world.now .success
    cases hfinish.symm.trans hrecord
    exact ⟨_, hadds', fun _ => rfl⟩

theorem Database.table?_rollback (db before : Database) (name : String) :
    (db.rollback before).2.table? name = before.table? name ∨
      (db.rollback before).2.table? name = db.table? name := by
  unfold rollback
  split
  · exact .inl rfl
  · exact .inr rfl

-- A rollback goes back to the row as it was, or there is nothing to roll back.
theorem Progress.adds_rollback (hadds : ledger.Adds t start ending p.world.database)
    {ending' : Option (Int × Outcome)} (hadds' : ledger.Adds t start ending' q.world.database) :
    ∃ ending, ledger.Adds t start ending (q.rollback p.world.database).world.database := by
  rcases q.world.database.table?_rollback p.world.database ledger.table with hbefore | hundone
  · exact ⟨ending, hadds.congr hbefore⟩
  · exact ⟨ending', hadds'.congr hundone⟩

-- So does a transaction, whether it is kept, undone, or was undone before its end.
theorem Transaction.adds (h : Transaction ledger parser outage dataSet run p (result, q))
    (hadds : ledger.Adds t start ending p.world.database)
    (hstarts : ∀ e ∈ t.rows.entries, (e.2.read Ledger.startColumn).atMost (.integer start) = true)
    (hspared : (parser dataSet run p.opened.world).2.database.table? ledger.table =
      p.world.database.table? ledger.table) :
    ∃ ending', ledger.Adds t start ending' q.world.database ∧
      (result = .ok () → ending' = some (q.world.now.toMillis, .success)) := by
  have hopened : ledger.Adds t start ending p.opened.world.database := hadds.congr rfl
  generalize hanswer : (result, q) = answer at h
  cases h with
  | refused hconnect =>
    cases hanswer
    exact ⟨ending, hadds, fun hok => by cases hok⟩
  | undone hwork | uncommitted hwork _ =>
    cases hanswer
    obtain ⟨_, hadds', -⟩ := hwork.adds hopened hstarts hspared
    obtain ⟨ending', hrolled⟩ := Progress.adds_rollback hadds hadds'
    exact ⟨ending', hrolled, fun hok => by cases hok⟩
  | committed hwork hcommit =>
    cases hanswer
    obtain ⟨ending', hadds', hsuccess⟩ := hwork.adds hopened hstarts hspared
    obtain ⟨-, rfl⟩ := Database.commit_eq_ok hcommit
    exact ⟨ending', hadds'.congr rfl, fun _ => hsuccess rfl⟩

end

/-! ## A run -/

variable {turn : Turn} {g : Ledger} {t : Table}

namespace Turn

theorem outcome?_imported {runId shown : String}
    (h : turn.report.result = .ok (.imported runId shown)) : turn.outcome? = some .success := by
  rw [outcome?, h]

theorem outcome?_error {fault : RunFault} (h : turn.report.result = .error fault) :
    turn.outcome? = if turn.isStarted then some .failure else none := by
  rw [outcome?, h]

theorem isStarted_eq {name : String} {p : Progress}
    (hnext : nextDataSet (turn.importer.opening turn.world) = (.ok (some name), p)) :
    turn.isStarted = (recordStart turn.importer.ledger turn.outage
      (runAt turn.importer.ledger.home turn.world.now).recorder.time p).1.isOk := by
  rw [isStarted, hnext]

-- A run without an outcome that leaves the ledger alone.
theorem gains_nothing (hnone : turn.outcome? = none)
    (htable : turn.report.progress.world.database.table? g.table = some t) :
    ∃ t', turn.report.progress.world.database.table? g.table = some t' ∧
      t.Gains t' turn.row?.toList := by
  rw [row?, hnone]
  exact ⟨t, htable, .refl t⟩

-- A run leaves the row of its outcome, if any.
theorem IsSound.gains (hsound : turn.IsSound g)
    (htable : turn.world.database.table? g.table = some t) (ht : t.toTableDesign = g.design)
    (hstarts : ∀ e ∈ t.rows.entries,
      (e.2.read Ledger.startColumn).atMost (.integer turn.time) = true) :
    ∃ t', turn.report.progress.world.database.table? g.table = some t' ∧
      t.Gains t' turn.row?.toList := by
  obtain ⟨rfl, hspares, htakes⟩ := hsound
  have hcourse := course turn.importer turn.parser turn.outage turn.world
  have hreport : turn.report = turn.importer.run turn.parser turn.outage turn.world := rfl
  generalize turn.importer.run turn.parser turn.outage turn.world = r at hcourse hreport
  cases hcourse with
  | locked hlocked =>
    exact gains_nothing (by rw [outcome?, hreport]) (by rw [hreport]; exact htable)
  | @idle p hunlocked hnext =>
    refine gains_nothing (by rw [outcome?, hreport]) ?_
    rw [hreport, world_of_nextDataSet hnext, htable]
  | @unread fault p hunlocked hnext =>
    have hstarted : turn.isStarted = false := by rw [isStarted, hnext]
    refine gains_nothing (by rw [outcome?_error (by rw [hreport]), hstarted]; rfl) ?_
    rw [hreport, database_fail_unstarted, world_of_nextDataSet hnext, htable]
  | @unstarted name p fault hnext hstart =>
    have hstarted : turn.isStarted = false := by rw [isStarted_eq hnext, hstart]; rfl
    refine gains_nothing (by rw [outcome?_error (by rw [hreport]), hstarted]; rfl) ?_
    rw [hreport, database_fail_unstarted, world_of_nextDataSet hnext, htable]
  | @failed name p q db fault hnext hstart htransaction hrecorded =>
    have hstarted : turn.isStarted = true := by rw [isStarted_eq hnext, hrecorded]; rfl
    have houtcome : turn.outcome? = some .failure := by
      rw [outcome?_error (by rw [hreport]), hstarted]
      rfl
    obtain ⟨hnow, hclosed⟩ := fail_world turn.importer.ledger turn.outage true q
    obtain ⟨hconnect, hrecord, hopen⟩ := htakes houtcome
    rw [hreport, hclosed] at hopen
    rw [recorder_runAt] at hstart
    -- the row of the start is still the last, and is ended whatever the transaction did to it
    obtain ⟨ending, hadds, -⟩ := htransaction.adds (Ledger.adds_begin htable ht hstart) hstarts (hspares _ _ _)
    obtain ⟨after, hfinish, hended⟩ := hadds.finish hstarts q.world.now .failure
    rw [row?, houtcome, hreport, hnow, database_fail hconnect hrecord hopen hfinish]
    exact hended.gains ht
  | @imported name p q db hnext hstart htransaction hrecorded =>
    have houtcome : turn.outcome? = some .success := outcome?_imported (by rw [hreport])
    rw [recorder_runAt] at hstart
    obtain ⟨ending, hadds, hsuccess⟩ := htransaction.adds (Ledger.adds_begin htable ht hstart) hstarts
      (hspares _ _ _)
    rw [row?, houtcome, hreport]
    rw [hsuccess rfl] at hadds
    exact hadds.gains ht

-- The row that a run leaves starts at its transaction time.
theorem read_row {cells : Cells} (h : turn.row? = some cells) :
    cells.read Ledger.startColumn = .integer turn.time := by
  obtain ⟨outcome, -, rfl⟩ := Option.map_eq_some_iff.1 h
  exact Ledger.read_row _ _

end Turn

/-! ## A chronicle -/

/-- Where the transaction times of the runs do not go back, and no row of the ledger starts after any of
them, the ledger has gained exactly the rows of the runs in their order: a run that imports leaves a row
of success, one that fails after its start is recorded leaves a row of failure, each with its transaction
time and the clock after it, and any other run leaves nothing.  No row that was there before has
changed. -/
theorem Ledger.Chronicle.table_gains {before after : Database} {turns : List Turn}
    (h : g.Chronicle before turns after) (htable : before.table? g.table = some t)
    (ht : t.toTableDesign = g.design)
    (hstarts : ∀ turn ∈ turns, ∀ e ∈ t.rows.entries,
      (e.2.read Ledger.startColumn).atMost (.integer turn.time) = true)
    (htimes : turns.Pairwise fun a b => a.time ≤ b.time) :
    ∃ t', after.table? g.table = some t' ∧ t.Gains t' (turns.filterMap Turn.row?) := by
  induction h with
  | nil => exact ⟨t, htable, .refl t⟩
  | @next turns db turn h hsound hsame ih =>
    obtain ⟨hbefore, -, hlast⟩ := List.pairwise_append.1 htimes
    obtain ⟨u, hu, hgains⟩ := ih (fun earlier hmem => hstarts earlier (List.mem_append_left _ hmem)) hbefore
    have hstarts' : ∀ e ∈ u.rows.entries,
        (e.2.read Ledger.startColumn).atMost (.integer turn.time) = true := by
      obtain ⟨log, hentries, hlog⟩ := hgains.entries
      rw [hentries]
      intro e he
      rcases List.mem_append.1 he with he | he
      · exact hstarts turn (List.mem_append_right _ (List.mem_singleton_self _)) e he
      · -- a row that a run before has left
        have hmem : e.2 ∈ turns.filterMap Turn.row? := by
          rw [← hlog]
          exact List.mem_map_of_mem he
        obtain ⟨earlier, hearlier, hrow⟩ := List.mem_filterMap.1 hmem
        rw [Turn.read_row hrow, Cell.atMost_integer, decide_eq_true_eq]
        exact hlast earlier hearlier turn (List.mem_singleton_self _)
    obtain ⟨t', htable', hgains'⟩ := hsound.gains (hsame.trans hu) (hgains.design.trans ht) hstarts'
    refine ⟨t', htable', ?_⟩
    have hrows : (turns ++ [turn]).filterMap Turn.row? =
        turns.filterMap Turn.row? ++ turn.row?.toList := by
      rw [List.filterMap_append]
      cases hrow : turn.row? <;> simp [hrow]
    rw [hrows]
    exact hgains.trans hgains'

/-! ### The ledger of persons -/

def acceptingParser : Parser := fun _ _ w => (.ok (), w)

/-- The first delivery of persons is imported. -/
def importingTurn : Turn where
  importer := personImporter
  parser := acceptingParser
  outage := .none
  world := deliveredWorld

/-- A second later it is there again, and the parser gives up on it. -/
def failingTurn : Turn where
  importer := personImporter
  parser := givingUpParser
  outage := .none
  world := { deliveredWorld with
    pool := importingTurn.report.progress.world.pool
    now := .ofMillis 12000 }

theorem table_gains_persons : ∃ t t',
    deliveredWorld.database.table? personImporter.ledger.table = some t ∧
      failingTurn.report.progress.world.database.table? personImporter.ledger.table = some t' ∧
      t.Gains t' [Ledger.row 11000 (some (11000, .success)), Ledger.row 12000 (some (12000, .failure))] := by
  have himporting : importingTurn.IsSound personImporter.ledger :=
    ⟨rfl, fun _ _ _ => rfl, fun _ => ⟨rfl, rfl, by decide +kernel⟩⟩
  have hfailing : failingTurn.IsSound personImporter.ledger :=
    ⟨rfl, fun _ _ _ => rfl, fun _ => ⟨rfl, rfl, by decide +kernel⟩⟩
  have hchronicle : personImporter.ledger.Chronicle deliveredWorld.database [importingTurn, failingTurn]
      failingTurn.report.progress.world.database :=
    .next (.next .nil himporting rfl) hfailing rfl
  -- the table is as it was made, and has no rows yet
  have hmade : (deliveredWorld.database.table? personImporter.ledger.table).map
      (fun t => (t.toTableDesign, t.rows.entries)) = some (personImporter.ledger.design, []) := by
    decide +kernel
  obtain ⟨t, htable, hmade⟩ := Option.map_eq_some_iff.1 hmade
  obtain ⟨ht, hnone⟩ : t.toTableDesign = _ ∧ t.rows.entries = [] := Prod.ext_iff.1 hmade
  obtain ⟨t', htable', hgains⟩ := hchronicle.table_gains htable ht
    (fun turn _ e he => by rw [hnone] at he; cases he) (by decide +kernel)
  have hrows : [importingTurn, failingTurn].filterMap Turn.row? =
      [Ledger.row 11000 (some (11000, .success)), Ledger.row 12000 (some (12000, .failure))] := by
    decide +kernel
  exact ⟨t, t', htable, htable', hrows ▸ hgains⟩

/-- The leap second in the last second that an instant can have. -/
def lastLeap : Instant := (Instant.ofParts? lastSecond 1500000000).getD .epoch

/-- Another delivery of persons is imported at the end of time. -/
def lastTurn : Turn where
  importer := { personImporter with
    inbox := { personImporter.inbox with
      samples := .ofList [("001", ⟨0, .ofMillis 8210266876780000, .ofMillis 8210266876780000⟩)] } }
  parser := acceptingParser
  outage := .none
  world := { deliveredWorld with
    pool := importingTurn.report.progress.world.pool
    now := lastLeap }

/-- No row of the ledger starts after the clock.  But the milliseconds of the clock are those of no
instant, so the transaction time is the epoch, and the row of the run that imports is not the newest: the
row of the run before is ended once more, and that of the run stays open. -/
theorem not_table_gains_lastLeap :
    lastTurn.IsSound personImporter.ledger ∧ lastLeap.toMillis = 8210266876800500 ∧
      (lastTurn.world.database.table? personImporter.ledger.table).map (·.rows.entries) =
        some [(1, Ledger.row 11000 (some (11000, .success)))] ∧
      lastTurn.report.result.toOption = some (.imported "person-0" "inbox/person/001") ∧
      lastTurn.report.progress.world.now = lastLeap ∧
      (lastTurn.report.progress.world.database.table? personImporter.ledger.table).map
          (·.rows.entries) =
        some [(1, Ledger.row 11000 (some (8210266876800500, .success))), (2, Ledger.row 0 none)] := by
  refine ⟨⟨rfl, fun _ _ _ => rfl, fun _ => ⟨rfl, rfl, ?_⟩⟩, ?_, ?_, ?_, ?_, ?_⟩ <;> decide +kernel

end Registry
