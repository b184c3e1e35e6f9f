import Registry.Proofs.History.Timeline
import Registry.Proofs.Import.Delivery
import Registry.Proofs.Import.Session
import Registry.Proofs.Status.Newest

/-!
# Atomicity — a run keeps everything of an import, or nothing

Around its transaction a run writes to its ledger only.  So a run that does not import leaves every
other table as it was, and one that imports leaves what the calls of its parser make of them.  But a call
that finds the database full undoes the transaction, and what the parser does behind it is kept although
the commit is refused.
-/

namespace Registry

open Registry.Text
open Database (SameBesides)

/-! ## The ledger -/

namespace Ledger

variable {g : Ledger} {db db' : Database}

/-- Every table besides that of the ledger is the same in two databases. -/
def SameRegisters (g : Ledger) (a b : Database) : Prop :=
  ∀ name, foldAscii name ≠ foldAscii g.table → a.table? name = b.table? name

theorem sameRegisters_of_sameBesides (h : SameBesides g.table db db') : g.SameRegisters db db' :=
  fun _ hother => h.table?_eq hother

theorem SameRegisters.trans {other : Database} (h : g.SameRegisters db db')
    (h' : g.SameRegisters db' other) : g.SameRegisters db other :=
  fun name hother => (h name hother).trans (h' name hother)

theorem begun_finish {stop : Instant} {outcome : Outcome} (h : g.finish stop outcome db = .ok db') :
    db'.begun = db.begun := by
  unfold finish at h
  split at h
  · cases h
  dsimp only at h
  split at h
  · cases h
  · rename_i hupdate
    cases h
    exact Database.begun_update hupdate

end Ledger

variable {ledger : Ledger} {parser : Parser} {outage : Outage} {dataSet : DataSet} {run : Run}
variable {p q : Progress} {result : Except RunFault Unit}

/-! ## Failures -/

theorem sameBesides_fail (ledger : Ledger) (outage : Outage) (started : Bool) (p : Progress) :
    SameBesides ledger.table p.world.database
      (Importer.fail ledger outage started p).world.database := by
  obtain ⟨-, -, hdatabase⟩ := fail_spec ledger outage started p
  rcases hdatabase with hsame | hfinish
  · rw [hsame]
    exact SameBesides.refl _ _
  · exact Ledger.sameBesides_finish hfinish

/-! ## Work by calls -/

/-- The calls of a session on a data set. -/
def Session.callsOn (work : DataSet → Run → Tree → Instant → Session) (dataSet : DataSet) (run : Run)
    (w : World) (db : Database) : List EngineCall :=
  (work dataSet run w.files w.now).calls run.recorder db

section

variable {work : DataSet → Run → Tree → Instant → Session}

-- The calls make of the database what becomes of it, besides the record of success.
theorem Work.database
    (h : Work ledger (Session.parser work) outage dataSet run p (result, q)) :
    SameBesides ledger.table (EngineCall.replay run.recorder
        (Session.callsOn work dataSet run p.world p.world.database) p.world.database) q.world.database ∧
      q.world.database.begun = (EngineCall.replay run.recorder
        (Session.callsOn work dataSet run p.world p.world.database) p.world.database).begun := by
  generalize hanswer : (result, q) = answer at h
  cases h with
  | unparsed hparser | stuck hparser _ | unrecorded hparser _ _ =>
    cases hanswer
    rw [Session.callsOn, ← Session.parser_database hparser]
    exact ⟨SameBesides.refl _ _, rfl⟩
  | done hparser hadvance hrecord =>
    cases hanswer
    rw [Session.callsOn, ← Session.parser_database hparser]
    exact ⟨Ledger.sameBesides_finish hrecord, Ledger.begun_finish hrecord⟩

namespace Database

variable {db before : Database}

theorem begun_opened (db : Database) : db.opened.begun = some db.toContent := rfl

theorem commit_eq_ok {after : Database} (h : db.commit = .ok after) :
    db.begun ≠ none ∧ after = { db with begun := none } := by
  unfold commit at h
  split at h
  · cases h
  rename_i hbegun
  split at h
  · cases h
    exact ⟨fun hnone => hbegun (by rw [hnone]; rfl), rfl⟩
  · cases h

theorem rollback_of_begun {content : Content} (h : db.begun = some content) :
    (db.rollback before).2 = { before with changed := db.changed, clock := db.clock } := by
  rw [rollback, h]
  rfl

theorem rollback_of_not_begun (h : db.begun = none) : (db.rollback before).2 = db := by
  rw [rollback, h]
  rfl

end Database

-- A transaction that is committed has kept what its calls come to outside of one.
theorem Transaction.kept (h : Transaction ledger (Session.parser work) outage dataSet run p (.ok (), q))
    {other : Database} (hsame : SameBesides ledger.table p.world.database other)
    (hother : other.begun = none) :
    SameBesides ledger.table q.world.database (EngineCall.replay run.recorder
      (Session.callsOn work dataSet run p.world p.world.database.opened) other) := by
  generalize hanswer : (Except.ok (), q) = answer at h
  cases h with
  | refused hconnect => cases hanswer
  | undone hwork => cases hanswer
  | uncommitted hwork hcommit => cases hanswer
  | committed hwork hcommit =>
    cases hanswer
    obtain ⟨hdatabase, hbegun⟩ := hwork.database
    obtain ⟨hopen, rfl⟩ := Database.commit_eq_ok hcommit
    have hopened : SameBesides ledger.table p.world.database.opened other := ⟨hsame.1, hsame.2, hsame.3⟩
    refine SameBesides.trans ⟨hdatabase.symm.1, hdatabase.symm.2, hdatabase.symm.3⟩ ?_
    rcases EngineCall.keepOpen_or_undoes p.world.database.begun_opened run.recorder
        (Session.callsOn work dataSet run p.world p.world.database.opened) with
      hkept | ⟨front, c, back, hcalls, -, hundone⟩
    · exact hkept.same hopened hother
    · -- an undone transaction is never open again
      refine absurd (hbegun.trans ?_) hopen
      show (EngineCall.replay run.recorder
        (Session.callsOn work dataSet run p.world p.world.database.opened) p.world.database.opened).begun = none
      rw [hcalls, EngineCall.replay_append]
      exact EngineCall.begun_replay hundone.begun run.recorder back

-- Work that is not committed leaves nothing, but for what is behind a call that has undone the
-- transaction.
theorem Work.unkept (h : Work ledger (Session.parser work) outage dataSet run p.opened (result, q)) :
    ledger.SameRegisters (q.rollback p.world.database).world.database p.world.database ∨
      ∃ front c back,
        Session.callsOn work dataSet run p.world p.world.database.opened = front ++ c :: back ∧
        c.Undoes run.recorder (EngineCall.replay run.recorder front p.world.database.opened) ∧
        ∀ {other : Database}, SameBesides ledger.table p.world.database other → other.begun = none →
          SameBesides ledger.table (q.rollback p.world.database).world.database
            (EngineCall.replay run.recorder back other) := by
  obtain ⟨hdatabase, hbegun⟩ := h.database
  have hrolled : (q.rollback p.world.database).world.database =
      (q.world.database.rollback p.world.database).2 := rfl
  rcases EngineCall.keepOpen_or_undoes p.world.database.begun_opened run.recorder
      (Session.callsOn work dataSet run p.world p.world.database.opened) with
    hkept | ⟨front, c, back, hcalls, hundoes, hundone⟩
  · rw [hrolled, Database.rollback_of_begun (hbegun.trans hkept.begun)]
    exact .inl fun _ _ => rfl
  · refine .inr ⟨front, c, back, hcalls, hundoes, fun {other} hsame hother => ?_⟩
    have hreplay : EngineCall.replay run.recorder
        (Session.callsOn work dataSet run p.opened.world p.opened.world.database)
        p.opened.world.database = EngineCall.replay run.recorder back
          (c.run run.recorder (EngineCall.replay run.recorder front p.world.database.opened)).2 := by
      show EngineCall.replay run.recorder
        (Session.callsOn work dataSet run p.world p.world.database.opened) p.world.database.opened = _
      rw [hcalls, EngineCall.replay_append]
      rfl
    rw [hreplay] at hdatabase hbegun
    rw [hrolled, Database.rollback_of_not_begun
      (hbegun.trans (EngineCall.begun_replay hundone.begun run.recorder back))]
    have hundoneSame : SameBesides ledger.table p.world.database
        (c.run run.recorder (EngineCall.replay run.recorder front p.world.database.opened)).2 :=
      .of_tables (congrArg Content.tables hundone.content.symm) hundone.clock.symm
    exact hdatabase.symm.trans (EngineCall.sameBesides_replay (hundoneSame.symm.trans hsame)
      hundone.begun hother run.recorder back)

theorem Transaction.unkept {fault : RunFault}
    (h : Transaction ledger (Session.parser work) outage dataSet run p (.error fault, q)) :
    ledger.SameRegisters q.world.database p.world.database ∨
      ∃ front c back,
        Session.callsOn work dataSet run p.world p.world.database.opened = front ++ c :: back ∧
        c.Undoes run.recorder (EngineCall.replay run.recorder front p.world.database.opened) ∧
        ∀ {other : Database}, SameBesides ledger.table p.world.database other → other.begun = none →
          SameBesides ledger.table q.world.database (EngineCall.replay run.recorder back other) := by
  generalize hanswer : (Except.error fault, q) = answer at h
  cases h with
  | refused hconnect =>
    cases hanswer
    exact .inl fun _ _ => rfl
  | undone hwork =>
    cases hanswer
    exact hwork.unkept
  | uncommitted hwork hcommit =>
    cases hanswer
    exact hwork.unkept
  | committed hwork hcommit => cases hanswer

end

/-! ## The step past the data set -/

-- A transaction that is committed has gone past the data set.
theorem Transaction.advanced (h : Transaction ledger parser outage dataSet run p (.ok (), q)) :
    ∃ files after, p.inbox.advance files outage.halt = (.ok (), after, q.world.files) := by
  generalize hanswer : (Except.ok (), q) = answer at h
  cases h with
  | refused hconnect => cases hanswer
  | undone hwork => cases hanswer
  | uncommitted hwork hcommit => cases hanswer
  | @committed worked _ hwork hcommit =>
    cases hanswer
    generalize hresult : (Except.ok (), worked) = result at hwork
    cases hwork with
    | unparsed hparser => cases hresult
    | stuck hparser hadvance => cases hresult
    | unrecorded hparser hadvance hrecord => cases hresult
    | done hparser hadvance hrecord =>
      cases hresult
      exact ⟨_, _, hadvance⟩

-- Nothing is found at a data set that the inbox has moved past.
theorem Inbox.find_of_advance {b after : Inbox} {t left : Tree} {halt : Option Halt} {name : String}
    (hnames : ∀ other ∈ b.ready, Tree.isEntryName other = true) (hfirst : b.ready.head? = some name)
    (hadvance : b.advance t halt = (.ok (), after, left)) (found : Path × Entry) :
    left.find .staying (b.path ++ [name]) ≠ .ok found := by
  obtain ⟨here, entry⟩ := found
  intro hfind
  have hstep := stepsPast hnames t halt
  unfold StepsPast at hstep
  rw [hadvance] at hstep
  obtain ⟨-, head, hready, hleft⟩ := hstep
  rw [hready] at hfirst hnames
  cases hfirst
  rcases hleft with ⟨root, gone, hopen, -, hleft⟩ | ⟨hmissing, rfl⟩
  · have hpart : Tree.IsPart left t := by
      intro path other hother
      rw [hleft] at hother
      split at hother
      · cases hother
      · exact hother
    obtain ⟨root', hopen', -, hget⟩ := Tree.find_child (hnames name (List.mem_cons_self ..)) hfind
    have hroot : root' = root :=
      Except.ok.inj ((Tree.openDirectory_of_isPart hpart hopen').symm.trans hopen)
    rw [hroot, hleft, if_pos (by simp [Tree.isWithin])] at hget
    cases hget
  · rw [hmissing] at hfind
    cases hfind

/-! ## Runs -/

theorem recorder_runAt (home : String) (start : Instant) :
    (Importer.runAt home start).recorder = .pinnedAt start := by
  unfold Importer.runAt Recorder.pinnedAt
  simp only [start.truncated_truncated]

/-- The calls of a session on a data set, made behind the record that the run has started. -/
def Importer.callsOn (i : Importer) (work : DataSet → Run → Tree → Instant → Session) (w : World)
    (name : String) (started : Database) : List EngineCall :=
  Session.callsOn work (i.dataSetOf name) (Importer.runAt i.ledger.home w.now) w started.opened

/-- A database outside of any transaction. -/
def Database.outside (db : Database) : Database := { db with begun := none }

theorem Database.SameBesides.outside {name : String} {a b : Database} (h : SameBesides name a b) :
    SameBesides name a b.outside := ⟨h.others, h.design, h.clock⟩

/-- A run of a parser that works by calls either imports, and then every register is what these calls
make of it one by one at the instant of the run, and the data set is gone; or every register is just
as it was.  The only exception is a run in whose transaction a call finds the database full: it fails,
and every register is what the calls behind that one make of it. -/
theorem run_allOrNothing (i : Importer) (work : DataSet → Run → Tree → Instant → Session)
    (outage : Outage) (w : World) :
    ∃ r, r = i.run (Session.parser work) outage w ∧
      match r.result with
      | .ok (.imported _ _) => ∃ name started, i.picked w = some name ∧
          i.ledger.begin w.now.truncated w.database = .ok started ∧
          i.ledger.SameRegisters r.progress.world.database
            (EngineCall.replay (.pinnedAt w.now) (i.callsOn work w name started) w.database.outside) ∧
          ∀ found, r.progress.world.files.find .staying (i.dataSetOf name).path ≠ .ok found
      | .ok _ => i.ledger.SameRegisters r.progress.world.database w.database
      | .error _ => i.ledger.SameRegisters r.progress.world.database w.database ∨
          ∃ name started front c back, i.picked w = some name ∧
            i.ledger.begin w.now.truncated w.database = .ok started ∧
            i.callsOn work w name started = front ++ c :: back ∧
            c.Undoes (.pinnedAt w.now) (EngineCall.replay (.pinnedAt w.now) front started.opened) ∧
            i.ledger.SameRegisters r.progress.world.database
              (EngineCall.replay (.pinnedAt w.now) back w.database.outside) := by
  refine ⟨_, rfl, ?_⟩
  have hcourse := course i (Session.parser work) outage w
  generalize i.run (Session.parser work) outage w = r at hcourse ⊢
  -- What the run does around its transaction is in its ledger.
  have hfail : ∀ started (p : Progress), i.ledger.SameRegisters
      (Importer.fail i.ledger outage started p).world.database p.world.database := fun started p =>
    Ledger.sameRegisters_of_sameBesides (sameBesides_fail i.ledger outage started p).symm
  have hrecorder := recorder_runAt i.ledger.home w.now
  cases hcourse with
  | locked hlocked => exact fun _ _ => rfl
  | @unread _ p hunlocked hnext =>
    rw [← world_of_nextDataSet hnext]
    exact .inl (hfail false p)
  | @idle p hunlocked hnext =>
    rw [← world_of_nextDataSet hnext]
    exact fun _ _ => rfl
  | @unstarted _ p _ hnext hstart =>
    rw [← world_of_nextDataSet hnext]
    exact .inl (hfail false p)
  | @failed name p q started _ hnext hstart htransaction =>
    rw [hrecorder] at hstart
    have hbegun : SameBesides i.ledger.table started w.database :=
      (Ledger.sameBesides_begin hstart).symm
    rcases htransaction.unkept with hsame | ⟨front, c, back, hcalls, hundoes, hback⟩
    · exact .inl (((hfail true q).trans hsame).trans (Ledger.sameRegisters_of_sameBesides hbegun))
    · rw [hrecorder] at hundoes hback
      refine .inr ⟨name, started, front, c, back, picked_eq_some.2 ⟨p, hnext⟩, hstart, ?_, hundoes, ?_⟩
      · rw [← hcalls, Importer.callsOn, ← world_of_nextDataSet hnext]
        rfl
      · refine (hfail true q).trans (Ledger.sameRegisters_of_sameBesides ?_)
        exact hback hbegun.outside rfl
  | @imported name p q started hnext hstart htransaction =>
    rw [hrecorder] at hstart
    have hbegun : SameBesides i.ledger.table started w.database :=
      (Ledger.sameBesides_begin hstart).symm
    obtain ⟨hpath, -, -, hfirst, hnames, -⟩ := nextDataSet_spec hnext
    obtain ⟨files, after, hadvance⟩ := htransaction.advanced
    refine ⟨name, started, picked_eq_some.2 ⟨p, hnext⟩, hstart, ?_, fun found => ?_⟩
    · have hkept := htransaction.kept hbegun.outside rfl
      rw [hrecorder] at hkept
      refine Ledger.sameRegisters_of_sameBesides (hkept.trans ?_)
      rw [Importer.callsOn, ← world_of_nextDataSet hnext]
      exact SameBesides.refl _ _
    · rw [show (i.dataSetOf name).path = p.inbox.path ++ [name] by rw [hpath]; rfl]
      exact Inbox.find_of_advance hnames hfirst hadvance found

/-! ### The ages of persons -/

def ageCall : EngineCall := ⟨ageLayout, .reconcile (ageRecord 41)⟩

/-- A session that records an age and fails where that does. -/
def ageSession : DataSet → Run → Tree → Instant → Session := fun _ _ files now =>
  .call ageCall fun answer => .ended ((answer.map fun _ => ()).mapError .history) files now

/-- The delivery of persons where a register of their ages is there. -/
def ageWorld : World := deliveredWorld.withDatabase (ageLayout.createTable deliveredWorld.database).2

theorem run_allOrNothing_age :
    ∃ r, r = personImporter.run (Session.parser ageSession) .none ageWorld ∧
      r.result.toOption = some (.imported "person-11000" "inbox/person/001") ∧
      personImporter.ledger.SameRegisters r.progress.world.database
        (EngineCall.replay (.pinnedAt (.ofMillis 11000)) [ageCall] ageWorld.database.outside) := by
  obtain ⟨r, hr, hrun⟩ := run_allOrNothing personImporter ageSession .none ageWorld
  have himported : r.result.toOption = some (.imported "person-11000" "inbox/person/001") := by
    rw [hr]
    decide +kernel
  refine ⟨r, hr, himported, ?_⟩
  cases hresult : r.result with
  | error fault =>
    rw [hresult] at himported
    cases himported
  | ok outcome =>
    rw [hresult] at himported hrun
    cases himported
    obtain ⟨name, started, -, -, hsame, -⟩ := hrun
    exact hsame

/-! ### A register without numbers left -/

/-- The age that holds has the last number that there is. -/
def lastAge : Cells :=
  [("PID", .integer (2 ^ 63 - 1)), ("person", .text "ann"), ("years", .integer 41),
    ("ValidFrom", .integer 1000), ("ValidTo", .null), ("ModifiedDate", .integer 1000)]

def fullWorld : World :=
  ageWorld.withDatabase
    (((ageWorld.database.insert "age" lastAge).toOption.map (·.2)).getD ageWorld.database)

/-- A session that records the age of another person, for which there is no number, does not care, and
ends what is known of the first. -/
def carelessSession : DataSet → Run → Tree → Instant → Session := fun _ _ files now =>
  .call ⟨ageLayout, .insert (.ofList [("person", .text "bob"), ("years", .integer 7)])⟩ fun _ =>
    .call ⟨ageLayout, .terminate (ageRecord 41)⟩ fun _ => .ended (.ok ()) files now

/-- The commit is refused, as the transaction is undone already, and the end of the age is kept. -/
theorem not_run_allOrNothing_full :
    personImporter.picked fullWorld = some "001" ∧
      (personImporter.run (Session.parser carelessSession) .none fullWorld).result =
        .error (.database (.noTransaction "commit")) ∧
      ¬ personImporter.ledger.SameRegisters
        (personImporter.run (Session.parser carelessSession) .none fullWorld).progress.world.database
        fullWorld.database := by
  refine ⟨by decide +kernel, by decide +kernel, fun hsame => ?_⟩
  exact absurd (hsame "age" (by decide +kernel)) (by decide +kernel)

end Registry
