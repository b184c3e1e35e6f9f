import Registry.Import.Importer
import Registry.Proofs.Inbox.Gate

/-!
# Course — the ways in which a run goes

A run has an inner part, the work in its transaction, around that the transaction, and around both
the record of the start and the dealing with a failure.  Each part is told here as the list of its
ways, with what holds on each, so that a property of runs is seen way by way.
-/

namespace Registry

open Importer

variable {ledger : Ledger} {parser : Parser} {outage : Outage} {dataSet : DataSet} {run : Run}

namespace Progress

def parsed (p : Progress) (dataSet : DataSet) (world : World) : Progress :=
  { p.call (.process dataSet) with world }

def advanced (p : Progress) (inbox : Inbox) (files : Tree) : Progress :=
  { p.call .advance with inbox, world := { p.world with files } }

-- A transaction has just begun.
def opened (p : Progress) : Progress := p.withDatabase p.world.database.opened

theorem connect_ok {p : Progress} {demand : Demand} {db : Database}
    (h : p.connect outage demand = .ok db) : p.world.database = db := by
  unfold connect at h
  split at h
  · cases h
  · unfold Pool.acquire at h
    split at h
    · cases h
    · cases h
      rfl

end Progress

/-! ## The work in a transaction -/

/-- The ways of the work in a transaction, up to the first thing that fails. -/
inductive Work (ledger : Ledger) (parser : Parser) (outage : Outage) (dataSet : DataSet) (run : Run)
    (p : Progress) : Except RunFault Unit × Progress → Prop where
  | unparsed {fault : ParserFault} {world : World}
      (hparser : parser dataSet run p.world = (.error fault, world)) :
      Work ledger parser outage dataSet run p (.error (.parser fault), p.parsed dataSet world)
  | stuck {world : World} {fault : InboxFault} {inbox : Inbox} {files : Tree}
      (hparser : parser dataSet run p.world = (.ok (), world))
      (hadvance : p.inbox.advance world.files outage.halt = (.error fault, inbox, files)) :
      Work ledger parser outage dataSet run p
        (.error (.inbox fault), (p.parsed dataSet world).advanced inbox files)
  | unrecorded {world : World} {inbox : Inbox} {files : Tree} {fault : StatusFault}
      (hparser : parser dataSet run p.world = (.ok (), world))
      (hadvance : p.inbox.advance world.files outage.halt = (.ok (), inbox, files))
      (hrecord : (∃ refusal, outage .recordSuccess = some refusal ∧ fault = .database refusal) ∨
        ledger.finish world.now .success world.database = .error fault) :
      Work ledger parser outage dataSet run p
        (.error (.status fault), (p.parsed dataSet world).advanced inbox files)
  | done {world : World} {inbox : Inbox} {files : Tree} {db : Database}
      (hparser : parser dataSet run p.world = (.ok (), world))
      (hadvance : p.inbox.advance world.files outage.halt = (.ok (), inbox, files))
      (hrecord : ledger.finish world.now .success world.database = .ok db) :
      Work ledger parser outage dataSet run p
        (.ok (), ((p.parsed dataSet world).advanced inbox files).withDatabase db)

theorem work (ledger : Ledger) (parser : Parser) (outage : Outage) (dataSet : DataSet) (run : Run)
    (p : Progress) : Work ledger parser outage dataSet run p
      (processAndAdvance ledger parser outage dataSet run p) := by
  unfold processAndAdvance
  rcases hparser : parser dataSet run p.world with ⟨fault | _, world⟩
  · exact .unparsed hparser
  dsimp only
  rcases hadvance : (p.call (.process dataSet)).inbox.advance world.files outage.halt with
    ⟨fault | _, inbox, files⟩
  · exact .stuck hparser hadvance
  dsimp only
  cases hrefusal : outage .recordSuccess with
  | some refusal => exact .unrecorded hparser hadvance (.inl ⟨refusal, hrefusal, rfl⟩)
  | none =>
    dsimp only
    cases hrecord : ledger.finish world.now .success { world with files }.database with
    | error fault => exact .unrecorded hparser hadvance (.inr hrecord)
    | ok db => exact .done hparser hadvance hrecord

/-! ## The transaction -/

/-- The ways of a transaction that begins in a state.  Unless it is committed, the database is put
back to where it began, as far as it has not undone the transaction itself. -/
inductive Transaction (ledger : Ledger) (parser : Parser) (outage : Outage) (dataSet : DataSet)
    (run : Run) (p : Progress) : Except RunFault Unit × Progress → Prop where
  | refused {fault : DatabaseFault} (hconnect : p.connect outage .begin = .error fault) :
      Transaction ledger parser outage dataSet run p (.error (.database fault), p)
  | undone {fault : RunFault} {q : Progress}
      (hwork : Work ledger parser outage dataSet run p.opened (.error fault, q)) :
      Transaction ledger parser outage dataSet run p (.error fault, q.rollback p.world.database)
  | uncommitted {q : Progress} {fault : DatabaseFault}
      (hwork : Work ledger parser outage dataSet run p.opened (.ok (), q))
      (hcommit : outage .commit = some fault ∨ q.world.database.commit = .error fault) :
      Transaction ledger parser outage dataSet run p
        (.error (.database fault), q.rollback p.world.database)
  | committed {q : Progress} {db : Database}
      (hwork : Work ledger parser outage dataSet run p.opened (.ok (), q))
      (hcommit : q.world.database.commit = .ok db) :
      Transaction ledger parser outage dataSet run p (.ok (), q.withDatabase db)

-- Whether a rollback is refused makes no difference to what it leaves.
theorem rollBack_snd (outage : Outage) (before : Database) (p : Progress) :
    (rollBack outage before p).2 = p.rollback before := by
  unfold rollBack
  cases outage .rollback <;> rfl

theorem transaction (ledger : Ledger) (parser : Parser) (outage : Outage) (dataSet : DataSet)
    (run : Run) (p : Progress) : Transaction ledger parser outage dataSet run p
      (inTransaction ledger parser outage dataSet run p) := by
  have hwork := work ledger parser outage dataSet run p.opened
  unfold inTransaction
  cases hconnect : p.connect outage .begin with
  | error fault => exact .refused hconnect
  | ok before =>
    rw [← p.connect_ok hconnect]
    dsimp only
    rw [show p.withDatabase p.world.database.opened = p.opened from rfl]
    rcases hresult : processAndAdvance ledger parser outage dataSet run p.opened with ⟨fault | _, q⟩ <;>
      rw [hresult] at hwork
    · dsimp only
      rw [rollBack_snd]
      exact .undone hwork
    unfold commit
    dsimp only
    cases hrefusal : outage .commit with
    | some fault => exact .uncommitted hwork (.inl hrefusal)
    | none =>
      dsimp only
      cases hcommit : q.world.database.commit with
      | error fault => exact .uncommitted hwork (.inr hcommit)
      | ok db => exact .committed hwork hcommit

/-! ## The look at the inbox -/

/-- The state before a run does anything but look for the lock. -/
def Importer.opening (i : Importer) (w : World) : Progress :=
  { inbox := i.inbox, world := w, calls := [.isLocked] }

def Importer.dataSetOf (i : Importer) (name : String) : DataSet :=
  { path := i.inbox.path ++ [name], shown := i.inbox.shown name }

/-- The data set that a run takes. -/
def Importer.picked (i : Importer) (w : World) : Option String :=
  (nextDataSet (i.opening w)).1.toOption.join

theorem world_nextDataSet (p : Progress) : (nextDataSet p).2.world = p.world := by
  unfold nextDataSet
  rcases p.inbox.update p.world.files p.world.now with ⟨fault | _, inbox⟩
  · rfl
  · dsimp only
    cases inbox.top (p.call .update).world.files <;> rfl

-- The look changes nothing in the world.
theorem world_of_nextDataSet {i : Importer} {w : World} {answer : Except RunFault (Option String)}
    {p : Progress} (h : nextDataSet (i.opening w) = (answer, p)) : p.world = w := by
  have hworld := world_nextDataSet (i.opening w)
  rw [h] at hworld
  exact hworld

theorem Inbox.update_place (b : Inbox) (t : Tree) (now : Instant) :
    (b.update t now).2.path = b.path ∧ (b.update t now).2.root = b.root := by
  unfold update updateDuring
  split
  · exact ⟨rfl, rfl⟩
  dsimp only
  split
  · exact ⟨rfl, rfl⟩
  · split <;> exact ⟨rfl, rfl⟩

-- A data set that is taken is a directory in that of the inbox, and the first that is ready.
theorem nextDataSet_spec {p q : Progress} {name : String} (h : nextDataSet p = (.ok (some name), q)) :
    q.inbox.path = p.inbox.path ∧ q.inbox.root = p.inbox.root ∧
      q.calls = p.calls ++ [.update, .top] ∧ q.inbox.ready.head? = some name ∧
      (∀ other ∈ q.inbox.ready, Tree.isEntryName other = true) ∧
      ∃ root, p.world.files.openDirectory p.inbox.path = .ok root ∧
        p.world.files.get? (root ++ [name]) = some .directory := by
  have hplace := p.inbox.update_place p.world.files p.world.now
  have hupdate := p.inbox.updateDuring_spec p.world.files (fun _ => p.world.files) p.world.now
  unfold nextDataSet at h
  rcases hresult : p.inbox.update p.world.files p.world.now with ⟨fault | _, after⟩ <;>
    rw [hresult] at h hplace
  · cases h
  rw [show p.inbox.updateDuring p.world.files (fun _ => p.world.files) p.world.now = (.ok (), after)
    from hresult] at hupdate
  obtain ⟨-, names, hnames, hready⟩ := hupdate
  obtain ⟨root, hopen, hmem, -⟩ := Inbox.dataSets_spec hnames
  -- What is ready was listed by this very look.
  have hsub : ∀ other ∈ after.ready, other ∈ names := by
    intro other hother
    rw [hready] at hother
    exact (List.mem_filter.1 ((List.takeWhile_sublist _).subset hother)).1
  dsimp only at h
  cases htop : after.top (p.call .update).world.files with
  | error fault =>
    rw [htop] at h
    cases h
  | ok head =>
    rw [htop] at h
    cases h
    have hhead := (Inbox.top_eq_ok htop).symm
    refine ⟨hplace.1, hplace.2, ?_, hhead, fun other hother => ((hmem other).1 (hsub other hother)).1,
      root, hopen, ?_⟩
    · show (p.calls ++ [_]) ++ [_] = _
      rw [List.append_assoc]
      rfl
    · exact ((hmem name).1 (hsub name (List.mem_of_mem_head? hhead))).2

-- A data set is taken if the look at the inbox comes to one, and then there is no lock.
theorem picked_eq_some {i : Importer} {w : World} {name : String} :
    i.picked w = some name ↔ ∃ p, nextDataSet (i.opening w) = (.ok (some name), p) := by
  unfold Importer.picked
  rcases nextDataSet (i.opening w) with ⟨fault | _ | other, p⟩ <;>
    simp [Except.toOption]

theorem picked_of_locked {i : Importer} {w : World} (h : i.inbox.isLocked w.files = true) :
    i.picked w = none := by
  have hupdate : i.inbox.update w.files w.now = (.error (.locked i.inbox.root), i.inbox) := by
    unfold Inbox.update Inbox.updateDuring
    rw [if_pos h]
  unfold Importer.picked nextDataSet
  dsimp only [Importer.opening]
  rw [hupdate]
  rfl

/-! ## A failure -/

/-- The lock is put into the inbox, where it can be. -/
def Progress.locked (p : Progress) : Progress :=
  match p.inbox.lock p.world.files with
  | .error _ => p
  | .ok files => { p with world := { p.world with files } }

/-- The failure is recorded, where it can be. -/
def Progress.recordedFailure (p : Progress) (ledger : Ledger) (outage : Outage) : Progress :=
  match p.connect outage .connectForFailure with
  | .error _ => p
  | .ok db =>
    match outage .recordFailure with
    | some _ => p
    | none =>
      match ledger.finish p.world.now .failure db with
      | .error _ => p
      | .ok db => p.withDatabase db

theorem fail_eq (ledger : Ledger) (outage : Outage) (started : Bool) (p : Progress) :
    fail ledger outage started p =
      if started then (p.call .lock).locked.recordedFailure ledger outage
      else (p.call .lock).locked := rfl

theorem Progress.locked_spec (p : Progress) :
    p.locked.calls = p.calls ∧ p.locked.world.pool = p.world.pool ∧ p.locked.world.now = p.world.now ∧
      (p.locked.world.files = p.world.files ∨
        p.world.files.touch (p.inbox.path ++ [Inbox.lockName]) = .ok p.locked.world.files) := by
  unfold locked Inbox.lock
  cases htouch : p.world.files.touch (p.inbox.path ++ [Inbox.lockName]) with
  | error fault => exact ⟨rfl, rfl, rfl, .inl rfl⟩
  | ok files => exact ⟨rfl, rfl, rfl, .inr rfl⟩

theorem Progress.recordedFailure_cases (p : Progress) (ledger : Ledger) (outage : Outage) :
    p.recordedFailure ledger outage = p ∨
      ∃ db, ledger.finish p.world.now .failure p.world.database = .ok db ∧
        p.recordedFailure ledger outage = p.withDatabase db := by
  unfold recordedFailure
  cases hconnect : p.connect outage .connectForFailure with
  | error fault => exact .inl rfl
  | ok db =>
    rw [← p.connect_ok hconnect]
    dsimp only
    cases outage .recordFailure with
    | some fault => exact .inl rfl
    | none =>
      dsimp only
      cases hfinish : ledger.finish p.world.now .failure p.world.database with
      | error fault => exact .inl rfl
      | ok db => exact .inr ⟨db, rfl, rfl⟩

theorem Progress.recordedFailure_spec (p : Progress) (ledger : Ledger) (outage : Outage) :
    (p.recordedFailure ledger outage).calls = p.calls ∧
      (p.recordedFailure ledger outage).world.files = p.world.files ∧
      ((p.recordedFailure ledger outage).world.database = p.world.database ∨
        ledger.finish p.world.now .failure p.world.database =
          .ok (p.recordedFailure ledger outage).world.database) := by
  rcases p.recordedFailure_cases ledger outage with heq | ⟨db, hfinish, heq⟩ <;> rw [heq]
  · exact ⟨rfl, rfl, .inl rfl⟩
  · exact ⟨rfl, rfl, .inr hfinish⟩

-- A failure is dealt with by the lock in the inbox and, after a start, by its record; each may be
-- missing in the end.
theorem fail_spec (ledger : Ledger) (outage : Outage) (started : Bool) (p : Progress) :
    (fail ledger outage started p).calls = p.calls ++ [.lock] ∧
      ((fail ledger outage started p).world.files = p.world.files ∨
        p.world.files.touch (p.inbox.path ++ [Inbox.lockName]) =
          .ok (fail ledger outage started p).world.files) ∧
      ((fail ledger outage started p).world.database = p.world.database ∨
        ledger.finish p.world.now .failure p.world.database =
          .ok (fail ledger outage started p).world.database) := by
  obtain ⟨hcalls, hpool, hnow, hfiles⟩ := (p.call .lock).locked_spec
  have hdatabase : (p.call .lock).locked.world.database = p.world.database :=
    congrArg Pool.database hpool
  rw [fail_eq]
  cases started with
  | false => exact ⟨hcalls, hfiles, .inl hdatabase⟩
  | true =>
    obtain ⟨hcalls', hfiles', hdatabase'⟩ :=
      (p.call .lock).locked.recordedFailure_spec ledger outage
    rw [if_pos rfl, hfiles']
    rw [hdatabase, hnow] at hdatabase'
    exact ⟨hcalls'.trans hcalls, hfiles, hdatabase'⟩

/-! ## A run -/

/-- The ways of a run. -/
inductive Course (i : Importer) (parser : Parser) (outage : Outage) (w : World) : Report → Prop where
  | locked (hlocked : i.inbox.isLocked w.files = true) :
      Course i parser outage w { result := .ok .locked, progress := i.opening w }
  | unread {fault : RunFault} {p : Progress} (hunlocked : ¬ i.inbox.isLocked w.files = true)
      (hnext : nextDataSet (i.opening w) = (.error fault, p)) :
      Course i parser outage w { result := .error fault, progress := fail i.ledger outage false p }
  | idle {p : Progress} (hunlocked : ¬ i.inbox.isLocked w.files = true)
      (hnext : nextDataSet (i.opening w) = (.ok none, p)) :
      Course i parser outage w { result := .ok .idle, progress := p }
  | unstarted {name : String} {p : Progress} {fault : RunFault}
      (hnext : nextDataSet (i.opening w) = (.ok (some name), p))
      (hstart : recordStart i.ledger outage (runAt i.ledger.home w.now).recorder.time p =
        (.error fault, p)) :
      Course i parser outage w { result := .error fault, progress := fail i.ledger outage false p }
  | failed {name : String} {p q : Progress} {db : Database} {fault : RunFault}
      (hnext : nextDataSet (i.opening w) = (.ok (some name), p))
      (hstart : i.ledger.begin (runAt i.ledger.home w.now).recorder.time w.database = .ok db)
      (htransaction : Transaction i.ledger parser outage (i.dataSetOf name)
        (runAt i.ledger.home w.now) (p.withDatabase db) (.error fault, q))
      (hrecorded : recordStart i.ledger outage (runAt i.ledger.home w.now).recorder.time p =
        (.ok (), p.withDatabase db)) :
      Course i parser outage w { result := .error fault, progress := fail i.ledger outage true q }
  | imported {name : String} {p q : Progress} {db : Database}
      (hnext : nextDataSet (i.opening w) = (.ok (some name), p))
      (hstart : i.ledger.begin (runAt i.ledger.home w.now).recorder.time w.database = .ok db)
      (htransaction : Transaction i.ledger parser outage (i.dataSetOf name)
        (runAt i.ledger.home w.now) (p.withDatabase db) (.ok (), q))
      (hrecorded : recordStart i.ledger outage (runAt i.ledger.home w.now).recorder.time p =
        (.ok (), p.withDatabase db)) :
      Course i parser outage w
        { result := .ok (.imported (runAt i.ledger.home w.now).id (i.inbox.shown name)), progress := q }

theorem recordStart_error {start : Instant} {p q : Progress} {fault : RunFault}
    (h : recordStart ledger outage start p = (.error fault, q)) : q = p := by
  unfold recordStart at h
  split at h
  · cases h
    rfl
  split at h
  · cases h
    rfl
  split at h
  · cases h
    rfl
  · cases h

theorem recordStart_ok {start : Instant} {p q : Progress}
    (h : recordStart ledger outage start p = (.ok (), q)) :
    ∃ db, ledger.begin start p.world.database = .ok db ∧ q = p.withDatabase db := by
  unfold recordStart at h
  split at h
  · cases h
  rename_i db hconnect
  split at h
  · cases h
  split at h
  · cases h
  rename_i started hbegin
  cases h
  exact ⟨started, by rw [p.connect_ok hconnect, hbegin], rfl⟩

theorem course (i : Importer) (parser : Parser) (outage : Outage) (w : World) :
    Course i parser outage w (i.run parser outage w) := by
  unfold Importer.run
  dsimp only
  -- One case for each way out: the lock, the look, the start, the transaction.
  by_cases hlocked : i.inbox.isLocked w.files = true
  · rw [if_pos hlocked]
    exact .locked hlocked
  rw [if_neg hlocked]
  rcases hnext : nextDataSet { inbox := i.inbox, world := w, calls := [.isLocked] } with
    ⟨fault | _ | name, p⟩
  · exact .unread hlocked hnext
  · exact .idle hlocked hnext
  obtain ⟨hpath, hroot, -⟩ := nextDataSet_spec hnext
  have hworld : p.world = w := world_of_nextDataSet hnext
  dsimp only at hpath hroot ⊢
  unfold importDataSet
  dsimp only
  have hshown : p.inbox.shown name = i.inbox.shown name := by
    rw [Inbox.shown, hroot]
    rfl
  rw [hpath, hworld, hshown, show ({ path := i.inbox.path ++ [name], shown := i.inbox.shown name } :
    DataSet) = i.dataSetOf name from rfl]
  rcases hstart : recordStart i.ledger outage (runAt i.ledger.home w.now).recorder.time p with
    ⟨fault | _, q⟩
  · have hsame := recordStart_error hstart
    rw [hsame] at hstart ⊢
    exact .unstarted hnext hstart
  obtain ⟨db, hbegin, hq⟩ := recordStart_ok hstart
  rw [hworld] at hbegin
  rw [hq] at hstart ⊢
  dsimp only
  have htransaction := transaction i.ledger parser outage (i.dataSetOf name)
    (runAt i.ledger.home w.now) (p.withDatabase db)
  rcases hresult : inTransaction i.ledger parser outage (i.dataSetOf name)
    (runAt i.ledger.home w.now) (p.withDatabase db) with ⟨fault | _, r⟩ <;>
    rw [hresult] at htransaction
  · exact .failed hnext hbegin htransaction hstart
  · exact .imported hnext hbegin htransaction hstart

end Registry
