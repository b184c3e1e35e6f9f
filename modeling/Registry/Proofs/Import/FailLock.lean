import Mathlib.Control.Monad.Basic
import Registry.Proofs.Files.Presence
import Registry.Proofs.Import.Delivery

/-!
# FailLock — a run that fails locks the inbox, and the lock stands

A run reports the fault of the step that failed first, whatever becomes of the rollback, the lock and the
record of the failure.  Where the lock can be put into the inbox, it is there after a run that failed.
From then on every run finds it and does nothing, however the files and the clock are changed from
outside, as long as the directory of the inbox and the lock in it are left alone.
-/

namespace Registry

open Importer

/-! ## The first fault -/

/-- Whether the database grants a demand. -/
def Outage.grant (outage : Outage) (demand : Demand) : Except DatabaseFault Unit :=
  match outage demand with
  | some fault => .error fault
  | Option.none => .ok ()

/-- The steps in the transaction of a run one behind the other, up to the first that fails. -/
def attemptTransaction (ledger : Ledger) (parser : Parser) (outage : Outage) (dataSet : DataSet)
    (run : Run) (inbox : Inbox) (w : World) : Except RunFault Unit := do
  (outage.grant .begin).mapError .database
  let db ← w.pool.acquire.mapError .database
  let (parsed, w) := parser dataSet run (w.withDatabase db.opened)
  parsed.mapError .parser
  let (advanced, _, _) := inbox.advance w.files outage.halt
  advanced.mapError .inbox
  (outage.grant .recordSuccess).mapError (.status ∘ .database)
  let db ← (ledger.finish w.now .success w.database).mapError .status
  (outage.grant .commit).mapError .database
  let _ ← db.commit.mapError .database
  return ()

/-- The steps of a run one behind the other, up to the first that fails. Nothing is done about the
failure. -/
def Importer.attempt (i : Importer) (parser : Parser) (outage : Outage) (w : World) :
    Except RunFault RunOutcome := do
  if i.inbox.isLocked w.files then return .locked
  let (updated, inbox) := i.inbox.update w.files w.now
  updated.mapError .inbox
  match ← (inbox.top w.files).mapError .inbox with
  | none => return .idle
  | some name =>
    let run := runAt i.ledger.home w.now
    (outage.grant .connectForStart).mapError .database
    let db ← w.pool.acquire.mapError .database
    (outage.grant .recordStart).mapError (.status ∘ .database)
    let db ← (i.ledger.begin run.recorder.time db).mapError .status
    attemptTransaction i.ledger parser outage (i.dataSetOf name) run inbox (w.withDatabase db)
    return .imported run.id (i.inbox.shown name)

theorem fst_inTransaction (ledger : Ledger) (parser : Parser) (outage : Outage) (dataSet : DataSet)
    (run : Run) (p : Progress) : (inTransaction ledger parser outage dataSet run p).1 =
      attemptTransaction ledger parser outage dataSet run p.inbox p.world := by
  unfold inTransaction attemptTransaction Progress.connect Outage.grant processAndAdvance commit
  dsimp only [bind, Except.bind, pure, Except.pure]
  -- One case for each step that may fail, in the order of the steps.
  cases outage .begin with
  | some fault => rfl
  | none =>
  dsimp only [Except.mapError]
  cases p.world.pool.acquire with
  | error fault => rfl
  | ok before =>
  dsimp only
  dsimp only [Progress.withDatabase]
  rcases parser dataSet run (p.world.withDatabase before.opened) with ⟨fault | _, world⟩
  · rfl
  dsimp only [Progress.call]
  rcases p.inbox.advance world.files outage.halt with ⟨fault | _, inbox, files⟩
  · rfl
  dsimp only
  cases outage .recordSuccess with
  | some fault => rfl
  | none =>
  dsimp only [World.database]
  cases ledger.finish world.now .success world.pool.database with
  | error fault => rfl
  | ok db =>
  dsimp only
  cases outage .commit with
  | some fault => rfl
  | none =>
  dsimp only [Progress.withDatabase, World.withDatabase, Pool.withDatabase]
  cases db.commit <;> rfl

/-- The result of a run is that of its steps up to the first that fails. -/
theorem result_run (i : Importer) (parser : Parser) (outage : Outage) (w : World) :
    (i.run parser outage w).result = i.attempt parser outage w := by
  unfold Importer.run Importer.attempt nextDataSet
  dsimp only [bind, Except.bind, pure, Except.pure]
  by_cases hlocked : i.inbox.isLocked w.files = true
  · rw [if_pos hlocked, if_pos hlocked]
  rw [if_neg hlocked, if_neg hlocked]
  obtain ⟨hpath, hroot⟩ := i.inbox.update_place w.files w.now
  rcases hupdate : i.inbox.update w.files w.now with ⟨fault | _, inbox⟩
  · rfl
  rw [hupdate] at hpath hroot
  dsimp only [Progress.call, Except.mapError] at hpath hroot ⊢
  rcases inbox.top w.files with fault | _ | name
  · rfl
  · rfl
  have hshown : inbox.shown name = i.inbox.shown name := by rw [Inbox.shown, Inbox.shown, hroot]
  unfold importDataSet recordStart Progress.connect Outage.grant
  dsimp only
  rw [hpath, hshown]
  cases outage .connectForStart with
  | some fault => rfl
  | none =>
  dsimp only
  cases w.pool.acquire with
  | error fault => rfl
  | ok db =>
  dsimp only
  cases outage .recordStart with
  | some fault => rfl
  | none =>
  dsimp only
  cases i.ledger.begin (runAt i.ledger.home w.now).recorder.time db with
  | error fault => rfl
  | ok started =>
  dsimp only [Progress.withDatabase]
  have htransaction := fst_inTransaction i.ledger parser outage (i.dataSetOf name)
    (runAt i.ledger.home w.now)
    { inbox, world := w.withDatabase started, calls := ([.isLocked] ++ [.update]) ++ [.top] }
  dsimp only [Importer.dataSetOf] at htransaction ⊢
  rw [← htransaction]
  rcases inTransaction i.ledger parser outage _ _ _ with ⟨fault | _, q⟩ <;> rfl

/-! ## The lock -/

theorem Inbox.isLocked_of_lock {b : Inbox} {t files : Tree} (h : b.lock t = .ok files) :
    b.isLocked files = true := by
  unfold lock at h
  cases htouch : t.touch (b.path ++ [lockName]) with
  | error fault =>
    rw [htouch] at h
    cases h
  | ok touched =>
    rw [htouch] at h
    cases h
    exact Tree.present_of_touch htouch

theorem Progress.recordedFailure_inbox (p : Progress) (ledger : Ledger) (outage : Outage) :
    (p.recordedFailure ledger outage).inbox = p.inbox := by
  rcases p.recordedFailure_cases ledger outage with heq | ⟨db, -, heq⟩ <;> rw [heq]
  rfl

-- A failure puts the lock into the inbox, unless there is none to be had.
theorem isLocked_fail (ledger : Ledger) (outage : Outage) (started : Bool) (p : Progress) {files : Tree}
    (hlock : (fail ledger outage started p).inbox.lock (fail ledger outage started p).world.files =
      .ok files) :
    (fail ledger outage started p).inbox.isLocked (fail ledger outage started p).world.files = true := by
  have hinbox : (fail ledger outage started p).inbox = (p.call .lock).locked.inbox := by
    rw [fail_eq]
    cases started
    · rfl
    · exact Progress.recordedFailure_inbox ..
  have hfiles : (fail ledger outage started p).world.files = (p.call .lock).locked.world.files := by
    rw [fail_eq]
    cases started
    · rfl
    · exact (Progress.recordedFailure_spec ..).2.1
  rw [hinbox, hfiles] at hlock ⊢
  unfold Progress.locked at hlock ⊢
  cases hfirst : (p.call .lock).inbox.lock (p.call .lock).world.files with
  | error fault =>
    -- the same lock was refused in the same files
    rw [hfirst] at hlock
    dsimp only at hlock
    rw [hfirst] at hlock
    cases hlock
  | ok locked => exact Inbox.isLocked_of_lock hfirst

-- Every fault goes the way of a failure.
theorem exists_fail_of_error {i : Importer} {parser : Parser} {outage : Outage} {w : World}
    {fault : RunFault} (h : (i.run parser outage w).result = .error fault) :
    ∃ started p, (i.run parser outage w).progress = fail i.ledger outage started p := by
  have hcourse := course i parser outage w
  generalize i.run parser outage w = r at hcourse h ⊢
  cases hcourse with
  | locked hlocked => cases h
  | idle hunlocked hnext => cases h
  | imported hnext hstart htransaction => cases h
  | unread hunlocked hnext => exact ⟨false, _, rfl⟩
  | unstarted hnext hstart => exact ⟨false, _, rfl⟩
  | failed hnext hstart htransaction => exact ⟨true, _, rfl⟩

/-! ## Behind the lock -/

/-- The directory of the inbox is there with the lock in it; if the lock is a link, then so is what it
leads to. -/
def Inbox.HasLock (b : Inbox) (t : Tree) : Prop :=
  ∃ root entry, t.openDirectory b.path = .ok root ∧ t.get? (root ++ [lockName]) = some entry ∧
    ((∃ target, entry = .link target) → t.present (b.path ++ [lockName]) = true)

-- A lock that is there is found, where its path is not too long.
theorem Inbox.HasLock.isLocked {b : Inbox} {t : Tree} (h : b.HasLock t)
    (hfault : Tree.pathFault? (b.path ++ [lockName]) = none) : b.isLocked t = true := by
  obtain ⟨root, entry, hopen, hget, hlink⟩ := h
  by_cases htarget : ∃ target, entry = .link target
  · exact hlink htarget
  · exact Tree.present_of_child (by decide +kernel) (by decide +kernel) hfault hopen hget
      fun target heq => htarget ⟨target, heq⟩

/-- What happens to an importer: files and clock are changed from outside, or it runs. -/
inductive Occurrence where
  | outside (files : Tree) (now : Instant)
  | run (parser : Parser) (outage : Outage)

/-- What the runs report, and the importer and the world in the end. -/
def Importer.live (i : Importer) (w : World) : List Occurrence → List Report × Importer × World
  | [] => ([], i, w)
  | .outside files now :: rest => i.live { w with files, now } rest
  | .run parser outage :: rest =>
    let r := i.run parser outage w
    let later := (i.after r).live r.progress.world rest
    (r :: later.1, later.2)

/-- The worlds that the runs meet and the world in the end, where no run changes anything. -/
def World.met (w : World) : List Occurrence → List World × World
  | [] => ([], w)
  | .outside files now :: rest => World.met { w with files, now } rest
  | .run .. :: rest =>
    let later := w.met rest
    (w :: later.1, later.2)

theorem World.pool_met (w : World) (occurrences : List Occurrence) :
    (w.met occurrences).2.pool = w.pool := by
  induction occurrences generalizing w with
  | nil => rfl
  | cons occurrence rest ih =>
    cases occurrence with
    | outside files now => exact ih { w with files, now }
    | run parser outage => exact ih w

theorem run_locked {i : Importer} {w : World} (hlocked : i.inbox.isLocked w.files = true)
    (parser : Parser) (outage : Outage) :
    i.run parser outage w = { result := .ok .locked, progress := i.opening w } := by
  unfold Importer.run
  dsimp only
  rw [if_pos hlocked]
  rfl

-- A lock that is left alone keeps every run from doing anything.
theorem live_locked {i : Importer} {w : World} (hlocked : i.inbox.isLocked w.files = true)
    {occurrences : List Occurrence}
    (hkept : ∀ files now, .outside files now ∈ occurrences → i.inbox.HasLock files) :
    i.live w occurrences =
      ((w.met occurrences).1.map fun met => { result := .ok .locked, progress := i.opening met },
        i, (w.met occurrences).2) := by
  have hfault : Tree.pathFault? (i.inbox.path ++ [Inbox.lockName]) = none :=
    Tree.pathFault?_of_present hlocked
  induction occurrences generalizing w with
  | nil => rfl
  | cons occurrence rest ih =>
    have hrest : ∀ files now, .outside files now ∈ rest → i.inbox.HasLock files :=
      fun files now hmem => hkept files now (List.mem_cons_of_mem _ hmem)
    cases occurrence with
    | outside files now =>
      have hthere := (hkept files now (List.mem_cons_self ..)).isLocked hfault
      exact ih hthere hrest
    | run parser outage =>
      rw [Importer.live, run_locked hlocked]
      have hlater := ih hlocked hrest
      dsimp only [Importer.after, Importer.opening] at hlater ⊢
      rw [hlater]
      rfl

/-- A run that fails reports the fault of the step that failed first, and the last thing that it asks of
the inbox is to be locked.  Where the lock can be put into the inbox, it is there after the run.  From
then on, whatever runs and changes from outside follow, as long as these leave the directory of the inbox
and the lock in it where they are: every run only looks for the lock and answers that the inbox is locked,
and in the end the importer is the same, with all that it has seen, and so is the database, and the files
and the clock are those that the changes have left. -/
theorem run_error {i : Importer} {parser : Parser} {outage : Outage} {w : World} {r : Report}
    (hrun : i.run parser outage w = r) {fault : RunFault} (hfault : r.result = .error fault) :
    i.attempt parser outage w = .error fault ∧ r.progress.calls.getLast? = some .lock ∧
      ∀ locked, r.progress.inbox.lock r.progress.world.files = .ok locked →
        (i.after r).inbox.isLocked r.progress.world.files = true ∧
          ∀ occurrences : List Occurrence,
            (∀ files now, .outside files now ∈ occurrences → r.progress.inbox.HasLock files) →
              (i.after r).live r.progress.world occurrences =
                ((r.progress.world.met occurrences).1.map fun met =>
                    { result := .ok .locked
                      progress := { inbox := r.progress.inbox, world := met, calls := [.isLocked] } },
                  i.after r, (r.progress.world.met occurrences).2) ∧
              (r.progress.world.met occurrences).2.pool = r.progress.world.pool := by
  subst hrun
  obtain ⟨started, p, hprogress⟩ := exists_fail_of_error hfault
  refine ⟨(result_run i parser outage w).symm.trans hfault, ?_, fun locked hlock => ?_⟩
  · rw [hprogress, (fail_spec ..).1, List.getLast?_append]
    rfl
  · have hlocked : (i.run parser outage w).progress.inbox.isLocked
        (i.run parser outage w).progress.world.files = true := by
      rw [hprogress] at hlock ⊢
      exact isLocked_fail _ _ _ _ hlock
    exact ⟨hlocked, fun occurrences hkept =>
      ⟨live_locked (i := (i.after (i.run parser outage w))) hlocked hkept, World.pool_met _ _⟩⟩

/-! ### Persons behind the lock -/

/-- The inbox of persons with a lock and a second delivery. -/
def lockedFiles : Tree :=
  .ofList [(["person"], .directory), (["person", "001"], .directory), (["person", "002"], .directory),
    (["person", "LOCKED"], .file .empty)]

/-- A run, a second delivery a minute later, and another run. -/
def laterOccurrences : List Occurrence :=
  [.run givingUpParser .none, .outside lockedFiles (.ofMillis 71000), .run givingUpParser .none]

theorem run_error_givingUp :
    ∃ r, personImporter.run givingUpParser .none deliveredWorld = r ∧
      r.result = .error (.parser (.other "no such form")) ∧
      personImporter.attempt givingUpParser .none deliveredWorld =
        .error (.parser (.other "no such form")) ∧
      ((personImporter.after r).live r.progress.world laterOccurrences).1.map Report.result =
        [.ok .locked, .ok .locked] := by
  have hfault : (personImporter.run givingUpParser .none deliveredWorld).result =
      .error (.parser (.other "no such form")) := by decide +kernel
  obtain ⟨hfirst, -, hlocked⟩ := run_error rfl hfault
  refine ⟨_, rfl, hfault, hfirst, ?_⟩
  have hlock : ((personImporter.run givingUpParser .none deliveredWorld).progress.inbox.lock
      (personImporter.run givingUpParser .none deliveredWorld).progress.world.files).isOk = true := by
    decide +kernel
  cases hanswer : (personImporter.run givingUpParser .none deliveredWorld).progress.inbox.lock
      (personImporter.run givingUpParser .none deliveredWorld).progress.world.files with
  | error fault =>
    rw [hanswer] at hlock
    cases hlock
  | ok files =>
    obtain ⟨-, hlater⟩ := hlocked files hanswer
    rw [(hlater laterOccurrences fun files now hmem => ?_).1]
    · rfl
    · simp only [laterOccurrences, List.mem_cons, reduceCtorEq, Occurrence.outside.injEq,
        List.not_mem_nil, false_or, or_false] at hmem
      rw [hmem.1]
      exact ⟨["person"], .file .empty, by decide +kernel, by decide +kernel,
        fun ⟨_, hlink⟩ => by cases hlink⟩

end Registry
