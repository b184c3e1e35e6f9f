import Registry.Proofs.Import.Course

/-!
# Delivery — when a run removes the data set that it has taken

The inbox moves past a data set inside the transaction, before success is recorded and the transaction
committed.  A run that fails earlier leaves every file where it was, and one whose removal of the data
set stops half-way leaves its directory with what is not gone yet.  One that fails later has removed the
data set all the same, although nothing of it is kept in the database.
-/

namespace Registry

open Importer

/-- The inbox was asked to move past the data set of a run, and did. -/
def Report.IsPast (r : Report) : Prop :=
  .advance ∈ r.progress.calls ∧ ∀ fault, r.result ≠ .error (.inbox fault)

variable {ledger : Ledger} {parser : Parser} {outage : Outage} {dataSet : DataSet} {run : Run}
variable {p q : Progress} {result : Except RunFault Unit} {root : Path} {name : String}

/-- A parser takes no entry from the files. -/
def Parser.Keeps (parser : Parser) : Prop :=
  ∀ (dataSet : DataSet) (run : Run) (w : World), w.files.IsPart (parser dataSet run w).2.files

/-- The first data set that is ready is a directory in that of the inbox. -/
structure Progress.IsAt (p : Progress) (root : Path) (name : String) : Prop where
  first : p.inbox.ready.head? = some name
  names : ∀ other ∈ p.inbox.ready, Tree.isEntryName other = true
  opened : p.world.files.openDirectory p.inbox.path = .ok root
  directory : p.world.files.get? (root ++ [name]) = some .directory

/-- A fault that can come up behind the step past a data set. -/
def RunFault.IsLate (fault : RunFault) : Prop :=
  (∃ cause, fault = .status cause) ∨ ∃ cause, fault = .database cause

/-- Either the inbox has moved past a data set, or there is a fault and its directory is where it was,
with all that was in it unless the removal was stopped. -/
inductive Moved {α : Type} (files : Tree) (gone : Path) (halt : Option Halt) (result : Except RunFault α)
    (q : Progress) : Prop where
  | past (hcall : .advance ∈ q.calls) (hlate : ∀ fault, result = .error fault → fault.IsLate)
      (hfiles : files.LosesOnly gone q.world.files)
  | kept {fault : RunFault} (hfault : result = .error fault)
      (hstuck : .advance ∈ q.calls → ∃ cause, fault = .inbox cause)
      (hbelow : files.LosesBelow gone q.world.files)
      (hfiles : (.advance ∈ q.calls → halt = none) → files.IsPart q.world.files)

namespace Progress.IsAt

theorem head_eq (h : p.IsAt root name) {head : String} {rest : List String}
    (hready : p.inbox.ready = head :: rest) : head = name ∧ Tree.isEntryName name = true := by
  have hfirst := h.first
  rw [hready] at hfirst
  cases hfirst
  exact ⟨rfl, h.names _ (hready ▸ List.mem_cons_self ..)⟩

-- A step past a data set that is still there removes it and nothing else.
theorem losesOnly (h : p.IsAt root name) {files left : Tree} {after : Inbox} {halt : Option Halt}
    (hpart : p.world.files.IsPart files) (hadvance : p.inbox.advance files halt = (.ok (), after, left)) :
    p.world.files.LosesOnly (root ++ [name]) left := by
  -- The parser has left the directory where it was, so the step finds it there.
  have hopen := Tree.openDirectory_of_isPart hpart h.opened
  have hget := hpart _ _ h.directory
  have hstep := Inbox.stepsPast h.names files halt
  unfold Inbox.StepsPast at hstep
  rw [hadvance] at hstep
  obtain ⟨-, head, hready, hleft⟩ := hstep
  obtain ⟨rfl, hname⟩ := h.head_eq hready
  rcases hleft with ⟨root', entry, hopen', -, hleft⟩ | ⟨hmissing, -⟩
  · have hroot : root' = root := Except.ok.inj (hopen'.symm.trans hopen)
    rw [hroot] at hleft
    constructor
    · intro path entry hother hentry
      rw [hleft, hother]
      exact hpart path entry hentry
    · rw [hleft, if_pos (by simp [Tree.isWithin])]
      simp
  · exact absurd hmissing (Tree.find_child_directory hname hopen hget)

-- A step that fails leaves the directory of the data set, and all that is in it unless it was stopped.
theorem losesBelow (h : p.IsAt root name) {files left : Tree} {after : Inbox} {halt : Option Halt}
    {fault : InboxFault} (hpart : p.world.files.IsPart files)
    (hadvance : p.inbox.advance files halt = (.error fault, after, left)) :
    p.world.files.LosesBelow (root ++ [name]) left ∧ (halt = none → p.world.files.IsPart left) := by
  obtain ⟨-, rfl | ⟨head, rest, here, entry, stop, hready, rfl, hfind, rfl⟩⟩ := Inbox.advance_error hadvance
  · exact ⟨fun path entry _ => hpart path entry, fun _ => hpart⟩
  · obtain ⟨rfl, hname⟩ := h.head_eq hready
    obtain ⟨root', hopen', rfl, -⟩ := Tree.find_child hname hfind
    have hroot : root' = root :=
      Except.ok.inj (hopen'.symm.trans (Tree.openDirectory_of_isPart hpart h.opened))
    rw [hroot]
    exact ⟨fun path entry hpath hget => Tree.losesBelow_thin files _ _ path entry hpath
      (hpart path entry hget), fun hnone => by cases hnone⟩

end Progress.IsAt

-- The work in a transaction leaves every file, unless the inbox moves past the data set.
theorem Work.files (h : Work ledger parser outage dataSet run p (result, q)) (hkeeps : parser.Keeps)
    (hat : p.IsAt root name) (hcalls : .advance ∉ p.calls) :
    Moved p.world.files (root ++ [name]) outage.halt result q := by
  have hpart : ∀ {answer : Except ParserFault Unit} {world : World},
      parser dataSet run p.world = (answer, world) → p.world.files.IsPart world.files := by
    intro answer world hparser
    have hworld := hkeeps dataSet run p.world
    rw [hparser] at hworld
    exact hworld
  have hadvanced : .advance ∈ (p.calls ++ [.process dataSet]) ++ [.advance] :=
    List.mem_append_right _ (List.mem_singleton_self _)
  generalize hanswer : (result, q) = answer at h
  cases h with
  | unparsed hparser =>
    cases hanswer
    refine .kept rfl (fun hmem => ?_) (fun path entry _ => hpart hparser path entry)
      fun _ => hpart hparser
    rcases List.mem_append.1 hmem with hmem | hmem
    · exact absurd hmem hcalls
    · simp at hmem
  | stuck hparser hadvance =>
    cases hanswer
    obtain ⟨hbelow, hwhole⟩ := hat.losesBelow (hpart hparser) hadvance
    exact .kept rfl (fun _ => ⟨_, rfl⟩) hbelow fun hhalt => hwhole (hhalt hadvanced)
  | unrecorded hparser hadvance hrecord =>
    cases hanswer
    refine .past hadvanced (fun fault hfault => ?_) (hat.losesOnly (hpart hparser) hadvance)
    cases hfault
    exact .inl ⟨_, rfl⟩
  | done hparser hadvance hrecord =>
    cases hanswer
    refine .past hadvanced (fun fault hfault => ?_) (hat.losesOnly (hpart hparser) hadvance)
    cases hfault

theorem Transaction.files (h : Transaction ledger parser outage dataSet run p (result, q))
    (hkeeps : parser.Keeps) (hat : p.IsAt root name) (hcalls : .advance ∉ p.calls) :
    Moved p.world.files (root ++ [name]) outage.halt result q := by
  -- The begin, the rollback and the commit change the database only.
  have hopened : p.opened.IsAt root name := ⟨hat.first, hat.names, hat.opened, hat.directory⟩
  generalize hanswer : (result, q) = answer at h
  cases h with
  | refused hconnect =>
    cases hanswer
    exact .kept rfl (fun hmem => absurd hmem hcalls) (fun _ _ _ hentry => hentry)
      fun _ _ _ hentry => hentry
  | undone hwork =>
    cases hanswer
    cases hwork.files hkeeps hopened hcalls with
    | past hcall hlate hfiles => exact .past hcall hlate hfiles
    | kept hfault hstuck hbelow hfiles => exact .kept hfault hstuck hbelow hfiles
  | uncommitted hwork hcommit =>
    cases hanswer
    cases hwork.files hkeeps hopened hcalls with
    | past hcall hlate hfiles =>
      refine .past hcall (fun fault hfault => ?_) hfiles
      cases hfault
      exact .inr ⟨_, rfl⟩
    | kept hfault => cases hfault
  | committed hwork hcommit =>
    cases hanswer
    cases hwork.files hkeeps hopened hcalls with
    | past hcall hlate hfiles => exact .past hcall hlate hfiles
    | kept hfault => cases hfault

-- What is done about a failure takes no file away, and makes no directory.
theorem Moved.fail {files : Tree} {gone : Path} {halt : Option Halt} {fault : RunFault}
    (h : Moved files gone halt (.error fault : Except RunFault Unit) q) (ledger : Ledger)
    (outage : Outage) (started : Bool) :
    Moved files gone halt (.error fault : Except RunFault RunOutcome)
      (Importer.fail ledger outage started q) := by
  obtain ⟨hcalls, hfiles, -⟩ := fail_spec ledger outage started q
  have hmem : .advance ∈ (Importer.fail ledger outage started q).calls ↔ .advance ∈ q.calls := by
    rw [hcalls]
    simp
  have hkept : ∀ {path entry}, q.world.files.get? path = some entry →
      (Importer.fail ledger outage started q).world.files.get? path = some entry := by
    intro path entry hentry
    rcases hfiles with hsame | htouch
    · rw [hsame]
      exact hentry
    · exact Tree.isPart_touch htouch _ _ hentry
  cases h with
  | past hcall hlate hlost =>
    refine .past (hmem.2 hcall) (fun other hother => ?_) ?_
    · cases hother
      exact hlate _ rfl
    · rcases hfiles with hsame | htouch
      · rw [hsame]
        exact hlost
      · exact hlost.touch htouch
  | kept hfault hstuck hbelow hpart =>
    cases hfault
    refine .kept rfl (fun hcall => hstuck (hmem.1 hcall))
      (fun path entry hpath hentry => hkept (hbelow path entry hpath hentry)) fun hhalt path entry hentry => ?_
    exact hkept (hpart (fun hcall => hhalt (hmem.2 hcall)) path entry hentry)

-- A transaction that is committed has gone past the data set.
theorem Moved.imported {files : Tree} {gone : Path} {halt : Option Halt}
    (h : Moved files gone halt (.ok ()) q) (outcome : RunOutcome) :
    Moved files gone halt (.ok outcome) q := by
  cases h with
  | past hcall hlate hfiles =>
    refine .past hcall (fun fault hfault => ?_) hfiles
    cases hfault
  | kept hfault => cases hfault

/-! ## Runs -/

-- Behind a look that has come to a data set, the state is at it, whatever becomes of the database.
theorem isAt_of_nextDataSet {i : Importer} {w : World} {p : Progress}
    (h : nextDataSet (i.opening w) = (.ok (some name), p)) :
    ∃ root, w.files.openDirectory i.inbox.path = .ok root ∧
      w.files.get? (root ++ [name]) = some .directory ∧ .advance ∉ p.calls ∧
      ∀ db, (p.withDatabase db).world.files = w.files ∧ (p.withDatabase db).IsAt root name := by
  obtain ⟨hpath, -, hcalls, hfirst, hnames, root, hopen, hget⟩ := nextDataSet_spec h
  have hfiles : ∀ db, (p.withDatabase db).world.files = w.files := by
    intro db
    show p.world.files = w.files
    rw [world_of_nextDataSet h]
  refine ⟨root, hopen, hget, ?_, fun db => ⟨hfiles db, hfirst, hnames, ?_, ?_⟩⟩
  · rw [hcalls]
    simp [Importer.opening]
  · rw [hfiles]
    show w.files.openDirectory p.inbox.path = .ok root
    rw [hpath]
    exact hopen
  · rw [hfiles]
    exact hget

theorem moved_run (i : Importer) (parser : Parser) (outage : Outage) (w : World)
    (hkeeps : parser.Keeps) (hpicked : i.picked w = some name) :
    ∃ root, w.files.openDirectory i.inbox.path = .ok root ∧
      w.files.get? (root ++ [name]) = some .directory ∧
      Moved w.files (root ++ [name]) outage.halt (i.run parser outage w).result
        (i.run parser outage w).progress := by
  obtain ⟨p, hnext⟩ := picked_eq_some.1 hpicked
  obtain ⟨root, hopen, hget, hearlier, hat⟩ := isAt_of_nextDataSet hnext
  refine ⟨root, hopen, hget, ?_⟩
  -- A lock, a look that fails and an empty inbox have no data set; in the other ways the look is one.
  have hcourse := course i parser outage w
  generalize i.run parser outage w = r at hcourse ⊢
  cases hcourse with
  | locked hlocked =>
    rw [picked_of_locked hlocked] at hpicked
    cases hpicked
  | unread hunlocked hunread =>
    rw [hnext] at hunread
    cases hunread
  | idle hunlocked hidle =>
    rw [hnext] at hidle
    cases hidle
  | @unstarted _ _ fault hsame hstart =>
    cases hnext.symm.trans hsame
    have hkept : Moved w.files (root ++ [name]) outage.halt (.error fault : Except RunFault Unit) p := by
      rw [← world_of_nextDataSet hnext]
      exact .kept rfl (fun hmem => absurd hmem hearlier) (fun _ _ _ hentry => hentry)
        fun _ _ _ hentry => hentry
    exact hkept.fail i.ledger outage false
  | @failed _ _ _ db _ hsame hstart htransaction =>
    cases hnext.symm.trans hsame
    have hmoved := htransaction.files hkeeps (hat db).2 hearlier
    rw [(hat db).1] at hmoved
    exact hmoved.fail i.ledger outage true
  | @imported _ _ _ db hsame hstart htransaction =>
    cases hnext.symm.trans hsame
    have hmoved := htransaction.files hkeeps (hat db).2 hearlier
    rw [(hat db).1] at hmoved
    exact hmoved.imported _

/-- The directory of a data set that is taken is still there after the run just where the inbox was
not asked to move past it, or could not.  So it is gone after an import, and also where the record
of success or the commit fails.  In all other failures every file stays, but for those in the directory
that were removed before the removal was stopped. -/
theorem run_dataSet (i : Importer) (parser : Parser) (outage : Outage) (w : World)
    (hkeeps : parser.Keeps) (hpicked : i.picked w = some name) :
    ∃ root r, r = i.run parser outage w ∧ w.files.openDirectory i.inbox.path = .ok root ∧
      w.files.get? (root ++ [name]) = some .directory ∧
      (r.progress.world.files.get? (root ++ [name]) = some .directory ↔ ¬ r.IsPast) ∧
      (∀ path entry, (Tree.isWithin (root ++ [name]) path = true →
          ¬ r.IsPast ∧ (.advance ∈ r.progress.calls → outage.halt = none)) →
        w.files.get? path = some entry → r.progress.world.files.get? path = some entry) ∧
      (∀ outcome, r.result = .ok outcome → r.IsPast) ∧
      ∀ fault, r.result = .error fault → r.IsPast → fault.IsLate := by
  obtain ⟨root, hopen, hget, hmoved⟩ := moved_run i parser outage w hkeeps hpicked
  refine ⟨root, _, rfl, hopen, hget, ?_⟩
  generalize i.run parser outage w = r at hmoved ⊢
  cases hmoved with
  | past hcall hlate hfiles =>
    have hpast : r.IsPast := by
      refine ⟨hcall, fun fault hfault => ?_⟩
      rcases hlate _ hfault with ⟨cause, hcause⟩ | ⟨cause, hcause⟩ <;> cases hcause
    refine ⟨⟨fun hthere => absurd hthere hfiles.directory, fun hnot => absurd hpast hnot⟩, ?_,
      fun _ _ => hpast, fun fault hfault _ => hlate fault hfault⟩
    intro path entry hother hentry
    refine hfiles.others path entry (Bool.eq_false_iff.2 fun hwithin => ?_) hentry
    exact (hother hwithin).1 hpast
  | kept hfault hstuck hbelow hfiles =>
    have hnot : ¬ r.IsPast := by
      rintro ⟨hcall, hfree⟩
      obtain ⟨cause, rfl⟩ := hstuck hcall
      exact hfree cause hfault
    refine ⟨⟨fun _ => hnot, fun _ => hbelow _ _ (fun _ => rfl) hget⟩, fun path entry hother hentry => ?_,
      fun outcome hok => ?_, fun _ _ hpast => absurd hpast hnot⟩
    · by_cases hwithin : Tree.isWithin (root ++ [name]) path = true
      · exact hfiles (hother hwithin).2 path entry hentry
      · exact hbelow path entry (fun h => absurd h hwithin) hentry
    · rw [hfault] at hok
      cases hok

/-! ### A delivery of persons -/

/-- The importer of persons, which has seen the first delivery when it came. -/
def personImporter : Importer where
  ledger := { home := "person", home_identifier := by decide, maxDays := 1 }
  inbox :=
    { root := "inbox/person"
      path := ["person"]
      period := usualPeriod
      expiry := usualExpiry
      samples := .ofList [("001", ⟨0, .ofMillis 1000, .ofMillis 1000⟩)]
      ready := [] }

/-- The first delivery, ten seconds after it came. -/
def deliveredWorld : World where
  pool := Pool.fresh.withDatabase ((personImporter.ledger.ensureTable .empty).toOption.getD .empty)
  files := .ofList [(["person"], .directory), (["person", "001"], .directory)]
  now := .ofMillis 11000

def givingUpParser : Parser := fun _ _ w => (.error (.other "no such form"), w)

theorem run_dataSet_givingUp :
    givingUpParser.Keeps ∧ personImporter.picked deliveredWorld = some "001" ∧
      ∃ root, deliveredWorld.files.openDirectory ["person"] = .ok root ∧
        (personImporter.run givingUpParser .none deliveredWorld).progress.world.files.get?
          (root ++ ["001"]) = some .directory := by
  have hkeeps : givingUpParser.Keeps := fun _ _ _ _ _ hentry => hentry
  have hpicked : personImporter.picked deliveredWorld = some "001" := by decide +kernel
  obtain ⟨root, r, rfl, hopen, -, hthere, -⟩ :=
    run_dataSet personImporter givingUpParser .none deliveredWorld hkeeps hpicked
  refine ⟨hkeeps, hpicked, root, hopen, hthere.2 fun hpast => ?_⟩
  exact absurd hpast.1 (by decide +kernel)

/-- A database with a member of a family that is not there, which is allowed until the commit. -/
def orphaned (db : Database) : Except DatabaseFault Database := do
  let db ← db.createTable false { name := "family", idColumn := some "id", columns := [] }
  let db ← db.createTable false
    { name := "member"
      idColumn := none
      columns := [{ name := "family", affinity := .integer, required := false,
                    parent := some ⟨"family", "id", true⟩ }] }
  let (_, db) ← db.insert "member" [("family", .integer 1)]
  return db

/-- A parser that leaves such a member and succeeds. -/
def orphaningParser : Parser := fun _ _ w =>
  (.ok (), w.withDatabase ((orphaned w.database).toOption.getD w.database))

/-- The commit is refused, and the delivery is gone although nothing of it is kept. -/
theorem delivery_lost :
    orphaningParser.Keeps ∧ personImporter.picked deliveredWorld = some "001" ∧
      (personImporter.run orphaningParser .none deliveredWorld).result.isOk = false ∧
      deliveredWorld.files.get? ["person", "001"] = some .directory ∧
      (personImporter.run orphaningParser .none deliveredWorld).progress.world.files.get?
        ["person", "001"] = none := by
  refine ⟨fun _ _ _ _ _ hentry => hentry, ?_, ?_, ?_, ?_⟩ <;> decide +kernel

end Registry
