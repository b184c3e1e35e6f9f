import Registry.Proofs.Import.Chronicle
import Registry.Proofs.Inbox.Ripe

/-!
# Queue — deliveries that wait are imported one by one

An inbox in which every data set is ready is worked off by the runs that follow, in the order of the
names: each run gives the parser the first data set that is left and takes just its directory away, and
the next one finds the others as they were.
-/

namespace Registry

open Importer Registry.Text

variable {root : Path} {name : String} {names rest : List String}

namespace Turn

/-- Data sets that wait for a run: they are all there are in an open inbox, and each is ripe. -/
structure Waits (turn : Turn) (root : Path) (names : List String) : Prop where
  opened : turn.importer.inbox.IsOpenAt turn.world.files root
  dataSets : turn.importer.inbox.dataSets turn.world.files = .ok names
  ripe : ∀ name ∈ names, turn.importer.inbox.IsRipe turn.world.files turn.world.now name

/-- The parser succeeds with whatever it is given and leaves the inbox alone, the database refuses
nothing, nothing stops the removal of a data set, and the clock is not in a leap second. -/
structure IsQuiet (turn : Turn) (root : Path) : Prop where
  succeeds : ∀ dataSet run w, (turn.parser dataSet run w).1 = .ok ()
  leaves : ∀ dataSet run w,
    turn.importer.inbox.LeftAlone root w.files (turn.parser dataSet run w).2.files
  spared : ∀ fault, turn.report.result = .error fault → ¬ fault.IsLate
  unhalted : turn.outage.halt = none
  noLeap : turn.world.now.isLeap = false

/-- A run goes on where another one has ended, and starts before what that has seen is forgotten.
Between the two nothing happens to the inbox, and the clock does not go back. -/
structure Follows (root : Path) (earlier later : Turn) : Prop where
  importer : later.importer = earlier.importer.after earlier.report
  files : earlier.importer.inbox.LeftAlone root earlier.report.progress.world.files later.world.files
  forward : earlier.world.now ≤ later.world.now
  soon : later.world.now.nanosSince earlier.world.now < (earlier.importer.inbox.expiry : Int)

/-- The run imports a data set: the parser is given it and nothing else, and what it leaves loses the
directory of the data set, which is all that changes in the inbox. -/
structure Imports (turn : Turn) (i : Importer) (root : Path) (name : String) : Prop where
  result : turn.report.result =
    .ok (.imported (runAt i.ledger.home turn.world.now).id (i.inbox.shown name))
  calls : turn.report.progress.calls =
    [.isLocked, .update, .top, .process (i.dataSetOf name), .advance]
  directory : turn.world.files.get? (root ++ [name]) = some .directory
  deleted : ∃ given : World, given.files = turn.world.files ∧ turn.report.progress.world.files =
    (turn.parser (i.dataSetOf name) (runAt i.ledger.home turn.world.now) given).2.files.prune
      (root ++ [name])
  others : ∀ p, Tree.isWithin root p = true → turn.report.progress.world.files.get? p =
    if Tree.isWithin (root ++ [name]) p then none else turn.world.files.get? p

end Turn

/-- One importer goes on from another: only what was seen of the inbox is different. -/
def Importer.GoesOnAs (i j : Importer) : Prop :=
  ∃ samples ready, j = { i with inbox := { i.inbox with samples, ready } }

/-! ## A run over data sets that wait -/

/-- The state behind a look by which some data sets are ready. -/
def Importer.looked (i : Importer) (w : World) (samples : Samples) (ready : List String) : Progress where
  inbox := { i.inbox with samples, ready }
  world := w
  calls := [.isLocked, .update, .top]

-- The look comes to the first data set, and makes the samples of all new.
theorem nextDataSet_of_ripe {i : Importer} {w : World} (hunlocked : i.inbox.isLocked w.files = false)
    (hnames : i.inbox.dataSets w.files = .ok names)
    (hripe : ∀ name ∈ names, i.inbox.IsRipe w.files w.now name) :
    ∃ samples, nextDataSet (i.opening w) = (.ok names.head?, i.looked w samples names) ∧
      ∀ name ∈ names,
        samples.get? name = (i.inbox.samples.get? name).map fun s => { s with lastSeen := w.now } := by
  obtain ⟨samples, hupdate, hsamples⟩ := Inbox.update_of_ripe hunlocked hnames hripe
  refine ⟨samples, ?_, hsamples⟩
  have htop : Inbox.top { i.inbox with samples, ready := names } w.files = .ok names.head? := by
    rw [Inbox.top, if_neg]
    rw [show Inbox.isLocked { i.inbox with samples, ready := names } w.files = i.inbox.isLocked w.files
      from rfl, hunlocked]
    exact Bool.false_ne_true
  unfold nextDataSet
  dsimp only [Importer.opening]
  rw [hupdate]
  dsimp only
  rw [show (Progress.call _ Call.update).world.files = w.files from rfl, htop]
  rfl

theorem isLate_of_recordStart {ledger : Ledger} {outage : Outage} {start : Instant} {p q : Progress}
    {fault : RunFault} (h : recordStart ledger outage start p = (.error fault, q)) : fault.IsLate := by
  unfold recordStart at h
  split at h
  · cases h
    exact .inr ⟨_, rfl⟩
  split at h
  · cases h
    exact .inl ⟨_, rfl⟩
  split at h
  · cases h
    exact .inl ⟨_, rfl⟩
  · cases h

-- Where the parser and the step past the data set succeed, only the database can still refuse.
theorem Transaction.of_advanced {ledger : Ledger} {parser : Parser} {outage : Outage} {dataSet : DataSet}
    {run : Run} {p q : Progress} {result : Except RunFault Unit} {world : World} {inbox : Inbox}
    {files : Tree} (h : Transaction ledger parser outage dataSet run p (result, q))
    (hparser : parser dataSet run p.opened.world = (.ok (), world))
    (hadvance : p.inbox.advance world.files outage.halt = (.ok (), inbox, files))
    (hspared : ∀ fault, result = .error fault → ¬ fault.IsLate) :
    result = .ok () ∧ q.inbox = inbox ∧ q.world.files = files ∧
      q.calls = p.calls ++ [.process dataSet, .advance] := by
  generalize hanswer : (result, q) = answer at h
  cases h with
  | refused hconnect =>
    cases hanswer
    exact absurd (.inr ⟨_, rfl⟩) (hspared _ rfl)
  | undone hwork =>
    cases hanswer
    cases hwork with
    | unparsed hunparsed => cases hparser.symm.trans hunparsed
    | stuck hparsed hstuck =>
      cases hparser.symm.trans hparsed
      cases hadvance.symm.trans hstuck
    | unrecorded hparsed hadvanced hrecord => exact absurd (.inl ⟨_, rfl⟩) (hspared _ rfl)
  | uncommitted hwork hcommit =>
    cases hanswer
    exact absurd (.inr ⟨_, rfl⟩) (hspared _ rfl)
  | committed hwork hcommit =>
    cases hanswer
    cases hwork with
    | done hparsed hadvanced hrecord =>
      cases hparser.symm.trans hparsed
      cases hadvance.symm.trans hadvanced
      refine ⟨rfl, rfl, rfl, ?_⟩
      show (p.calls ++ [_]) ++ [_] = _
      rw [List.append_assoc]
      rfl

-- A run that has come to a data set imports it, unless the parser, the step or the database refuses.
theorem run_of_advanced {i : Importer} {parser : Parser} {outage : Outage} {w : World} {p : Progress}
    (hunlocked : i.inbox.isLocked w.files = false)
    (hnext : nextDataSet (i.opening w) = (.ok (some name), p))
    (hstep : ∀ db, ∃ world inbox files,
      parser (i.dataSetOf name) (runAt i.ledger.home w.now) (p.withDatabase db).world = (.ok (), world) ∧
        p.inbox.advance world.files outage.halt = (.ok (), inbox, files))
    (hspared : ∀ fault, (i.run parser outage w).result = .error fault → ¬ fault.IsLate) :
    ∃ db world inbox files,
      parser (i.dataSetOf name) (runAt i.ledger.home w.now) (p.withDatabase db).world = (.ok (), world) ∧
        p.inbox.advance world.files outage.halt = (.ok (), inbox, files) ∧
        (i.run parser outage w).result =
          .ok (.imported (runAt i.ledger.home w.now).id (i.inbox.shown name)) ∧
        (i.run parser outage w).progress.inbox = inbox ∧
        (i.run parser outage w).progress.world.files = files ∧
        (i.run parser outage w).progress.calls = p.calls ++ [.process (i.dataSetOf name), .advance] := by
  have hcourse := course i parser outage w
  generalize i.run parser outage w = r at hcourse hspared ⊢
  cases hcourse with
  | locked hlocked =>
    rw [hunlocked] at hlocked
    cases hlocked
  | unread _ hunread => cases hnext.symm.trans hunread
  | idle _ hidle => cases hnext.symm.trans hidle
  | unstarted hsame hstart =>
    cases hnext.symm.trans hsame
    exact absurd (isLate_of_recordStart hstart) (hspared _ rfl)
  | @failed _ _ _ db fault hsame _ htransaction =>
    cases hnext.symm.trans hsame
    obtain ⟨world, inbox, files, hparser, hadvance⟩ := hstep db.opened
    have hnotLate : ∀ cause, (.error fault : Except RunFault Unit) = .error cause → ¬ cause.IsLate := by
      intro cause hcause
      cases hcause
      exact hspared _ rfl
    cases (htransaction.of_advanced hparser hadvance hnotLate).1
  | @imported _ _ _ db hsame _ htransaction =>
    cases hnext.symm.trans hsame
    obtain ⟨world, inbox, files, hparser, hadvance⟩ := hstep db.opened
    have hnotLate : ∀ cause, (.ok () : Except RunFault Unit) = .error cause → ¬ cause.IsLate :=
      fun _ hcause => by cases hcause
    obtain ⟨-, hinbox, hfiles, hcalls⟩ := htransaction.of_advanced hparser hadvance hnotLate
    exact ⟨db.opened, world, inbox, files, hparser, hadvance, rfl, hinbox, hfiles, hcalls⟩

namespace Turn

variable {turn : Turn}

theorem Waits.mem_iff (h : turn.Waits root names) : name ∈ names ↔
    Tree.isEntryName name = true ∧ turn.world.files.get? (root ++ [name]) = some .directory :=
  ((Inbox.dataSets_eq_ok_iff h.opened.openDirectory).1 h.dataSets).2 name

theorem Waits.ascending (h : turn.Waits root names) : names.Pairwise (· < ·) :=
  ((Inbox.dataSets_eq_ok_iff h.opened.openDirectory).1 h.dataSets).1

theorem Waits.notMem_rest (h : turn.Waits root (name :: rest)) : name ∉ rest :=
  (List.nodup_cons.1 (Inbox.nodup_of_ascending h.ascending)).1

/-- What is left by a run over data sets that wait: the first of them is imported, and the samples of
all are as new as the run. -/
structure Takes (turn : Turn) (root : Path) (name : String) (rest : List String) (samples : Samples) :
    Prop where
  imports : turn.Imports turn.importer root name
  inbox : turn.report.progress.inbox =
    { turn.importer.inbox with samples := samples.erase name, ready := rest }
  opened : turn.importer.inbox.IsOpenAt turn.report.progress.world.files root
  samples : ∀ other ∈ name :: rest, samples.get? other =
    (turn.importer.inbox.samples.get? other).map fun s => { s with lastSeen := turn.world.now }

theorem Waits.takes (h : turn.Waits root (name :: rest)) (hquiet : turn.IsQuiet root) :
    ∃ samples, turn.Takes root name rest samples := by
  obtain ⟨samples, hnext, hsamples⟩ := nextDataSet_of_ripe h.opened.unlocked h.dataSets h.ripe
  refine ⟨samples, ?_⟩
  obtain ⟨hname, hget⟩ := h.mem_iff.1 (List.mem_cons_self ..)
  obtain ⟨s, -, hmeasure, -⟩ := h.ripe name (List.mem_cons_self ..)
  obtain ⟨hcan, -⟩ := (Inbox.measure_eq_ok_iff hname h.opened.openDirectory hget).1 hmeasure
  let p := turn.importer.looked turn.world samples (name :: rest)
  -- whatever database the parser is given, it leaves the inbox as it is for the step
  let run := runAt turn.importer.ledger.home turn.world.now
  have hparsed : ∀ db, ∃ world,
      turn.parser (turn.importer.dataSetOf name) run (p.withDatabase db).world = (.ok (), world) ∧
        turn.importer.inbox.LeftAlone root turn.world.files world.files := fun db =>
    ⟨_, Prod.ext (hquiet.succeeds _ _ _) rfl, hquiet.leaves _ _ (p.withDatabase db).world⟩
  have hadvance : ∀ {files : Tree}, turn.importer.inbox.LeftAlone root turn.world.files files →
      turn.importer.inbox.IsOpenAt (files.prune (root ++ [name])) root ∧
      p.inbox.advance files turn.outage.halt = (.ok (), { turn.importer.inbox with
        samples := samples.erase name, ready := rest }, files.prune (root ++ [name])) := by
    intro files hleaves
    have hopen := hleaves.place h.opened
    have hget' := (hleaves.agree _ (Tree.isWithin_child root name)).trans hget
    have hopen' : p.inbox.IsOpenAt files root := ⟨hopen.opened, hopen.unlocked⟩
    rw [hquiet.unhalted]
    exact ⟨hopen.prune hname hget', Inbox.advance_of_open hopen' rfl hname hget' hcan⟩
  have hsteps : ∀ db, ∃ world inbox files,
      turn.parser (turn.importer.dataSetOf name) run (p.withDatabase db).world = (.ok (), world) ∧
        p.inbox.advance world.files turn.outage.halt = (.ok (), inbox, files) := by
    intro db
    obtain ⟨world, hparser, hleaves⟩ := hparsed db
    exact ⟨world, _, _, hparser, (hadvance hleaves).2⟩
  obtain ⟨db, world, inbox, files, hparser, hstep, hresult, hinbox, hfiles, hcalls⟩ :=
    run_of_advanced h.opened.unlocked hnext hsteps hquiet.spared
  obtain ⟨world', hparser', hleaves⟩ := hparsed db
  cases hparser.symm.trans hparser'
  obtain ⟨hopen, hstep'⟩ := hadvance hleaves
  cases hstep.symm.trans hstep'
  have hfiles : turn.report.progress.world.files = world.files.prune (root ++ [name]) := hfiles
  refine ⟨⟨hresult, hcalls, hget, ⟨(p.withDatabase db).world, rfl, ?_⟩, fun q hq => ?_⟩, hinbox, ?_,
    hsamples⟩
  · rw [hparser]
    exact hfiles
  · rw [hfiles, Tree.get?_prune, hleaves.agree q hq]
  · rw [hfiles]
    exact hopen

/-! ### The next run -/

section

variable {later : Turn} {samples : Samples} (h : turn.Takes root name rest samples)
  (hfollows : Follows root turn later)
include h hfollows

theorem Takes.inbox_later : later.importer.inbox =
    { turn.importer.inbox with samples := samples.erase name, ready := rest } := by
  rw [hfollows.importer]
  exact h.inbox

theorem Takes.opened_later : later.importer.inbox.IsOpenAt later.world.files root := by
  have hplace := hfollows.files.place h.opened
  rw [h.inbox_later hfollows]
  exact ⟨hplace.opened, hplace.unlocked⟩

-- The next run finds the inbox as it was, without the directory that was taken.
theorem Takes.get?_later {p : Path} (hp : Tree.isWithin root p = true) : later.world.files.get? p =
    if Tree.isWithin (root ++ [name]) p then none else turn.world.files.get? p :=
  (hfollows.files.agree p hp).trans (h.imports.others p hp)

variable (hwaits : turn.Waits root (name :: rest))
include hwaits

theorem Takes.mem_rest_iff {other : String} : other ∈ rest ↔
    Tree.isEntryName other = true ∧ later.world.files.get? (root ++ [other]) = some .directory := by
  have hknown : other ∈ name :: rest ↔ _ := hwaits.mem_iff
  have hself : Tree.isWithin (root ++ [other]) (root ++ [other]) = true :=
    Tree.isWithin_iff.2 List.prefix_rfl
  rw [h.get?_later hfollows (Tree.isWithin_child root other)]
  by_cases hsame : name = other
  · subst hsame
    rw [if_pos hself]
    simp [hwaits.notMem_rest]
  · rw [if_neg fun hwithin => hsame (Tree.eq_of_isWithin_child hwithin hself), ← hknown, List.mem_cons,
      or_iff_right (Ne.symm hsame)]

-- A directory that was not taken has the size that it had.
theorem Takes.measure_later {other : String} (hother : other ∈ rest) :
    later.importer.inbox.measure later.world.files other =
      turn.importer.inbox.measure turn.world.files other := by
  have hmem := List.mem_cons_of_mem name hother
  obtain ⟨s, -, hsize, -⟩ := hwaits.ripe other hmem
  obtain ⟨hname, hget⟩ := hwaits.mem_iff.1 hmem
  obtain ⟨-, hget'⟩ := (h.mem_rest_iff hfollows hwaits).1 hother
  obtain ⟨hcan, hbelow⟩ := (Inbox.measure_eq_ok_iff hname hwaits.opened.openDirectory hget).1 hsize
  have hagree : Tree.AgreeWithin (root ++ [other]) turn.world.files later.world.files := by
    intro p hp
    have hout : ¬ Tree.isWithin (root ++ [name]) p = true := fun hwithin =>
      hwaits.notMem_rest (Tree.eq_of_isWithin_child hwithin hp ▸ hother)
    rw [h.get?_later hfollows (Tree.isWithin_of_child hp), if_neg hout]
  have hcan' : Tree.CanName later.importer.inbox.path other := by
    rw [h.inbox_later hfollows]
    exact hcan
  rw [hsize, (Inbox.measure_eq_ok_iff hname (h.opened_later hfollows).openDirectory hget').2
    ⟨hcan', hagree.sizeBelow.trans hbelow⟩]

/-- The data sets behind the first one wait for the next run. -/
theorem Takes.waits (hnow : turn.world.now.isLeap = false) (hlater : later.world.now.isLeap = false) :
    later.Waits root rest := by
  have hopened := h.opened_later hfollows
  refine ⟨hopened, (Inbox.dataSets_eq_ok_iff hopened.openDirectory).2
    ⟨(List.pairwise_cons.1 hwaits.ascending).2, fun _ => h.mem_rest_iff hfollows hwaits⟩,
    fun other hother => ?_⟩
  have hmem := List.mem_cons_of_mem name hother
  have hne : other ≠ name := fun heq => hwaits.notMem_rest (heq ▸ hother)
  have hinbox := h.inbox_later hfollows
  have hsample : later.importer.inbox.samples.get? other =
      (turn.importer.inbox.samples.get? other).map fun s => { s with lastSeen := turn.world.now } := by
    rw [hinbox]
    show (samples.erase name).get? other = _
    rw [SortedMap.get?_erase, if_neg hne]
    exact h.samples other hmem
  exact (hwaits.ripe other hmem).again (by rw [hinbox]) (by rw [hinbox]) hsample
    (h.measure_later hfollows hwaits hother) hfollows.forward hnow hlater hfollows.soon

end

theorem Takes.goesOnAs {later : Turn} {samples : Samples} (h : turn.Takes root name rest samples)
    (hfollows : Follows root turn later) : turn.importer.GoesOnAs later.importer := by
  refine ⟨samples.erase name, rest, ?_⟩
  rw [hfollows.importer, Importer.after, h.inbox]

-- Where nothing waits, the run does nothing but look.
theorem Waits.idle (h : turn.Waits root []) :
    turn.report.result = .ok .idle ∧ turn.report.progress.world = turn.world := by
  obtain ⟨samples, hnext, -⟩ := nextDataSet_of_ripe h.opened.unlocked h.dataSets h.ripe
  have hrun : turn.report = ⟨.ok .idle, turn.importer.looked turn.world samples []⟩ := by
    unfold report Importer.run
    dsimp only
    rw [if_neg (by simp [h.opened.unlocked])]
    have hnext : nextDataSet { inbox := turn.importer.inbox, world := turn.world, calls := [.isLocked] } =
        (.ok none, turn.importer.looked turn.world samples []) := hnext
    rw [hnext]
  rw [hrun]
  exact ⟨rfl, rfl⟩

theorem Imports.of_goesOnAs {i j : Importer} (h : turn.Imports j root name) (hgoes : i.GoesOnAs j) :
    turn.Imports i root name := by
  obtain ⟨samples, ready, rfl⟩ := hgoes
  exact ⟨h.result, h.calls, h.directory, h.deleted, h.others⟩

end Turn

/-! ## Runs -/

theorem Importer.GoesOnAs.trans {i j k : Importer} (h : i.GoesOnAs j) (h' : j.GoesOnAs k) :
    i.GoesOnAs k := by
  obtain ⟨_, _, rfl⟩ := h
  obtain ⟨samples, ready, rfl⟩ := h'
  exact ⟨samples, ready, rfl⟩

-- One run for each data set that waits, and one more.
theorem Turn.Waits.runs {i : Importer} {first : Turn} {later : List Turn} (h : first.Waits root names)
    (hgoes : i.GoesOnAs first.importer) (hruns : (first :: later).IsChain (Turn.Follows root))
    (hquiet : ∀ turn ∈ first :: later, turn.IsQuiet root) (hlength : later.length = names.length) :
    ∃ imports last, first :: later = imports ++ [last] ∧
      List.Forall₂ (fun turn name => turn.Imports i root name) imports names ∧ last.Waits root [] := by
  induction names generalizing first later with
  | nil =>
    rw [List.eq_nil_of_length_eq_zero hlength]
    exact ⟨[], first, rfl, .nil, h⟩
  | cons name rest ih =>
    obtain ⟨second, later, rfl⟩ := List.exists_cons_of_length_eq_add_one hlength
    obtain ⟨hfollows, hruns⟩ := List.isChain_cons_cons.1 hruns
    have hfirst := hquiet first (List.mem_cons_self ..)
    have hquiet' : ∀ turn ∈ second :: later, turn.IsQuiet root := fun turn hturn =>
      hquiet turn (List.mem_cons_of_mem _ hturn)
    obtain ⟨samples, htakes⟩ := h.takes hfirst
    have hwaits := htakes.waits hfollows h hfirst.noLeap (hquiet' second (List.mem_cons_self ..)).noLeap
    obtain ⟨imports, last, hsplit, himports, hidle⟩ :=
      ih hwaits (hgoes.trans (htakes.goesOnAs hfollows)) hruns hquiet' (Nat.succ.inj hlength)
    exact ⟨first :: imports, last, by rw [hsplit, List.cons_append],
      .cons (htakes.imports.of_goesOnAs hgoes) himports, hidle⟩

/-- Data sets that wait in an open inbox are imported by the runs that follow one another, one by each
run and in the order of the bytes of their names: the parser is given each of them once, and the run takes
just its directory from the inbox.  The run behind these has nothing to do, and no data set is left. -/
theorem Turn.Waits.imported_inOrder {first : Turn} {later : List Turn} (h : first.Waits root names)
    (hruns : (first :: later).IsChain (Turn.Follows root))
    (hquiet : ∀ turn ∈ first :: later, turn.IsQuiet root) (hlength : later.length = names.length) :
    (∀ name, name ∈ names ↔ Tree.isEntryName name = true ∧
        first.world.files.get? (root ++ [name]) = some .directory) ∧
      (names.map utf8Bytes).Pairwise (· < ·) ∧
      ∃ imports last, first :: later = imports ++ [last] ∧
        List.Forall₂ (fun turn name => turn.Imports first.importer root name) imports names ∧
        last.report.result = .ok .idle ∧
        last.importer.inbox.dataSets last.report.progress.world.files = .ok [] := by
  obtain ⟨imports, last, hsplit, himports, hidle⟩ :=
    h.runs ⟨first.importer.inbox.samples, first.importer.inbox.ready, rfl⟩ hruns hquiet hlength
  obtain ⟨hresult, hworld⟩ := hidle.idle
  refine ⟨fun _ => h.mem_iff, h.ascending.map _ fun _ _ => utf8Bytes_lt, imports, last, hsplit, himports,
    hresult, ?_⟩
  rw [hworld]
  exact hidle.dataSets

/-! ### Deliveries of persons -/

theorem Inbox.LeftAlone.refl (b : Inbox) (root : Path) (files : Tree) : b.LeftAlone root files files :=
  ⟨fun _ _ => rfl, id⟩

/-- The run that goes on at an instant where another one has ended. -/
def Turn.next (turn : Turn) (now : Instant) : Turn where
  importer := turn.importer.after turn.report
  parser := turn.parser
  outage := turn.outage
  world := { turn.report.progress.world with now }

/-- Two deliveries of persons, which have come at the same time. -/
def pairTurn : Turn where
  importer := { personImporter with
    inbox := { personImporter.inbox with
      samples := .ofList [("001", ⟨0, .ofMillis 1000, .ofMillis 1000⟩),
        ("002", ⟨0, .ofMillis 1000, .ofMillis 1000⟩)] } }
  parser := acceptingParser
  outage := .none
  world := { deliveredWorld with
    files := .ofList [(["person"], .directory), (["person", "001"], .directory),
      (["person", "002"], .directory)] }

def pairTurns : List Turn :=
  [pairTurn.next (.ofMillis 12000), (pairTurn.next (.ofMillis 12000)).next (.ofMillis 13000)]

theorem isQuiet_of_accepting {turn : Turn} {root : Path} (hparser : turn.parser = acceptingParser)
    (hhalt : turn.outage.halt = none) (hok : turn.report.result.isOk = true)
    (hnow : turn.world.now.isLeap = false) :
    turn.IsQuiet root where
  succeeds dataSet run w := by rw [hparser]; rfl
  leaves dataSet run w := by rw [hparser]; exact .refl _ _ _
  spared fault hfault := by
    rw [hfault] at hok
    cases hok
  unhalted := hhalt
  noLeap := hnow

theorem follows_next {turn : Turn} {root : Path} {now : Instant} (hforward : turn.world.now ≤ now)
    (hsoon : now.nanosSince turn.world.now < (turn.importer.inbox.expiry : Int)) :
    Turn.Follows root turn (turn.next now) where
  importer := rfl
  files := .refl _ _ _
  forward := hforward
  soon := hsoon

theorem imported_inOrder_pair : ∃ imports last, pairTurn :: pairTurns = imports ++ [last] ∧
    List.Forall₂ (fun turn name => turn.Imports pairTurn.importer ["person"] name) imports
      ["001", "002"] ∧
    last.report.result = .ok .idle := by
  have hwaits : pairTurn.Waits ["person"] ["001", "002"] := by
    refine ⟨⟨by decide +kernel, by decide +kernel⟩, by decide +kernel, fun name hname => ?_⟩
    simp only [List.mem_cons, List.not_mem_nil, or_false] at hname
    refine ⟨⟨0, .ofMillis 1000, .ofMillis 1000⟩, ?_⟩
    rcases hname with rfl | rfl <;> decide +kernel
  have hruns : (pairTurn :: pairTurns).IsChain (Turn.Follows ["person"]) := by
    refine .cons_cons (follows_next (by decide +kernel) (by decide +kernel)) ?_
    exact .cons_cons (follows_next (by decide +kernel) (by decide +kernel)) (.singleton _)
  have hquiet : ∀ turn ∈ pairTurn :: pairTurns, turn.IsQuiet ["person"] := by
    intro turn hturn
    simp only [pairTurns, List.mem_cons, List.not_mem_nil, or_false] at hturn
    rcases hturn with rfl | rfl | rfl <;>
      exact isQuiet_of_accepting rfl rfl (by decide +kernel) (by decide +kernel)
  obtain ⟨-, -, imports, last, hsplit, himports, hidle, -⟩ :=
    hwaits.imported_inOrder hruns hquiet rfl
  exact ⟨imports, last, hsplit, himports, hidle⟩

/-- The delivery of persons, where the path of the inbox leads by way of this very delivery. -/
def detourTurn : Turn where
  importer := { personImporter with
    inbox := { personImporter.inbox with root := "inbox/person/001/..", path := ["person", "001", ".."] } }
  parser := acceptingParser
  outage := .none
  world := deliveredWorld

/-- The delivery waits and is imported, and with its directory the way to the inbox is gone: the next
run, which follows it, fails. -/
theorem not_imported_inOrder_detour :
    detourTurn.importer.inbox.isLocked detourTurn.world.files = false ∧
      detourTurn.importer.inbox.dataSets detourTurn.world.files = .ok ["001"] ∧
      detourTurn.importer.inbox.IsRipe detourTurn.world.files detourTurn.world.now "001" ∧
      Turn.Follows ["person"] detourTurn (detourTurn.next (.ofMillis 12000)) ∧
      (∀ turn ∈ [detourTurn, detourTurn.next (.ofMillis 12000)],
        turn.parser = acceptingParser ∧ turn.outage = .none) ∧
      detourTurn.report.result = .ok (.imported "person-11000" "inbox/person/001/../001") ∧
      (detourTurn.next (.ofMillis 12000)).report.result =
        .error (.inbox (.unreadable "inbox/person/001/.." false .missing)) := by
  refine ⟨by decide +kernel, by decide +kernel, ?_, ?_, ?_, by decide +kernel, by decide +kernel⟩
  · exact ⟨⟨0, .ofMillis 1000, .ofMillis 1000⟩, by decide +kernel⟩
  · exact follows_next (by decide +kernel) (by decide +kernel)
  · intro turn hturn
    simp only [List.mem_cons, List.not_mem_nil, or_false] at hturn
    rcases hturn with rfl | rfl <;> exact ⟨rfl, rfl⟩

end Registry
