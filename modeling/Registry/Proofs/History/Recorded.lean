import Registry.Proofs.History.RegisterRows

/-!
# Recorded — a register as the versions that its table keeps

`Recorded l db versions given` says that the table of a layout is there, has the rows of just these
versions and has given the numbers up to `given`.  Each function of a recorder does to the versions
what its name says, whether or not their instants come back from the table as they were, and the table
keeps the versions that come out of it.
-/

namespace Registry

namespace Versions

/-- The versions that a lookup of a key finds at a time. -/
def found (versions : Versions) (l : Layout) (key : Value) (ms : Int) : List (Int × StoredVersion) :=
  versions.entries.filter fun e => e.2.hasKey l key && e.2.holdsAt ms

/-- The versions after the one of a number is written over. -/
def setOne (versions : Versions) (pid : Int) (v : StoredVersion) : Versions :=
  versions.map fun id other => if decide (id = pid) then v else other

theorem mem_found {versions : Versions} {l : Layout} {key : Value} {ms : Int}
    {e : Int × StoredVersion} :
    e ∈ versions.found l key ms ↔
      e ∈ versions.entries ∧ e.2.hasKey l key = true ∧ e.2.holdsAt ms = true := by
  rw [found, List.mem_filter, Bool.and_eq_true]

-- A version under a new number is listed last.
theorem entries_insert {versions : Versions} {pid : Int} (hnew : ∀ e ∈ versions.entries, e.1 < pid)
    (v : StoredVersion) : (versions.insert pid v).entries = versions.entries ++ [(pid, v)] :=
  SortedMap.insertEntry_of_forall_lt hnew

-- A record that is added is what a lookup of its key finds from then on, where it found nothing.
theorem found_opened {versions : Versions} {l : Layout} {w : Recorder} {r : Record} {pid ms : Int}
    (hnew : ∀ e ∈ versions.entries, e.1 < pid)
    (hnone : versions.found l (r.valueOrNull l.key) ms = []) (hle : w.time.toMillis ≤ ms) :
    Versions.found (versions.insert pid ((w.openVersion r).stored l w.time)) l (r.valueOrNull l.key)
      ms = [(pid, (w.openVersion r).stored l w.time)] := by
  have hkey : ((w.openVersion r).stored l w.time).hasKey l (r.valueOrNull l.key) = true :=
    (w.openVersion r).hasKey_stored w.time
  have hholds : ((w.openVersion r).stored l w.time).holdsAt ms = true :=
    Version.holdsAt_stored hle (fun _ hstop => by cases hstop) w.time
  rw [found] at hnone ⊢
  rw [entries_insert hnew, List.filter_append, hnone, List.nil_append, List.filter_eq_self]
  intro e he
  rw [List.mem_singleton.1 he, hkey, hholds]
  rfl

-- Once the only version that a lookup finds has ended, the lookup finds none.
theorem found_setOne {versions : Versions} {l : Layout} {key : Value} {ms stop : Int}
    {e : Int × StoredVersion} (hfound : versions.found l key ms = [e]) {v : StoredVersion}
    (hended : v.validTo = some stop) (hle : stop ≤ ms) : (versions.setOne e.1 v).found l key ms = [] := by
  rw [found, List.filter_eq_nil_iff]
  intro now hnow
  obtain ⟨old, hold, rfl⟩ := List.mem_map.1 hnow
  by_cases hid : old.1 = e.1
  · simp only [hid, decide_true, if_true, Bool.and_eq_true, not_and]
    intro _ hholds
    have hlt := (StoredVersion.holdsAt_iff.1 hholds).2 stop hended
    omega
  · simp only [hid, decide_false, Bool.false_eq_true, if_false, Bool.and_eq_true]
    rintro ⟨hkey, hholds⟩
    have hmem := mem_found.2 ⟨hold, hkey, hholds⟩
    rw [hfound, List.mem_singleton] at hmem
    exact hid (by rw [hmem])

end Versions

/-- What is left of a version that was read and is written again to close it at an instant. -/
def StoredVersion.rewrittenAt (v : StoredVersion) (stop : Instant) : StoredVersion :=
  { record := v.record.restored
    validFrom := (Instant.ofMillis v.validFrom).toMillis
    validTo := some stop.toMillis
    modified := stop.toMillis }

theorem Version.stored_rewritten {l : Layout} {v : StoredVersion} (h : v.IsWritten l) (pid : Int)
    (stop : Instant) :
    ({ v.restored.version pid with validTo := some stop } : Version).stored l stop =
      v.rewrittenAt stop := by
  have hstored : l.stored v.restored.record = v.restored.record := h.restored.stored
  simp only [stored, StoredVersion.version, hstored]
  rfl

/-! ## The register -/

/-- The table of the layout keeps these versions and has given these numbers. -/
structure Recorded (l : Layout) (db : Database) (versions : Versions) (given : Nat) : Prop where
  table : ∃ t, db.table? l.table = some t ∧ t.toTableDesign = l.design ∧
    t.rows = Table.rowsOf l versions ∧ t.lastId = given
  written : ∀ e ∈ versions.entries, e.2.IsWritten l
  numbered : ∀ e ∈ versions.entries, e.1 ≤ given

-- A table that has just been created keeps no version.
theorem Layout.Created.recorded {l : Layout} {db : Database} (h : l.Created db) :
    Recorded l db .empty 0 :=
  ⟨h.exists_table, (fun _ he => by cases he), (fun _ he => by cases he)⟩

namespace Recorded

variable {l : Layout} {db : Database} {versions : Versions} {given : Nat}

/-! ### Lookups -/

-- The rows that a lookup finds are those of the versions that it finds.
theorem validRows_eq (h : Recorded l db versions given) (hsense : senseOf l.key = .column) {key : Value}
    (hfits : key.fits l.keyField.type = true) (asOf : Instant) :
    Recorder.validRows l l.key key asOf db =
      match l.queryFault? with
      | some fault => .error fault
      | none => .ok ((versions.found l key asOf.toMillis).map fun e =>
          StoredVersion.answerOf l e.1 (e.2.shownCell db.clock)) := by
  obtain ⟨t, htable, hdesign, hrows, -⟩ := h.table
  let test (_ : Int) (v : StoredVersion) : Bool := v.hasKey l key && v.holdsAt asOf.toMillis
  have htest : ∀ e ∈ versions.entries,
      Condition.allHold t (Recorder.validConditions l.key key asOf) e.1 (e.2.cells l) =
        test e.1 e.2 :=
    fun e he => Recorder.allHold_validConditions hdesign (h.written e he).conforms hfits asOf e.1
  rw [Recorder.validRows_of_table htable hdesign l.key_mem_columnNames hsense,
    Table.rowsWhere_rowsOf hrows htest, List.map_map]
  cases l.queryFault? with
  | some fault => rfl
  | none => exact congrArg _ (List.map_congr_left fun e _ => Table.shown_row hdesign db.clock e.1 e.2)

theorem fetchAt_none (h : Recorded l db versions given) (hsense : senseOf l.key = .column)
    (hquery : l.queryFault? = none) {key : Value} (hfits : key.fits l.keyField.type = true)
    {asOf : Instant} (hfound : versions.found l key asOf.toMillis = []) :
    Recorder.fetchAt l key asOf db = .ok none := by
  have hrows := h.validRows_eq hsense hfits asOf
  rw [hquery, hfound, List.map_nil] at hrows
  rw [Recorder.fetchAt_of_validRows hfits hrows]
  rfl

theorem fetchAt_some (h : Recorded l db versions given) (hplain : l.NamesPlain) {key : Value}
    (hfits : key.fits l.keyField.type = true) {asOf : Instant} {e : Int × StoredVersion}
    (hfound : versions.found l key asOf.toMillis = [e]) :
    Recorder.fetchAt l key asOf db = .ok (some (e.2.restored.version e.1)) := by
  obtain ⟨t, -, hdesign, -⟩ := h.table
  have hmem : e ∈ versions.found l key asOf.toMillis := by
    rw [hfound]
    exact List.mem_cons_self ..
  have hread := StoredVersion.readVersion_answer (Table.namesApart_of_design hdesign)
    (h.written e (Versions.mem_found.1 hmem).1) e.1
  have hrows := h.validRows_eq hplain.key hfits asOf
  rw [hplain.queryFault?, hfound, List.map_singleton, StoredVersion.answerOf_shownCell hplain] at hrows
  rw [Recorder.fetchAt_of_validRows hfits hrows, Recorder.onlyVersion, hread]
  rfl

theorem fetchAt_several (h : Recorded l db versions given) (hsense : senseOf l.key = .column)
    (hquery : l.queryFault? = none) {key : Value} (hfits : key.fits l.keyField.type = true)
    {asOf : Instant} {e other : Int × StoredVersion} {rest : List (Int × StoredVersion)}
    (hfound : versions.found l key asOf.toMillis = e :: other :: rest) :
    Recorder.fetchAt l key asOf db =
      .error (.severalCurrent l.table l.key key.display (rest.length + 2)) := by
  have hrows := h.validRows_eq hsense hfits asOf
  rw [hquery, hfound, List.map_cons, List.map_cons] at hrows
  rw [Recorder.fetchAt_of_validRows hfits hrows]
  simp only [Recorder.onlyVersion, List.length_cons, List.length_map]

-- A lookup that answers has been understood.
theorem queryFault?_of_fetchAt (h : Recorded l db versions given) (hsense : senseOf l.key = .column)
    {key : Value} {asOf : Instant} {answer : Option Version}
    (hfetch : Recorder.fetchAt l key asOf db = .ok answer) : l.queryFault? = none := by
  have hfits := Recorder.fits_of_fetchAt hfetch
  cases hquery : l.queryFault? with
  | none => rfl
  | some fault =>
    have hrows := h.validRows_eq hsense hfits asOf
    rw [hquery] at hrows
    rw [Recorder.fetchAt_of_fault hfits hrows] at hfetch
    cases hfetch

theorem found_eq_nil (h : Recorded l db versions given) (hsense : senseOf l.key = .column) {key : Value}
    {asOf : Instant} (hnone : Recorder.fetchAt l key asOf db = .ok none) :
    versions.found l key asOf.toMillis = [] := by
  have hfits := Recorder.fits_of_fetchAt hnone
  have hrows := Recorder.validRows_eq_nil_of_fetchAt hfits hnone
  rw [h.validRows_eq hsense hfits asOf, h.queryFault?_of_fetchAt hsense hnone] at hrows
  exact List.map_eq_nil_iff.1 (Except.ok.inj hrows)

-- A lookup that answers with a version has found that one only, and reads it.
theorem exists_of_fetchAt (h : Recorded l db versions given) (hsense : senseOf l.key = .column)
    {key : Value} {asOf : Instant} {v : Version}
    (hfetch : Recorder.fetchAt l key asOf db = .ok (some v)) :
    ∃ e, versions.found l key asOf.toMillis = [e] ∧
      l.readVersion (StoredVersion.answerOf l e.1 (e.2.shownCell db.clock)) = .ok v := by
  have hfits := Recorder.fits_of_fetchAt hfetch
  have hquery := h.queryFault?_of_fetchAt hsense hfetch
  cases hfound : versions.found l key asOf.toMillis with
  | nil =>
    rw [h.fetchAt_none hsense hquery hfits hfound] at hfetch
    cases hfetch
  | cons e rest =>
    cases rest with
    | nil =>
      refine ⟨e, rfl, ?_⟩
      have hrows := h.validRows_eq hsense hfits asOf
      rw [hquery, hfound, List.map_singleton] at hrows
      rw [Recorder.fetchAt_of_validRows hfits hrows, Recorder.onlyVersion] at hfetch
      cases hread : l.readVersion (StoredVersion.answerOf l e.1 (e.2.shownCell db.clock)) with
      | error fault =>
        rw [hread] at hfetch
        cases hfetch
      | ok read =>
        rw [hread] at hfetch
        cases hfetch
        rfl
    | cons other rest =>
      rw [h.fetchAt_several hsense hquery hfits hfound] at hfetch
      cases hfetch

-- Where names are plain, it reads the version as it is.
theorem eq_of_fetchAt (h : Recorded l db versions given) (hplain : l.NamesPlain) {key : Value}
    {asOf : Instant} {v : Version} (hfetch : Recorder.fetchAt l key asOf db = .ok (some v)) :
    ∃ e, versions.found l key asOf.toMillis = [e] ∧ v = e.2.restored.version e.1 := by
  obtain ⟨e, hfound, -⟩ := h.exists_of_fetchAt hplain.key hfetch
  rw [h.fetchAt_some hplain (Recorder.fits_of_fetchAt hfetch) hfound] at hfetch
  cases hfetch
  exact ⟨e, hfound, rfl⟩

-- A lookup that succeeds has found at most one version.
theorem length_found_of_fetchAt (h : Recorded l db versions given) (hsense : senseOf l.key = .column)
    {key : Value} {asOf : Instant} {answer : Option Version}
    (hfetch : Recorder.fetchAt l key asOf db = .ok answer) :
    (versions.found l key asOf.toMillis).length ≤ 1 := by
  cases answer with
  | none =>
    rw [h.found_eq_nil hsense hfetch]
    exact Nat.zero_le 1
  | some v =>
    obtain ⟨e, hfound, -⟩ := h.exists_of_fetchAt hsense hfetch
    rw [hfound]
    exact Nat.le_refl 1

-- The numbers of all versions lie below the next one.
theorem lt_next (h : Recorded l db versions given) :
    ∀ e ∈ versions.entries, e.1 < (given + 1 : Nat) := by
  intro e he
  have := h.numbered e he
  omega

/-! ### Writes of one statement -/

theorem put (db : Database) (hwritten : ∀ e ∈ versions.entries, e.2.IsWritten l)
    (hnumbered : ∀ e ∈ versions.entries, e.1 ≤ given) {t : Table}
    (hdesign : t.toTableDesign = l.design) (changed : Nat) :
    Recorded l { db.put l.table (t.keeping l versions given) with changed } versions given :=
  ⟨⟨_, Database.table?_put_self db l.table _, hdesign, rfl, rfl⟩, hwritten, hnumbered⟩

theorem insertRow_eq (h : Recorded l db versions given) (hroom : given + 1 < 2 ^ 63) (w : Recorder)
    {v : Version} (hconforms : l.conforms v.record = true) :
    ∃ db', w.insertRow l v db = (.ok (given + 1 : Nat), db') ∧
      Recorded l db' (versions.insert (given + 1 : Nat) (v.stored l w.time)) (given + 1) := by
  obtain ⟨t, htable, hdesign, hrows, hlast⟩ := h.table
  refine ⟨_, ?_, Recorded.put db ?_ ?_ hdesign 1⟩
  · rw [Recorder.insertRow_of_table htable hdesign w hconforms,
      Table.nextId_rowsOf hdesign hrows hlast h.numbered, if_pos ((Table.isInteger_next given).2 hroom),
      Table.appending_rowsOf hdesign hrows hlast h.numbered]
  · intro e he
    rcases SortedMap.mem_insertEntry he with rfl | he
    · exact Version.isWritten_stored hconforms w.time
    · exact h.written e he
  · intro e he
    rcases SortedMap.mem_insertEntry he with rfl | he
    · exact Int.le_refl _
    · have := h.numbered e he
      omega

-- When all numbers have been given, no version is added.
theorem insertRow_full (h : Recorded l db versions given) (hfull : ¬ given + 1 < 2 ^ 63)
    (w : Recorder) {v : Version} (hconforms : l.conforms v.record = true) :
    w.insertRow l v db = (.error (.database .full), db.refused .full) := by
  obtain ⟨t, htable, hdesign, hrows, hlast⟩ := h.table
  rw [Recorder.insertRow_of_table htable hdesign w hconforms,
    Table.nextId_rowsOf hdesign hrows hlast h.numbered,
    if_neg fun hinteger => hfull ((Table.isInteger_next given).1 hinteger)]

-- A version that was added has the number that follows all others, so there was one left.
theorem insertRow_eq_ok (h : Recorded l db versions given) {w : Recorder} {v : Version}
    (hconforms : l.conforms v.record = true) {pid : Int} {after : Database}
    (hinsert : w.insertRow l v db = (.ok pid, after)) :
    given + 1 < 2 ^ 63 ∧ pid = (given + 1 : Nat) ∧
      Recorded l after (versions.insert pid (v.stored l w.time)) (given + 1) := by
  by_cases hroom : given + 1 < 2 ^ 63
  · obtain ⟨after', hinsert', hafter⟩ := h.insertRow_eq hroom w hconforms
    rw [hinsert] at hinsert'
    cases hinsert'
    exact ⟨hroom, rfl, hafter⟩
  · rw [h.insertRow_full hroom w hconforms] at hinsert
    cases hinsert

-- Assignments to the rows that pass a test change the versions that pass it.
theorem update_eq (h : Recorded l db versions given) {assignments : Cells}
    {conditions : List Condition} (test : Int → StoredVersion → Bool)
    (change : StoredVersion → StoredVersion)
    (hnames : ∀ name ∈ assignments.map (·.1), name ∈ l.columnNames)
    (hcolumns : ∀ c ∈ conditions, c.column = pidColumn ∨ c.column ∈ l.columnNames)
    (hsense : ∀ c ∈ conditions, senseOf c.column = .column)
    (hstep : ∀ t : Table, t.toTableDesign = l.design → ∀ e ∈ versions.entries,
      Condition.allHold t conditions e.1 (e.2.cells l) = test e.1 e.2 ∧
        (test e.1 e.2 = true → t.assign assignments (e.2.cells l) = (change e.2).cells l ∧
          (change e.2).IsWritten l)) :
    ∃ db', db.update l.table assignments conditions =
        .ok ((versions.entries.filter fun e => test e.1 e.2).length, db') ∧
      Recorded l db' (versions.map fun pid v => if test pid v then change v else v) given := by
  obtain ⟨t, htable, hdesign, hrows, hlast⟩ := h.table
  have hunknown : t.unknown? (conditions.map Condition.column) = none := by
    apply Table.unknown?_of_design hdesign
    intro name hname
    obtain ⟨c, hc, rfl⟩ := List.mem_map.1 hname
    exact hcolumns c hc
  have hupdate := Table.update_rowsOf hdesign hrows (fun e he => (hstep t hdesign e he).1) hnames
    fun e he htrue =>
      ⟨((hstep t hdesign e he).2 htrue).1, ((hstep t hdesign e he).2 htrue).2.conforms⟩
  rw [hlast] at hupdate
  refine ⟨_, ?_, Recorded.put db ?_ ?_ hdesign (versions.entries.filter fun e => test e.1 e.2).length⟩
  · rw [Database.update_of_columns htable (by rwa [Table.columns_of_design hdesign]) hsense hunknown,
      hupdate]
    rfl
  · intro changed hchanged
    obtain ⟨e, he, rfl⟩ := List.mem_map.1 hchanged
    by_cases htrue : test e.1 e.2 = true
    · simp only [htrue, if_true]
      exact ((hstep t hdesign e he).2 htrue).2
    · simp only [htrue]
      exact h.written e he
  · intro changed hchanged
    obtain ⟨e, he, rfl⟩ := List.mem_map.1 hchanged
    exact h.numbered e he

-- The versions of a key that hold on to an instant or beyond are closed at it, and counted.
theorem terminateAt_eq (h : Recorded l db versions given) (hsense : senseOf l.key = .column)
    (w : Recorder) {r : Record} (hfits : (r.valueOrNull l.key).fits l.keyField.type = true) (stop : Instant) :
    ∃ db', w.terminateAt l r stop db = (.ok (versions.entries.filter fun e =>
        e.2.hasKey l (r.valueOrNull l.key) && e.2.reaches stop.toMillis).length, db') ∧
      Recorded l db' (versions.map fun _ v =>
        if v.hasKey l (r.valueOrNull l.key) && v.reaches stop.toMillis then
          v.closedAt stop.toMillis w.time.toMillis else v) given := by
  let assignments : Cells := [(validToColumn, stop.cell), (modifiedColumn, w.time.cell)]
  let test (_ : Int) (v : StoredVersion) : Bool :=
    v.hasKey l (r.valueOrNull l.key) && v.reaches stop.toMillis
  have hnames : ∀ name ∈ assignments.map (·.1), name ∈ l.columnNames := by
    intro name hname
    simp only [assignments, List.map_cons, List.map_nil, List.mem_cons, List.not_mem_nil,
      or_false] at hname
    rcases hname with rfl | rfl
    · exact List.mem_map_of_mem l.validTo_mem
    · exact List.mem_map_of_mem l.modified_mem
  have hcolumns : ∀ c ∈ [Recorder.keyCondition l.key (r.valueOrNull l.key),
      .nullOrAtLeast validToColumn stop.cell], c.column = pidColumn ∨ c.column ∈ l.columnNames := by
    intro c hc
    simp only [List.mem_cons, List.not_mem_nil, or_false] at hc
    rcases hc with rfl | rfl
    · exact .inr (Recorder.keyCondition_column .. ▸ l.key_mem_columnNames)
    · exact .inr (List.mem_map_of_mem l.validTo_mem)
  have hsenses : ∀ c ∈ [Recorder.keyCondition l.key (r.valueOrNull l.key),
      .nullOrAtLeast validToColumn stop.cell], senseOf c.column = .column := by
    intro c hc
    simp only [List.mem_cons, List.not_mem_nil, or_false] at hc
    rcases hc with rfl | rfl
    · rwa [Recorder.keyCondition_column]
    · exact Layout.sense_validTo
  obtain ⟨db', hupdate, hrecorded⟩ := h.update_eq test
    (fun v => v.closedAt stop.toMillis w.time.toMillis) hnames hcolumns hsenses fun t hdesign e he => ⟨by
      simp only [test, Condition.allHold, List.all_cons, List.all_nil, Bool.and_true,
        Table.holds_key hdesign (h.written e he).conforms hfits, Table.holds_atLeast hdesign],
      fun _ => ⟨Table.assign_closed hdesign e.2 stop w.time,
        (h.written e he).conforms, (h.written e he).stored⟩⟩
  refine ⟨db', ?_, hrecorded⟩
  simp only [assignments] at hupdate
  simp only [Recorder.terminateAt, Field.cell, hfits, if_true, hupdate, test]

-- A version that is written again takes the place of that under its number, if there is one.
theorem update_version_eq (h : Recorded l db versions given) (w : Recorder) {v : Version} {pid : Int}
    (hpid : v.pid = some pid) (hconforms : l.conforms v.record = true) :
    ∃ db', Recorded l db' (versions.setOne pid (v.stored l w.time)) given ∧
      w.update l v db = (if versions.entries.filter (fun e => decide (e.1 = pid)) = [] then
        .error (.noRow l.table pid) else .ok { v with modified := some w.time }, db') := by
  obtain ⟨t, -, hdesign, -⟩ := h.table
  have hapart := Table.namesApart_of_design hdesign
  have hfault : l.fault? v.record = none := Option.isNone_iff_eq_none.1 hconforms
  have hwritten := Version.isWritten_stored hconforms w.time
  have hnames : ∀ name ∈ ((v.stored l w.time).cells l).map (·.1), name ∈ l.columnNames := by
    rw [StoredVersion.names_cells]
    exact fun _ hname => hname
  have hcolumns : ∀ c ∈ [Condition.equals pidColumn (.integer pid)],
      c.column = pidColumn ∨ c.column ∈ l.columnNames := by
    intro c hc
    rw [List.mem_singleton.1 hc]
    exact .inl rfl
  have hsense : ∀ c ∈ [Condition.equals pidColumn (.integer pid)], senseOf c.column = .column := by
    intro c hc
    rw [List.mem_singleton.1 hc]
    exact Layout.sense_pid
  let test (id : Int) (_ : StoredVersion) : Bool := decide (id = pid)
  obtain ⟨db', hupdate, hrecorded⟩ := h.update_eq test (fun _ => v.stored l w.time)
    hnames hcolumns hsense fun t hdesign e he => ⟨by
      simp only [test, Condition.allHold, List.all_cons, List.all_nil, Bool.and_true,
        Table.holds_id (Table.idColumn_of_design hdesign)],
      fun _ => ⟨Table.assign_row hdesign e.2 hwritten.conforms, hwritten⟩⟩
  refine ⟨db', hrecorded, ?_⟩
  simp only [Recorder.update, hpid, hfault, Version.cells_eq_ok hapart hconforms, hupdate, test]
  cases versions.entries.filter fun e => decide (e.1 = pid) <;> rfl

-- A version that is read and written again with an end is the one under its number.
theorem close_eq (h : Recorded l db versions given) (w : Recorder) {e : Int × StoredVersion}
    (hentry : e ∈ versions.entries) :
    ∃ now closed, w.update l { e.2.restored.version e.1 with validTo := some w.time } db =
        (.ok now, closed) ∧
      Recorded l closed (versions.setOne e.1 (e.2.rewrittenAt w.time)) given := by
  have hwritten := h.written e hentry
  obtain ⟨closed, hclosed, hupdate⟩ := h.update_version_eq w
    (v := { e.2.restored.version e.1 with validTo := some w.time }) rfl hwritten.restored.conforms
  rw [Version.stored_rewritten hwritten] at hclosed
  -- The row that is written over is there, so the count is not the one that makes a fault.
  rw [if_neg (List.ne_nil_of_mem (List.mem_filter.2 ⟨hentry, decide_eq_true rfl⟩))] at hupdate
  exact ⟨_, closed, hupdate, hclosed⟩

/-! ### Reconciliation -/

-- Where a record is added there was a number left.
theorem room_of_add (h : Recorded l db versions given) {w : Recorder} {r : Record}
    {tell : Int → Recorder.Reconciliation} {answer : Recorder.Reconciliation}
    (hok : (w.add l r tell db).1 = .ok answer) (hconforms : l.conforms r = true) :
    given + 1 < 2 ^ 63 := by
  rw [w.add_eq] at hok
  rcases hinsert : w.insertRow l (w.openVersion r) db with ⟨fault | pid, after⟩
  · rw [hinsert] at hok
    cases hok
  · exact (h.insertRow_eq_ok hconforms hinsert).1

-- A record that is added gets the next number.
theorem add_eq (h : Recorded l db versions given) (w : Recorder) {r : Record}
    {tell : Int → Recorder.Reconciliation}
    (hroom : given + 1 < 2 ^ 63 ∨ ∃ answer, (w.add l r tell db).1 = .ok answer)
    (hconforms : l.conforms r = true) :
    ∃ db', w.add l r tell db = (.ok (tell (given + 1 : Nat)), db') ∧
      Recorded l db' (versions.insert (given + 1 : Nat) ((w.openVersion r).stored l w.time))
        (given + 1) := by
  have hroom : given + 1 < 2 ^ 63 :=
    hroom.elim id fun ⟨_, hok⟩ => h.room_of_add hok hconforms
  obtain ⟨db', hinsert, hrecorded⟩ := h.insertRow_eq hroom w (v := w.openVersion r) hconforms
  refine ⟨db', ?_, hrecorded⟩
  rw [w.add_eq, hinsert]

theorem reconcile_eq_add (h : Recorded l db versions given) (hplain : l.NamesPlain)
    (w : Recorder) {r : Record}
    (hconforms : l.conforms r = true)
    (hfound : versions.found l (r.valueOrNull l.key) w.time.toMillis = []) :
    w.reconcile l r db = w.add l r .inserted db := by
  have hfetch := h.fetchAt_none hplain.key hplain.queryFault? (Layout.key_fits hconforms) hfound
  rw [w.reconcile_eq, Recorder.fetchCurrent, hfetch]
  rfl

theorem reconcile_absent (h : Recorded l db versions given) (hplain : l.NamesPlain)
    (w : Recorder) {r : Record}
    (hroom : given + 1 < 2 ^ 63 ∨ ∃ answer, (w.reconcile l r db).1 = .ok answer)
    (hconforms : l.conforms r = true)
    (hfound : versions.found l (r.valueOrNull l.key) w.time.toMillis = []) :
    ∃ db', w.reconcile l r db = (.ok (.inserted (given + 1 : Nat)), db') ∧
      Recorded l db' (versions.insert (given + 1 : Nat) ((w.openVersion r).stored l w.time))
        (given + 1) := by
  rw [h.reconcile_eq_add hplain w hconforms hfound] at hroom ⊢
  exact h.add_eq w hroom hconforms

theorem reconcile_same (h : Recorded l db versions given) (hplain : l.NamesPlain)
    (w : Recorder) {r : Record}
    (hconforms : l.conforms r = true) {e : Int × StoredVersion}
    (hfound : versions.found l (r.valueOrNull l.key) w.time.toMillis = [e])
    (hsame : l.samePersisted e.2.record.restored r = true) :
    w.reconcile l r db = (.ok (.unchanged e.1), db) := by
  have hfetch := h.fetchAt_some hplain (Layout.key_fits hconforms) hfound
  simp only [Recorder.reconcile, Recorder.fetchCurrent, hfetch, StoredVersion.version,
    StoredVersion.restored, hsame, if_true]

-- The version that holds is written again as a whole, and only then is the record added.
theorem exists_reconcile_eq_add (h : Recorded l db versions given) (hplain : l.NamesPlain)
    (w : Recorder) {r : Record}
    (hconforms : l.conforms r = true) {e : Int × StoredVersion}
    (hfound : versions.found l (r.valueOrNull l.key) w.time.toMillis = [e])
    (hdifferent : l.samePersisted e.2.record.restored r = false) :
    ∃ closed, Recorded l closed (versions.setOne e.1 (e.2.rewrittenAt w.time)) given ∧
      w.reconcile l r db = w.add l r (.replaced e.1) closed := by
  obtain ⟨hentry, -, -⟩ := Versions.mem_found.1 (hfound ▸ List.mem_singleton_self e)
  have hfetch := h.fetchAt_some hplain (Layout.key_fits hconforms) hfound
  obtain ⟨now, closed, hclose, hrecorded⟩ := h.close_eq w hentry
  refine ⟨closed, hrecorded, ?_⟩
  have hdifferent' : l.samePersisted e.2.restored.record r = false := hdifferent
  rw [w.reconcile_eq, Recorder.fetchCurrent, hfetch]
  simp only [Recorder.settle, StoredVersion.version, hdifferent', Bool.false_eq_true, if_false]
  simp only [StoredVersion.version] at hclose
  rw [hclose]
  rfl

theorem reconcile_different (h : Recorded l db versions given) (hplain : l.NamesPlain)
    (w : Recorder) {r : Record}
    (hroom : given + 1 < 2 ^ 63 ∨ ∃ answer, (w.reconcile l r db).1 = .ok answer)
    (hconforms : l.conforms r = true) {e : Int × StoredVersion}
    (hfound : versions.found l (r.valueOrNull l.key) w.time.toMillis = [e])
    (hdifferent : l.samePersisted e.2.record.restored r = false) :
    ∃ db', w.reconcile l r db = (.ok (.replaced e.1 (given + 1 : Nat)), db') ∧
      Recorded l db' ((versions.setOne e.1 (e.2.rewrittenAt w.time)).insert (given + 1 : Nat)
        ((w.openVersion r).stored l w.time)) (given + 1) := by
  obtain ⟨closed, hrecorded, hreconcile⟩ :=
    h.exists_reconcile_eq_add hplain w hconforms hfound hdifferent
  rw [hreconcile] at hroom ⊢
  exact hrecorded.add_eq w hroom hconforms

end Recorded

end Registry
