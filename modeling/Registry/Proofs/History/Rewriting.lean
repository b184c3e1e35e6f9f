import Registry.Proofs.Database.RowChange
import Registry.Proofs.History.Termination

/-!
# Rewriting — a version that is written over the row of its number

To update a version puts it whole in the place of the row that has its number: each stored field in its
own column, and the times behind them.  Whatever was in the row is gone, and no other row is looked at.
Where this is not done, because the version has no number, its record is refused or no row has the
number, the table stays as it is.
-/

namespace Registry

namespace Table

variable {l : Layout} {t t' : Table} {v : Version} {pid : Int}

/-! ## Rewritten rows -/

/-- The row of a number is that of a version which was written at an instant: it has the values of the
stored fields, the times and the number, and no other column. -/
structure IsRowOf (l : Layout) (t : Table) (pid : Int) (cells : Cells) (v : Version) (modified : Instant) :
    Prop where
  names : cells.map (·.1) = l.columnNames
  number : t.read pid cells pidColumn = .integer pid
  fields : ∀ f ∈ l.persisted, t.read pid cells f.name = (v.record.valueOrNull f.name).cell
  validFrom : t.read pid cells validFromColumn = .integer v.validFrom.toMillis
  validTo : t.read pid cells validToColumn = v.validTo.elim .null (.integer ·.toMillis)
  modified : t.read pid cells modifiedColumn = .integer modified.toMillis

/-- A table has become another in which the row of a number is that of a version, and all else is as it
was. -/
structure RewritesRow (l : Layout) (t t' : Table) (pid : Int) (v : Version) (modified : Instant) :
    Prop where
  design : t'.toTableDesign = t.toTableDesign
  lastId : t'.lastId = t.lastId
  row : ∃ cells, t'.rows.get? pid = some cells ∧ IsRowOf l t' pid cells v modified
  others : ∀ id, id ≠ pid → t'.rows.get? id = t.rows.get? id

/-- What comes of writing a version over the row of its number, and the table after it. -/
inductive Rewrites (l : Layout) (t : Table) (v : Version) (modified : Instant) :
    Except HistoryFault Version → Table → Prop
  | unnumbered (hpid : v.pid = none) : Rewrites l t v modified (.error (.unnumbered l.table)) t
  | refused {pid : Int} {fault : RecordFault} (hpid : v.pid = some pid)
      (hfault : l.fault? v.record = some fault) : Rewrites l t v modified (.error (.record fault)) t
  | absent {pid : Int} (hpid : v.pid = some pid) (hconforms : l.conforms v.record = true)
      (habsent : t.rows.get? pid = none) : Rewrites l t v modified (.error (.noRow l.table pid)) t
  | rewritten {pid : Int} {t' : Table} (hpid : v.pid = some pid) (hconforms : l.conforms v.record = true)
      (hpresent : (t.rows.get? pid).isSome = true) (hrow : RewritesRow l t t' pid v modified) :
      Rewrites l t v modified (.ok { v with modified := some modified }) t'

/-- The version has a number, its record conforms, and some row has the number. -/
def CanRewrite (l : Layout) (t : Table) (v : Version) : Prop :=
  ∃ pid, v.pid = some pid ∧ l.conforms v.record = true ∧ (t.rows.get? pid).isSome = true

theorem Rewrites.isOk_iff {modified : Instant} {answer : Except HistoryFault Version}
    (h : Rewrites l t v modified answer t') : (∃ now, answer = .ok now) ↔ CanRewrite l t v := by
  cases h with
  | unnumbered hpid => simp [CanRewrite, hpid]
  | refused hpid hfault => simp [CanRewrite, hpid, Layout.conforms, hfault]
  | absent hpid hconforms habsent => simp [CanRewrite, hpid, habsent]
  | rewritten hpid hconforms hpresent => simp [CanRewrite, hpid, hconforms, hpresent]

/-! ## Assigning a whole row -/

/-- The table after a version was put in the place of the row that has a number. -/
def rewriting (l : Layout) (t : Table) (pid : Int) (v : StoredVersion) : Table :=
  { t with rows := t.rows.map fun id cells => if decide (id = pid) then v.cells l else cells }

variable (hdesign : t.toTableDesign = l.design)
include hdesign

-- A row that has a cell for each column has nothing left of it once each column is assigned.
theorem assign_cells_of_full {cells : Cells} (hfull : cells.map (·.1) = t.columns.map Column.name)
    {v : StoredVersion} (hconforms : l.conforms v.record = true) :
    t.assign (v.cells l) cells = v.cells l := by
  have hnames := namesApart_of_design hdesign
  rw [Cells.eq_ofColumns t.distinct hfull, assign_ofColumns, StoredVersion.cells,
    ← columns_of_design hdesign]
  apply Cells.ofColumns_congr
  intro c hc
  have hcolumn := hc
  rw [columns_of_design hdesign] at hcolumn
  rw [Cells.assigned?_ofColumns t.distinct _ hc]
  exact (coerce_of_mem hc _).trans (StoredVersion.keeps_cell hnames hconforms hcolumn).1

theorem update_number (hfull : t.IsFull) (pid : Int) {v : StoredVersion}
    (hconforms : l.conforms v.record = true) :
    t.update ((v.cells l).map (·.1)) (fun _ _ => (v.cells l).map (·.2))
        (Condition.allHold t [.equals pidColumn (.integer pid)]) =
      .ok ((t.rows.entries.filter fun e => decide (e.1 = pid)).length, t.rewriting l pid v) := by
  have htest : Condition.allHold t [.equals pidColumn (.integer pid)] =
      fun id _ => decide (id = pid) := by
    funext id cells
    rw [Condition.allHold, List.all_cons, List.all_nil, Bool.and_true,
      holds_id (idColumn_of_design hdesign)]
  have hassign : ∀ e ∈ t.rows.entries, t.assign (v.cells l) e.2 = v.cells l := fun e he =>
    assign_cells_of_full hdesign (hfull e.1 e.2 (SortedMap.mem_entries_iff.1 he)) hconforms
  have hmissing : ∀ e ∈ t.rows.entries, decide (e.1 = pid) = true →
      t.missingValue? (t.assign (v.cells l) e.2) = none := by
    intro e he _
    rw [hassign e he, missingValue?_cells hdesign hconforms]
  have hrows : (t.rows.map fun id cells =>
      if decide (id = pid) then t.assign (v.cells l) cells else cells) =
      t.rows.map fun id cells => if decide (id = pid) then v.cells l else cells := by
    apply SortedMap.ext_entries
    apply List.map_congr_left
    intro e he
    dsimp only
    rw [hassign e he]
  rw [htest, update_eq (isPlain_of_design hdesign) (names_cells_of_design hdesign v) _ hmissing, hrows]
  rfl

omit hdesign in
theorem get?_rewriting (pid : Int) (v : StoredVersion) (id : Int) :
    (t.rewriting l pid v).rows.get? id =
      (t.rows.get? id).map fun cells => if decide (id = pid) then v.cells l else cells :=
  SortedMap.get?_map _ _ _

omit hdesign in
theorem filter_number_eq_nil_iff :
    (t.rows.entries.filter fun e => decide (e.1 = pid)) = [] ↔ t.rows.get? pid = none := by
  rw [List.filter_eq_nil_iff]
  constructor
  · intro h
    rw [Option.eq_none_iff_forall_ne_some]
    intro cells hcells
    exact h _ (SortedMap.mem_entries_iff.2 hcells) (decide_eq_true rfl)
  · intro h e he hid
    rw [← of_decide_eq_true hid, SortedMap.mem_entries_iff.1 he] at h
    cases h

-- Where no row has the number, nothing is put anywhere.
omit hdesign in
theorem rewriting_of_absent (habsent : t.rows.get? pid = none) (v : StoredVersion) :
    t.rewriting l pid v = t := by
  have hrows : (t.rewriting l pid v).rows = t.rows := by
    apply SortedMap.ext_get?
    intro id
    rw [get?_rewriting]
    by_cases hid : id = pid
    · rw [hid, habsent, Option.map_none]
    · simp only [decide_eq_false hid, Bool.false_eq_true, if_false, Option.map_id']
  cases t
  exact congrArg (Table.mk _ · _ _) hrows

-- The row of a stored version is that of the version.
theorem isRowOf_stored (v : Version) (pid : Int) (modified : Instant) :
    IsRowOf l t pid ((v.stored l modified).cells l) v modified where
  names := StoredVersion.names_cells l _
  number := read_of_id (idColumn_of_design hdesign) pid _
  fields f hf := by
    rw [read_field hdesign pid _ hf]
    exact congrArg Value.cell (Layout.valueOrNull_stored v.record hf)
  validFrom := read_validFrom hdesign pid _
  validTo := by
    rw [read_validTo hdesign]
    show Cell.ofOption Cell.integer (v.validTo.map Instant.toMillis) = _
    cases v.validTo <;> rfl
  modified := read_modified hdesign pid _

theorem rewritesRow_rewriting (hpresent : (t.rows.get? pid).isSome = true) (v : Version)
    (modified : Instant) :
    t.RewritesRow l (t.rewriting l pid (v.stored l modified)) pid v modified where
  design := rfl
  lastId := rfl
  row := by
    obtain ⟨cells, hcells⟩ := Option.isSome_iff_exists.1 hpresent
    have hdesign' : (t.rewriting l pid (v.stored l modified)).toTableDesign = l.design := hdesign
    refine ⟨(v.stored l modified).cells l, ?_, isRowOf_stored hdesign' v pid modified⟩
    rw [get?_rewriting, hcells, Option.map_some, decide_eq_true rfl, if_pos rfl]
  others id hid := by
    rw [get?_rewriting]
    simp only [decide_eq_false hid, Bool.false_eq_true, if_false, Option.map_id']

end Table

/-! ## In a database -/

namespace Recorder

variable {l : Layout} {db : Database} {t : Table} {v : Version}

theorem update_of_table (htable : db.table? l.table = some t) (hdesign : t.toTableDesign = l.design)
    (hfull : t.IsFull) (w : Recorder) {pid : Int} (hpid : v.pid = some pid)
    (hconforms : l.conforms v.record = true) :
    ∃ after, after.table? l.table = some (t.rewriting l pid (v.stored l w.time)) ∧
      w.update l v db = (if (t.rows.get? pid).isSome then .ok { v with modified := some w.time }
        else .error (.noRow l.table pid), after) := by
  have hfault : l.fault? v.record = none := Option.isNone_iff_eq_none.1 hconforms
  have hcells := Version.cells_eq_ok (Table.namesApart_of_design hdesign) hconforms w.time
  have hstored : l.conforms (v.stored l w.time).record = true := Layout.conforms_stored hconforms
  have hupdate := Table.update_number hdesign hfull pid hstored
  have hnames : ∀ name ∈ ((v.stored l w.time).cells l).map (·.1), name ∈ t.columns.map Column.name := by
    rw [StoredVersion.names_cells, Table.columns_of_design hdesign]
    exact fun _ hname => hname
  have hsense : ∀ c ∈ [Condition.equals pidColumn (.integer pid)], senseOf c.column = .column := by
    intro c hc
    rw [List.mem_singleton.1 hc]
    exact Layout.sense_pid
  have hunknown : t.unknown? ([.equals pidColumn (.integer pid)].map Condition.column) = none := by
    apply Table.unknown?_of_design hdesign
    intro name hname
    exact .inl (List.mem_singleton.1 hname)
  let count := (t.rows.entries.filter fun e => decide (e.1 = pid)).length
  have hrun : ∃ after, db.update l.table ((v.stored l w.time).cells l)
        [.equals pidColumn (.integer pid)] = .ok (count, after) ∧
      after.table? l.table = some (t.rewriting l pid (v.stored l w.time)) := by
    refine ⟨{ db.put l.table (t.rewriting l pid (v.stored l w.time)) with changed := count }, ?_, ?_⟩
    · rw [Database.update_of_columns htable hnames hsense hunknown, hupdate]
      rfl
    · exact Database.table?_put_self db l.table _
  obtain ⟨after, hrun, hafter⟩ := hrun
  refine ⟨after, hafter, ?_⟩
  simp only [update, hpid, hfault, hcells, hrun, count]
  -- the statement counts the rows with the number
  cases hcount : t.rows.entries.filter fun e => decide (e.1 = pid) with
  | nil =>
    rw [Table.filter_number_eq_nil_iff.1 hcount]
    rfl
  | cons e rest =>
    have hpresent : (t.rows.get? pid).isSome = true := by
      rw [Option.isSome_iff_ne_none, Ne, ← Table.filter_number_eq_nil_iff, hcount]
      exact List.cons_ne_nil e rest
    rw [if_pos hpresent]
    rfl

end Recorder

/-- To update a version succeeds just when the version has a number, its record conforms and some row has
the number.  Then the row of the number is that of the version, written at the instant of the recorder,
and all else is as it was.  Otherwise the first of these that fails is the fault, and the table stays as
it is.  No other table is touched. -/
theorem update_rewrites {l : Layout} {db : Database} (hcreated : l.HasTable db) {t : Table}
    (htable : db.table? l.table = some t) (hfull : t.IsFull) (w : Recorder) (v : Version) :
    (∃ t', (w.update l v db).2.table? l.table = some t' ∧
        t.Rewrites l v w.time (w.update l v db).1 t') ∧
      ((∃ now, (w.update l v db).1 = .ok now) ↔ t.CanRewrite l v) ∧
      Database.SameBesides l.table db (w.update l v db).2 := by
  obtain ⟨now, hnow, hdesign⟩ := hcreated.exists_table
  rw [htable, Option.some.injEq] at hnow
  subst hnow
  have hrewrites : ∃ t', (w.update l v db).2.table? l.table = some t' ∧
      t.Rewrites l v w.time (w.update l v db).1 t' := by
    cases hpid : v.pid with
    | none =>
      have hrun : w.update l v db = (.error (.unnumbered l.table), db) := by
        rw [Recorder.update, hpid]
      rw [hrun]
      exact ⟨t, htable, .unnumbered hpid⟩
    | some pid =>
      cases hfault : l.fault? v.record with
      | some fault =>
        have hrun : w.update l v db = (.error (.record fault), db) := by
          simp only [Recorder.update, hpid, hfault]
        rw [hrun]
        exact ⟨t, htable, .refused hpid hfault⟩
      | none =>
        have hconforms : l.conforms v.record = true := Option.isNone_iff_eq_none.2 hfault
        obtain ⟨after, hafter, hrun⟩ := Recorder.update_of_table htable hdesign hfull w hpid hconforms
        rw [hrun]
        refine ⟨_, hafter, ?_⟩
        cases hrow : t.rows.get? pid with
        | none =>
          rw [Table.rewriting_of_absent hrow]
          exact .absent hpid hconforms hrow
        | some cells =>
          have hpresent : (t.rows.get? pid).isSome = true := by rw [hrow]; rfl
          exact .rewritten hpid hconforms hpresent (Table.rewritesRow_rewriting hdesign hpresent v w.time)
  obtain ⟨t', hafter, hanswer⟩ := hrewrites
  exact ⟨⟨t', hafter, hanswer⟩, hanswer.isOk_iff,
    ((w.isLocal_update l v).frame db (Database.lasts_of_ne (w.update_ne_full l v db))).1⟩

/-! ### A small register -/

-- What recorders have written stands in the table that was created.
theorem Layout.Written.hasTable {l : Layout} {db : Database} (h : l.Written db)
    (hsense : senseOf l.key = .column) : l.HasTable db := by
  obtain ⟨created, hcreated⟩ : ∃ created, l.Created created := by
    induction h with
    | created hcreated => exact ⟨_, hcreated⟩
    | called _ _ _ _ ih => exact ih
    | elsewhere _ _ ih => exact ih
  obtain ⟨versions, given, hrecorded⟩ := h.isRecorded hsense
  obtain ⟨t, ht, hdesign, -⟩ := hrecorded.table
  obtain ⟨t', ht', hdesign', -⟩ := hcreated.exists_table
  exact ⟨created, hcreated, by rw [ht, ht', Option.map_some, Option.map_some, hdesign, hdesign']⟩

-- Each of its rows has a cell for each column.
theorem Layout.Written.isFull {l : Layout} {db : Database} (h : l.Written db)
    (hsense : senseOf l.key = .column) {t : Table} (htable : db.table? l.table = some t) : t.IsFull := by
  obtain ⟨versions, given, hrecorded⟩ := h.isRecorded hsense
  obtain ⟨now, hnow, hdesign, hrows, -⟩ := hrecorded.table
  rw [htable, Option.some.injEq] at hnow
  subst hnow
  intro pid cells hcells
  rw [hrows, Table.rowsOf, SortedMap.get?_map, Option.map_eq_some_iff] at hcells
  obtain ⟨v, -, rfl⟩ := hcells
  rw [StoredVersion.names_cells, Table.columns_of_design hdesign]
  rfl

/-- A reading that is put in the place of that of a sensor, with another period and without the sensor. -/
def replacedReading : Version :=
  { pid := some 5
    record := .ofList [("count", .integer 9), ("amount", .decimal ⟨-1, by decide⟩),
      ("taken", .datetime (.ofMillis (-86400001))), ("remark", .text "late")]
    validFrom := .ofMillis 7000, validTo := some (.ofMillis (-7000)), modified := some (.ofMillis 1) }

theorem update_rewrites_crowded :
    ∃ after t t', (Recorder.pinnedAt (.ofMillis 6000)).update readingLayout replacedReading
        crowdedReadings =
        (.ok { replacedReading with modified := some (.ofMillis 6000) }, after) ∧
      crowdedReadings.table? "reading" = some t ∧ after.table? "reading" = some t' ∧
      t.RewritesRow readingLayout t' 5 replacedReading (.ofMillis 6000) := by
  have hwritten : readingLayout.Written crowdedReadings :=
    (Layout.Written.created readingLayout_created).calls
      (Layout.lasting_of_begun (by decide +kernel) _)
  have hcreated : readingLayout.HasTable crowdedReadings := hwritten.hasTable readingLayout_plain.key
  have hanswer : ((Recorder.pinnedAt (.ofMillis 6000)).update readingLayout replacedReading
      crowdedReadings).1 = .ok { replacedReading with modified := some (.ofMillis 6000) } := by
    decide +kernel
  obtain ⟨t, htable, -⟩ := hcreated.exists_table
  obtain ⟨⟨t', hafter, hrewrites⟩, -, -⟩ := update_rewrites hcreated htable
    (hwritten.isFull readingLayout_plain.key htable) (.pinnedAt (.ofMillis 6000)) replacedReading
  rw [hanswer] at hrewrites
  cases hrewrites with
  | rewritten hpid _ _ hrow =>
    cases hpid
    exact ⟨_, t, t', Prod.ext hanswer rfl, htable, hafter, hrow⟩

end Registry
