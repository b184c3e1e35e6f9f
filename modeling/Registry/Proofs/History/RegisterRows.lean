import Registry.Proofs.History.Reconciliation
import Registry.Proofs.History.RegisterTable

/-!
# RegisterRows — lookups and new versions in the table of a register

The table may have any rows besides those of which a statement speaks.  A lookup reads the rows that
meet its conditions, and a new version is one more row behind the others.
-/

namespace Registry

/-! ## Tables in a database -/

namespace Database

theorem table?_createIndex {db db' : Database} {ifMissing : Bool} {index table : String}
    {columns : List String} (h : db.createIndex ifMissing index table columns = .ok db')
    (name : String) : db'.table? name = db.table? name := by
  unfold createIndex at h
  split at h
  · cases h
  · cases h
  · split at h
    · cases h
    · split at h
      · cases h
      · split at h
        · split at h
          · cases h
            rfl
          · cases h
        · split at h
          · cases h
          · cases h
            rfl

end Database

namespace Layout

/-- The table of the layout has just been created, where none was. -/
def Created (l : Layout) (db : Database) : Prop :=
  ∃ before, before.table? l.table = none ∧ l.createTable before = (.ok (), db)

/-- The table of the layout is the one that was created, with whatever rows it has now. -/
def HasTable (l : Layout) (db : Database) : Prop :=
  ∃ created, l.Created created ∧
    (db.table? l.table).map Table.toTableDesign = (created.table? l.table).map Table.toTableDesign

variable {l : Layout} {db : Database}

-- A table that has just been created has the columns of its layout and no row.
theorem Created.exists_table (h : l.Created db) :
    ∃ t, db.table? l.table = some t ∧ t.toTableDesign = l.design ∧ t.rows = .empty ∧ t.lastId = 0 := by
  obtain ⟨before, hnone, hcreate⟩ := h
  -- The index that is made behind the table leaves the table as it is.
  unfold createTable at hcreate
  split at hcreate
  · cases hcreate
  rename_i created hcreated
  obtain ⟨t, rfl, ht⟩ := Database.createTable_eq_ok (d := l.design) hnone hcreated
  split at hcreate
  · cases hcreate
  rename_i indexed hindexed
  cases hcreate
  refine ⟨t, ?_, ht⟩
  rw [Database.table?_createIndex hindexed]
  exact Database.table?_put_self _ _ _

theorem created_of_isOk (hnone : db.table? l.table = none)
    (hok : (l.createTable db).1.isOk = true) : l.Created (l.createTable db).2 := by
  refine ⟨db, hnone, Prod.ext ?_ rfl⟩
  cases hanswer : (l.createTable db).1 with
  | error fault =>
    rw [hanswer] at hok
    cases hok
  | ok answer => rfl

theorem Created.hasTable (h : l.Created db) : l.HasTable db := ⟨db, h, rfl⟩

theorem HasTable.exists_table (h : l.HasTable db) :
    ∃ t, db.table? l.table = some t ∧ t.toTableDesign = l.design := by
  obtain ⟨created, hcreated, hsame⟩ := h
  obtain ⟨t, ht, hdesign, -⟩ := hcreated.exists_table
  rw [ht, Option.map_some, Option.map_eq_some_iff] at hsame
  obtain ⟨now, hnow, heq⟩ := hsame
  exact ⟨now, hnow, heq.trans hdesign⟩

theorem persisted_find {f : Field} (hf : f ∈ l.persisted) :
    (l.persisted.find? fun g => g.name == f.name) = some f := by
  have hnodup : (l.persisted.map Field.name).Nodup :=
    l.names_nodup.sublist (List.filter_sublist.map Field.name)
  exact find?_name hnodup hf

theorem keyField_find (l : Layout) :
    (l.persisted.find? fun f => f.name == l.key) = some l.keyField := by
  obtain ⟨hmem, hname⟩ := l.keyField_mem
  rw [← hname]
  exact persisted_find hmem

theorem key_mem_columnNames (l : Layout) : l.key ∈ l.columnNames := by
  obtain ⟨hmem, hname⟩ := l.keyField_mem
  rw [← hname]
  exact List.mem_map_of_mem (column_mem hmem)

theorem NamesPlain.key (h : l.NamesPlain) : senseOf l.key = .column := h.sense l.key_mem_columnNames

end Layout

namespace Recorder

variable {l : Layout} {db : Database} {t : Table} {key : Value} {asOf : Instant}

theorem isLeap_time (w : Recorder) : w.time.isLeap = false := by
  rw [← w.time_truncated]
  exact Instant.isLeap_ofMillis _

theorem keyCondition_column (column : String) (key : Value) :
    (keyCondition column key).column = column := by
  unfold keyCondition
  split <;> rfl

/-! ## Lookups -/

theorem sense_validConditions {column : String} (h : senseOf column = .column) (key : Value)
    (asOf : Instant) : ∀ c ∈ validConditions column key asOf, senseOf c.column = .column := by
  intro c hc
  simp only [validConditions, List.mem_cons, List.not_mem_nil, or_false] at hc
  rcases hc with rfl | rfl | rfl
  · rwa [keyCondition_column]
  · show senseOf validFromColumn = .column
    exact Layout.sense_validFrom
  · show senseOf validToColumn = .column
    exact Layout.sense_validTo

-- A lookup shows the rows that meet its conditions, unless a name in it opens a phrase.
theorem validRows_of_table (htable : db.table? l.table = some t) (hdesign : t.toTableDesign = l.design)
    {column : String} (hcolumn : column ∈ l.columnNames) (hsense : senseOf column = .column)
    (key : Value) (asOf : Instant) :
    validRows l column key asOf db =
      match l.queryFault? with
      | some fault => .error fault
      | none => .ok ((Database.rowsWhere t (validConditions column key asOf)).map fun e =>
          (pidColumn :: l.columnNames).map (t.shown db.clock e.1 e.2)) := by
  -- Every name in the query is that of a column, so the table has an answer.
  have hknown : t.unknown? (pidColumn :: l.columnNames ++
      (validConditions column key asOf).map Condition.column) = none := by
    apply Table.unknown?_of_design hdesign
    intro name hname
    simp only [validConditions, List.map_cons, List.map_nil, List.cons_append,
      List.mem_cons, List.mem_append, List.not_mem_nil, or_false, keyCondition_column] at hname
    rcases hname with hpid | hmem | hkey | hfrom | hto
    · exact .inl hpid
    · exact .inr hmem
    · exact .inr (hkey ▸ hcolumn)
    · exact .inr (hfrom ▸ List.mem_map_of_mem l.validFrom_mem)
    · exact .inr (hto ▸ List.mem_map_of_mem l.validTo_mem)
  exact Database.select_of_columns htable (sense_validConditions hsense key asOf) hknown

-- A row that keeps a version is found just when the version has the value and holds.
theorem allHold_validConditions_field (hdesign : t.toTableDesign = l.design) {v : StoredVersion}
    (hconforms : l.conforms v.record = true) {f : Field} (hf : f ∈ l.persisted)
    (hfits : key.fits f.type = true) (asOf : Instant) (pid : Int) :
    Condition.allHold t (validConditions f.name key asOf) pid (v.cells l) =
      (v.hasValue f.name key && v.holdsAt asOf.toMillis) := by
  simp only [Condition.allHold, validConditions, List.all_cons, List.all_nil, Bool.and_true,
    Table.holds_field hdesign hconforms hf hfits, Table.holds_validFrom hdesign,
    Table.holds_above hdesign, StoredVersion.holdsAt]

theorem allHold_validConditions (hdesign : t.toTableDesign = l.design) {v : StoredVersion}
    (hconforms : l.conforms v.record = true) (hfits : key.fits l.keyField.type = true)
    (asOf : Instant) (pid : Int) :
    Condition.allHold t (validConditions l.key key asOf) pid (v.cells l) =
      (v.hasKey l key && v.holdsAt asOf.toMillis) := by
  obtain ⟨hmem, hname⟩ := l.keyField_mem
  have hrow := allHold_validConditions_field hdesign hconforms hmem hfits asOf pid
  rwa [hname] at hrow

/-- What a lookup of a key answers, by the rows that it finds. -/
def onlyVersion (l : Layout) (key : Value) : List Cells → Except HistoryFault (Option Version)
  | [] => .ok none
  | [row] => (l.readVersion row).map some
  | rows => .error (.severalCurrent l.table l.key key.display rows.length)

theorem fetchAt_of_validRows (hfits : key.fits l.keyField.type = true) {rows : List Cells}
    (hrows : validRows l l.key key asOf db = .ok rows) :
    fetchAt l key asOf db = onlyVersion l key rows := by
  rw [fetchAt, fetchBy]
  simp only [l.keyField_find, Field.cell, hfits, if_true, hrows]
  rcases rows with _ | ⟨row, _ | ⟨other, rest⟩⟩ <;> rfl

theorem fetchAt_of_fault (hfits : key.fits l.keyField.type = true) {fault : DatabaseFault}
    (hrows : validRows l l.key key asOf db = .error fault) :
    fetchAt l key asOf db = .error (.database fault) := by
  rw [fetchAt, fetchBy]
  simp only [l.keyField_find, Field.cell, hfits, if_true, hrows]

theorem fetchAt_of_not_fits (hfits : ¬ key.fits l.keyField.type = true) :
    fetchAt l key asOf db = .error (.wrongKind l.keyField.name l.keyField.type key.kind) := by
  rw [fetchAt, fetchBy]
  simp only [l.keyField_find, Field.cell, if_neg hfits]

-- A lookup answers only where the key is of the type of its field.
theorem fits_of_fetchAt {answer : Option Version} (hfetch : fetchAt l key asOf db = .ok answer) :
    key.fits l.keyField.type = true := by
  cases hfits : key.fits l.keyField.type with
  | true => rfl
  | false =>
    rw [fetchAt_of_not_fits (by rw [hfits]; exact Bool.false_ne_true)] at hfetch
    cases hfetch

-- Where a lookup finds nothing, no row meets its conditions.
theorem validRows_eq_nil_of_fetchAt (hfits : key.fits l.keyField.type = true)
    (hnone : fetchAt l key asOf db = .ok none) : validRows l l.key key asOf db = .ok [] := by
  cases hrows : validRows l l.key key asOf db with
  | error fault =>
    rw [fetchAt, fetchBy] at hnone
    simp only [l.keyField_find, Field.cell, hfits, if_true, hrows] at hnone
    cases hnone
  | ok rows =>
    rw [fetchAt_of_validRows hfits hrows] at hnone
    rcases rows with _ | ⟨row, _ | ⟨other, rest⟩⟩
    · rfl
    · rw [onlyVersion] at hnone
      cases hread : l.readVersion row with
      | error fault =>
        rw [hread] at hnone
        cases hnone
      | ok v =>
        rw [hread] at hnone
        cases hnone
    · cases hnone

/-! ## New versions -/

-- A version whose record conforms is added under the next number, or all numbers have been given.
theorem insertRow_of_table (htable : db.table? l.table = some t)
    (hdesign : t.toTableDesign = l.design) (w : Recorder) {v : Version}
    (hconforms : l.conforms v.record = true) : w.insertRow l v db =
      if Cell.isInteger t.nextId then
        (.ok t.nextId,
          { db.put l.table (t.appending ((v.stored l w.time).cells l)) with changed := 1 })
      else (.error (.database .full), db.refused .full) := by
  have hnames := Table.namesApart_of_design hdesign
  have hfault : l.fault? v.record = none := Option.isNone_iff_eq_none.1 hconforms
  have hconforms' := (Version.isWritten_stored hconforms w.time).conforms
  have hinsert := Database.insert_eq htable (Table.isPlain_of_design hdesign)
    (Table.names_cells_of_design hdesign _) (Table.newCells_of_design hdesign hconforms')
    (Table.missingValue?_cells hdesign hconforms')
  simp only [insertRow, hfault, Version.cells_eq_ok hnames hconforms, hinsert]
  cases Cell.isInteger t.nextId <;> rfl

-- A lookup that found nothing finds the new version, where this has the key and holds.
theorem fetchAt_insertRow (hplain : l.NamesPlain) (htable : db.table? l.table = some t)
    (hdesign : t.toTableDesign = l.design) {w : Recorder} {v : Version}
    (hconforms : l.conforms v.record = true) {pid : Int} {after : Database}
    (hinsert : w.insertRow l v db = (.ok pid, after))
    (hfits : key.fits l.keyField.type = true) (hkey : (v.stored l w.time).hasKey l key = true)
    (hholds : (v.stored l w.time).holdsAt asOf.toMillis = true)
    (hnone : fetchAt l key asOf db = .ok none) :
    fetchAt l key asOf after = .ok (some ((v.stored l w.time).restored.version pid)) := by
  have hwritten := Version.isWritten_stored hconforms w.time
  have hsense := hplain.key
  generalize hstored : v.stored l w.time = stored at *
  -- No row met the conditions before.
  have hbefore := validRows_eq_nil_of_fetchAt hfits hnone
  rw [validRows_of_table htable hdesign l.key_mem_columnNames hsense, hplain.queryFault?] at hbefore
  replace hbefore := List.map_eq_nil_iff.1 (Except.ok.inj hbefore)
  rw [insertRow_of_table htable hdesign w hconforms, hstored] at hinsert
  split at hinsert
  · cases hinsert
    -- The conditions ask only for what the columns tell, which the new row does not change.
    let now := t.appending (stored.cells l)
    have hnow : now.toTableDesign = l.design := hdesign
    have htable' : Database.table? { db.put l.table now with changed := 1 } l.table = some now :=
      Database.table?_put_self db l.table now
    have hnew : Condition.allHold now (validConditions l.key key asOf) t.nextId (stored.cells l) = true := by
      rw [allHold_validConditions hnow hwritten.conforms hfits, hkey, hholds]
      rfl
    have hfound : Database.rowsWhere now (validConditions l.key key asOf) = [(t.nextId, stored.cells l)] := by
      have hself : [(t.nextId, stored.cells l)].filter (fun e =>
          Condition.allHold now (validConditions l.key key asOf) e.1 e.2) =
            [(t.nextId, stored.cells l)] :=
        List.filter_eq_self.2 fun e he => by rwa [List.mem_singleton.1 he]
      rw [Database.rowsWhere, Table.entries_appending, List.filter_append, hself]
      exact congrArg (· ++ [(t.nextId, stored.cells l)]) hbefore
    have hrows := validRows_of_table htable' hnow l.key_mem_columnNames hsense key asOf
    rw [hplain.queryFault?, hfound, List.map_singleton, Table.shown_row hnow,
      StoredVersion.answerOf_shownCell hplain] at hrows
    rw [fetchAt_of_validRows hfits hrows, onlyVersion,
      StoredVersion.readVersion_answer (Table.namesApart_of_design hdesign) hwritten]
    rfl
  · cases hinsert

end Recorder

end Registry
