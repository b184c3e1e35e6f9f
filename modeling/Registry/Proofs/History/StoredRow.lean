import Registry.Proofs.Database.Columns
import Registry.Proofs.History.StoredValue

/-!
# StoredRow — versions in the rows of a register's table

A stored version has its times in milliseconds and only those values that have a column and are not
null.  Writing a version whose record conforms makes such a row, and reading the row gives the stored
version but for what its instants have beyond their milliseconds.  What was read and is written again
changes the row only in what was changed of it, if there is nothing of that kind.
-/

namespace Registry

open Registry.Text

/-! ## Names -/

namespace Layout

/-- What the table of the layout is created from. -/
def design (l : Layout) : TableDesign :=
  { name := l.table, idColumn := some pidColumn, columns := l.columns }

/-- No two columns of the table share a name.  The schema refuses any other layout. -/
def NamesApart (l : Layout) : Prop := (l.design.names.map foldAscii).Nodup

theorem names_design (l : Layout) : l.design.names = pidColumn :: l.columnNames := rfl

variable {l : Layout}

theorem NamesApart.distinct (h : l.NamesApart) : Distinct l.columns := by
  rw [NamesApart, names_design, List.map_cons, List.nodup_cons] at h
  rw [Distinct]
  have hcols := h.2
  rwa [columnNames, List.map_map] at hcols

theorem NamesApart.not_pid (h : l.NamesApart) {c : Column} (hc : c ∈ l.columns) :
    foldAscii c.name ≠ foldAscii pidColumn := by
  rw [NamesApart, names_design, List.map_cons, List.nodup_cons] at h
  intro heq
  apply h.1
  rw [← heq]
  exact List.mem_map_of_mem (List.mem_map_of_mem hc)

theorem column_mem {f : Field} (hf : f ∈ l.persisted) : f.column ∈ l.columns :=
  List.mem_append_left _ (List.mem_map_of_mem hf)

theorem timeColumn_mem {c : Column} (hc : c ∈ timeColumns) : c ∈ l.columns :=
  List.mem_append_right _ hc

theorem validFrom_mem (l : Layout) :
    { name := validFromColumn, affinity := .integer, required := true } ∈ l.columns :=
  timeColumn_mem (List.mem_cons_self ..)

theorem validTo_mem (l : Layout) :
    { name := validToColumn, affinity := .integer, required := false } ∈ l.columns :=
  timeColumn_mem (List.mem_cons_of_mem _ (List.mem_cons_self ..))

theorem modified_mem (l : Layout) :
    { name := modifiedColumn, affinity := .integer, required := true } ∈ l.columns :=
  timeColumn_mem (List.mem_cons_of_mem _ (List.mem_cons_of_mem _ (List.mem_cons_self ..)))

theorem NamesApart.not_time (h : l.NamesApart) {f : Field} (hf : f ∈ l.persisted) {c : Column}
    (hc : c ∈ timeColumns) : f.name ≠ c.name := by
  have hdistinct := h.distinct
  rw [Distinct, columns, List.map_append] at hdistinct
  intro heq
  apply (List.nodup_append.1 hdistinct).2.2 (foldAscii f.name) _ (foldAscii c.name)
  · exact List.mem_map_of_mem hc
  · rw [heq]
  · rw [List.map_map]
    exact List.mem_map_of_mem hf

/-- The names of the stored fields are read as those of columns. -/
def NamesPlain (l : Layout) : Prop := ∀ f ∈ l.persisted, senseOf f.name = .column

instance (l : Layout) : Decidable l.NamesPlain :=
  inferInstanceAs (Decidable (∀ f ∈ l.persisted, _))

theorem sense_pid : senseOf pidColumn = .column := by decide +kernel

theorem sense_validFrom : senseOf validFromColumn = .column := by decide +kernel

theorem sense_validTo : senseOf validToColumn = .column := by decide +kernel

theorem sense_time {c : Column} (hc : c ∈ timeColumns) : senseOf c.name = .column := by
  revert c
  decide +kernel

theorem NamesPlain.sense (h : l.NamesPlain) {name : String} (hname : name ∈ l.columnNames) :
    senseOf name = .column := by
  obtain ⟨c, hc, rfl⟩ := List.mem_map.1 hname
  rcases List.mem_append.1 hc with hc | hc
  · obtain ⟨f, hf, rfl⟩ := List.mem_map.1 hc
    exact h f hf
  · exact sense_time hc

/-- What keeps every lookup in the table from being understood: a name that opens a phrase. -/
def queryFault? (l : Layout) : Option DatabaseFault :=
  phraseFault? (listed "FROM" (pidColumn :: l.columnNames))

theorem NamesPlain.queryFault? (h : l.NamesPlain) : l.queryFault? = none := by
  refine phraseFault?_eq_none fun e he => ?_
  rcases List.mem_cons.1 (mem_listed he) with hpid | hname
  · rw [hpid]
    exact sense_pid
  · exact h.sense hname

theorem isPlain_of_mem {c : Column} (hc : c ∈ l.columns) : c.IsPlain := by
  rcases List.mem_append.1 hc with hc | hc
  · obtain ⟨f, -, rfl⟩ := List.mem_map.1 hc
    exact ⟨rfl, rfl⟩
  · simp only [timeColumns, List.mem_cons, List.not_mem_nil, or_false] at hc
    rcases hc with rfl | rfl | rfl <;> exact ⟨rfl, rfl⟩

/-! ## Records -/

/-- The value has a column and is not null. -/
def keeps (l : Layout) (name : String) (v : Value) : Bool :=
  l.persisted.any (fun f => f.name == name) && !v.isNull

def stored (l : Layout) (r : Record) : Record := r.filter l.keeps

/-- The values of the stored fields are whole numbers of milliseconds, where they are instants. -/
def IsWholeMilli (l : Layout) (r : Record) : Prop :=
  ∀ f ∈ l.persisted, (r.valueOrNull f.name).IsWholeMilli

instance (l : Layout) (r : Record) : Decidable (l.IsWholeMilli r) :=
  inferInstanceAs (Decidable (∀ f ∈ l.persisted, _))

theorem valueOrNull_stored (r : Record) {f : Field} (hf : f ∈ l.persisted) :
    (l.stored r).valueOrNull f.name = r.valueOrNull f.name := by
  rw [Record.valueOrNull, Record.valueOrNull, stored, SortedMap.get?_filter]
  cases hget : r.get? f.name with
  | none => rfl
  | some v =>
    cases hnull : v.isNull with
    | true =>
      rw [Value.isNull_iff.1 hnull, Option.filter_some_neg (by simp [keeps, Value.isNull])]
      rfl
    | false =>
      have hany : (l.persisted.any fun g => g.name == f.name) = true :=
        List.any_eq_true.2 ⟨f, hf, beq_self_eq_true _⟩
      rw [Option.filter_some_pos (by rw [keeps, hany, hnull]; rfl)]

theorem stored_stored (r : Record) : l.stored (l.stored r) = l.stored r := by
  apply SortedMap.ext_get?
  intro name
  simp only [stored, SortedMap.get?_filter, Option.filter_filter, Bool.and_self]

theorem samePersisted_stored (a b : Record) :
    l.samePersisted (l.stored a) b = l.samePersisted a b := by
  rw [Bool.eq_iff_iff, samePersisted_iff, samePersisted_iff]
  constructor
  · intro h f hf
    rw [← h f hf, valueOrNull_stored a hf]
  · intro h f hf
    rw [valueOrNull_stored a hf, h f hf]

-- Dropping what has no column and what is null harms no record.
theorem conforms_stored {r : Record} (h : l.conforms r = true) : l.conforms (l.stored r) = true := by
  rw [conforms_iff] at h ⊢
  constructor
  · intro e he
    exact h.1 e (List.mem_filter.1 he).1
  · intro f hf
    have hmissing := h.2 f hf
    rwa [missing?, ← valueOrNull_stored r hf] at hmissing

theorem isWholeMilli_stored {r : Record} (h : l.IsWholeMilli r) : l.IsWholeMilli (l.stored r) := by
  intro f hf
  rw [valueOrNull_stored r hf]
  exact h f hf

theorem fits_of_conforms {r : Record} (h : l.conforms r = true) {f : Field}
    (hf : f ∈ l.persisted) : (r.valueOrNull f.name).fits f.type = true := by
  rw [Record.valueOrNull]
  cases hget : r.get? f.name with
  | none => exact Value.fits_null _
  | some v =>
    have hentry := (conforms_iff.1 h).1 (f.name, v) (SortedMap.mem_entries_iff.2 hget)
    have hfield : l.field? f.name = some f :=
      field?_eq_some_iff.2 ⟨(List.mem_filter.1 hf).1, rfl⟩
    simp only [entryFault?, hfield, Field.fault?] at hentry
    split at hentry
    · cases hentry
    · split at hentry
      · cases hentry
      · rename_i hfits
        simpa using hfits

theorem not_null_of_conforms {r : Record} (h : l.conforms r = true) {f : Field}
    (hf : f ∈ l.persisted) (hrequired : f.optional = false) :
    (r.valueOrNull f.name).isNull = false := by
  have hmissing := (conforms_iff.1 h).2 f hf
  rw [missing?, hrequired] at hmissing
  cases hnull : (r.valueOrNull f.name).isNull with
  | false => rfl
  | true => simp [hnull] at hmissing

end Layout

/-! ### Records that come back -/

/-- The record as it comes back from a table that keeps all of it. -/
def Record.restored (r : Record) : Record := r.map fun _ v => v.restored

theorem Record.get?_restored (r : Record) (name : String) :
    r.restored.get? name = (r.get? name).map Value.restored :=
  SortedMap.get?_map _ _ _

theorem Record.valueOrNull_restored (r : Record) (name : String) :
    r.restored.valueOrNull name = (r.valueOrNull name).restored := by
  rw [valueOrNull, valueOrNull, get?_restored]
  cases r.get? name <;> rfl

namespace Layout

variable {l : Layout}

theorem fault?_restored (f : Field) (v : Value) : f.fault? v.restored = f.fault? v := by
  cases v with
  | datetime t =>
    have hfits : (Value.datetime t.truncated).fits f.type = (Value.datetime t).fits f.type :=
      Value.fits_restored (.datetime t) f.type
    simp only [Value.restored, Field.fault?, hfits, Value.kind]
  | _ => rfl

theorem conforms_restored {r : Record} (h : l.conforms r = true) : l.conforms r.restored = true := by
  rw [conforms_iff] at h ⊢
  constructor
  · intro e he
    obtain ⟨old, hold, rfl⟩ := List.mem_map.1 he
    have hentry := h.1 old hold
    unfold entryFault? at hentry ⊢
    cases hfield : l.field? old.1 with
    | none =>
      rw [hfield] at hentry
      cases hentry
    | some f =>
      rw [hfield] at hentry
      exact (fault?_restored f old.2).trans hentry
  · intro f hf
    have hmissing := h.2 f hf
    rwa [missing?, Record.valueOrNull_restored, Value.isNull_restored]

theorem stored_restored (r : Record) : l.stored r.restored = (l.stored r).restored := by
  apply SortedMap.ext_get?
  intro name
  rw [stored, SortedMap.get?_filter, Record.get?_restored, Record.get?_restored, stored,
    SortedMap.get?_filter]
  cases r.get? name with
  | none => rfl
  | some v =>
    have hkeeps : l.keeps name v.restored = l.keeps name v := by
      rw [keeps, keeps, Value.isNull_restored]
    rw [Option.map_some, Option.filter, Option.filter, hkeeps]
    cases l.keeps name v <;> rfl

-- What storage keeps as it is comes back as it was.
theorem restored_eq_self {r : Record} (hstored : l.stored r = r) (hwhole : l.IsWholeMilli r) :
    r.restored = r := by
  apply SortedMap.ext_get?
  intro name
  rw [Record.get?_restored]
  cases hget : r.get? name with
  | none => rfl
  | some v =>
    -- the value is kept, so it is that of a stored field
    rw [← hstored, stored, SortedMap.get?_filter, Option.filter_eq_some_iff] at hget
    obtain ⟨hvalue, hkeeps⟩ := hget
    rw [keeps, Bool.and_eq_true, List.any_eq_true] at hkeeps
    obtain ⟨⟨f, hf, hname⟩, -⟩ := hkeeps
    have hfield := hwhole f hf
    rw [eq_of_beq hname, Record.valueOrNull, hvalue, Option.getD_some] at hfield
    rw [Option.map_some, Value.restored_eq_self_iff.2 hfield]

-- The stored values come back as they were just when they are whole numbers of milliseconds.
theorem samePersisted_restored_iff {r : Record} :
    l.samePersisted r.restored r = true ↔ l.IsWholeMilli r := by
  rw [samePersisted_iff, IsWholeMilli]
  simp only [Record.valueOrNull_restored, Value.restored_eq_self_iff]

theorem samePersisted_stored_restored_iff {r : Record} :
    l.samePersisted (l.stored r).restored r = true ↔ l.IsWholeMilli r := by
  rw [← stored_restored, samePersisted_stored, samePersisted_restored_iff]

end Layout

/-! ## Versions -/

/-- A version as its row keeps it, with the times in milliseconds. -/
structure StoredVersion where
  record : Record
  validFrom : Int
  validTo : Option Int
  modified : Int

namespace StoredVersion

/-- The cell in the column of a name. -/
def cell (v : StoredVersion) (name : String) : Cell :=
  if name = validFromColumn then .integer v.validFrom
  else if name = validToColumn then Cell.ofOption Cell.integer v.validTo
  else if name = modifiedColumn then .integer v.modified
  else (v.record.valueOrNull name).cell

def cells (l : Layout) (v : StoredVersion) : Cells := Cells.ofColumns l.columns v.cell

theorem names_cells (l : Layout) (v : StoredVersion) : (v.cells l).map (·.1) = l.columnNames := by
  rw [cells, Cells.ofColumns, List.map_map]
  rfl

def version (v : StoredVersion) (pid : Int) : Version :=
  { pid := some pid
    record := v.record
    validFrom := .ofMillis v.validFrom
    validTo := v.validTo.map .ofMillis
    modified := some (.ofMillis v.modified) }

/-- What a recorder can have written: a record of the layout without what is not kept. -/
structure IsWritten (l : Layout) (v : StoredVersion) : Prop where
  conforms : l.conforms v.record = true
  stored : l.stored v.record = v.record

/-- What a recorder can have written and storage keeps as it is: whole numbers of milliseconds, and
times that are instants. -/
structure IsSound (l : Layout) (v : StoredVersion) : Prop where
  conforms : l.conforms v.record = true
  isWholeMilli : l.IsWholeMilli v.record
  stored : l.stored v.record = v.record
  validFrom : Instant.MillisInRange v.validFrom
  validTo : ∀ stop ∈ v.validTo, Instant.MillisInRange stop

/-- The version as it comes back from its row. -/
def restored (v : StoredVersion) : StoredVersion := { v with record := v.record.restored }

variable {l : Layout} {v : StoredVersion}

theorem IsSound.isWritten (h : v.IsSound l) : v.IsWritten l := ⟨h.conforms, h.stored⟩

theorem IsSound.restored_eq (h : v.IsSound l) : v.restored = v := by
  rw [restored, Layout.restored_eq_self h.stored h.isWholeMilli]

theorem IsWritten.restored (h : v.IsWritten l) : v.restored.IsWritten l where
  conforms := Layout.conforms_restored h.conforms
  stored := by
    show l.stored v.record.restored = v.record.restored
    rw [Layout.stored_restored, h.stored]

theorem cell_validFrom (v : StoredVersion) : v.cell validFromColumn = .integer v.validFrom := rfl

theorem cell_validTo (v : StoredVersion) :
    v.cell validToColumn = Cell.ofOption Cell.integer v.validTo := rfl

theorem cell_modified (v : StoredVersion) : v.cell modifiedColumn = .integer v.modified := rfl

theorem cell_field (hnames : l.NamesApart) (v : StoredVersion) {f : Field} (hf : f ∈ l.persisted) :
    v.cell f.name = (v.record.valueOrNull f.name).cell := by
  have hfrom : f.name ≠ validFromColumn := hnames.not_time hf (List.mem_cons_self ..)
  have hto : f.name ≠ validToColumn :=
    hnames.not_time hf (List.mem_cons_of_mem _ (List.mem_cons_self ..))
  have hmodified : f.name ≠ modifiedColumn :=
    hnames.not_time hf (List.mem_cons_of_mem _ (List.mem_cons_of_mem _ (List.mem_cons_self ..)))
  rw [cell, if_neg hfrom, if_neg hto, if_neg hmodified]

-- The columns keep the cells of a version whose record conforms.
theorem keeps_cell (hnames : l.NamesApart) (hconforms : l.conforms v.record = true) {c : Column}
    (hc : c ∈ l.columns) : c.Keeps (v.cell c.name) := by
  rcases List.mem_append.1 hc with hc | hc
  · obtain ⟨f, hf, rfl⟩ := List.mem_map.1 hc
    have hcell : v.cell f.column.name = (v.record.valueOrNull f.name).cell :=
      cell_field hnames v hf
    rw [hcell]
    refine ⟨Value.coerce_cell (Layout.fits_of_conforms hconforms hf), fun hrequired => ?_⟩
    rw [Value.cell_isNull]
    apply Layout.not_null_of_conforms hconforms hf
    simpa [Field.column] using hrequired
  · simp only [timeColumns, List.mem_cons, List.not_mem_nil, or_false] at hc
    rcases hc with rfl | rfl | rfl
    · exact ⟨rfl, fun _ => rfl⟩
    · refine ⟨?_, fun h => by cases h⟩
      rw [cell_validTo]
      cases v.validTo <;> rfl
    · exact ⟨rfl, fun _ => rfl⟩

end StoredVersion

/-! ## Writing -/

/-- What a row keeps of a version that is written at an instant. -/
def Version.stored (l : Layout) (v : Version) (modified : Instant) : StoredVersion :=
  { record := l.stored v.record
    validFrom := v.validFrom.toMillis
    validTo := v.validTo.map Instant.toMillis
    modified := modified.toMillis }

namespace Version

variable {l : Layout}

-- A version whose record conforms is written as the row of the stored version.
theorem cells_eq_ok (hnames : l.NamesApart) {v : Version} (hconforms : l.conforms v.record = true)
    (modified : Instant) : v.cells l modified = .ok ((v.stored l modified).cells l) := by
  have hfits : ∀ f ∈ l.persisted, (v.record.valueOrNull f.name).fits f.type = true :=
    fun f hf => Layout.fits_of_conforms hconforms hf
  -- What is not kept of the record has no column, so the row does not tell the two records apart.
  have hfields : (l.persisted.map fun f => (f.name, (v.record.valueOrNull f.name).cell)) =
      l.persisted.map fun f => (f.name, (v.stored l modified).cell f.name) := by
    apply List.map_congr_left
    intro f hf
    rw [StoredVersion.cell_field hnames _ hf]
    show _ = (f.name, ((l.stored v.record).valueOrNull f.name).cell)
    rw [Layout.valueOrNull_stored _ hf]
  have hto : Cell.ofOption Instant.cell v.validTo =
      Cell.ofOption Cell.integer (v.validTo.map Instant.toMillis) := by
    cases v.validTo <;> rfl
  rw [cells, fieldCells_eq_ok hfits, hfields, periodCells, hto, StoredVersion.cells, Cells.ofColumns,
    Layout.columns, List.map_append, List.map_map]
  rfl

theorem isSound_stored {v : Version} (hconforms : l.conforms v.record = true)
    (hwhole : l.IsWholeMilli v.record) (hfrom : v.validFrom.isLeap = false)
    (hto : ∀ stop ∈ v.validTo, stop.isLeap = false) (modified : Instant) :
    (v.stored l modified).IsSound l where
  conforms := Layout.conforms_stored hconforms
  isWholeMilli := Layout.isWholeMilli_stored hwhole
  stored := Layout.stored_stored _
  validFrom := Instant.inRange_toMillis hfrom
  validTo := by
    intro stop hstop
    obtain ⟨t, ht, rfl⟩ := Option.map_eq_some_iff.1 hstop
    exact Instant.inRange_toMillis (hto t ht)

theorem isWritten_stored {v : Version} (hconforms : l.conforms v.record = true) (modified : Instant) :
    (v.stored l modified).IsWritten l :=
  ⟨Layout.conforms_stored hconforms, Layout.stored_stored _⟩

end Version

/-! ## Reading -/

theorem Cells.lookup_ofColumns {columns : List Column} {cell : String → Cell} {c : Column}
    (hc : c ∈ columns) : (ofColumns columns cell).lookup c.name = some (cell c.name) := by
  induction columns with
  | nil => cases hc
  | cons d rest ih =>
    rw [ofColumns, List.map_cons, List.lookup_cons]
    by_cases hname : c.name = d.name
    · rw [hname, beq_self_eq_true]
    · rw [beq_eq_false_iff_ne.2 hname]
      rcases List.mem_cons.1 hc with rfl | hc
      · exact absurd rfl hname
      · exact ih hc

namespace StoredVersion

variable {l : Layout} {v : StoredVersion}

/-- A row as a statement answers with it: its number in front, and a cell for each column, as a function
tells it of the column's name. -/
def answerOf (l : Layout) (pid : Int) (cell : String → Cell) : Cells :=
  (pidColumn, .integer pid) :: Cells.ofColumns l.columns cell

/-- The row of a version as a statement answers with it. -/
def answer (l : Layout) (pid : Int) (v : StoredVersion) : Cells := answerOf l pid v.cell

/-- What a statement that is run now shows under a name in the row of a version. -/
def shownCell (now : Instant) (v : StoredVersion) (name : String) : Cell :=
  match clockText? now name with
  | some text => .text text
  | none => v.cell name

theorem shownCell_of_column {name : String} (h : senseOf name = .column) (now : Instant)
    (v : StoredVersion) : v.shownCell now name = v.cell name := by
  rw [shownCell, clockText?_of_column h]

theorem answerOf_shownCell (hplain : l.NamesPlain) (now : Instant) (pid : Int) (v : StoredVersion) :
    answerOf l pid (v.shownCell now) = v.answer l pid := by
  unfold answer answerOf
  refine congrArg _ (Cells.ofColumns_congr fun c hc => ?_)
  exact shownCell_of_column (hplain.sense (List.mem_map_of_mem hc)) now v

theorem readColumn_answerOf (hnames : l.NamesApart) (pid : Int) (cell : String → Cell) {c : Column}
    (hc : c ∈ l.columns) : readColumn (answerOf l pid cell) c.name = .ok (cell c.name) := by
  have hpid : c.name ≠ pidColumn := fun h => hnames.not_pid hc (by rw [h])
  rw [readColumn, answerOf, List.lookup_cons, beq_eq_false_iff_ne.2 hpid]
  simp only [Cells.lookup_ofColumns hc]

-- Whatever stands in the columns of the fields, a row is read with its number and its times.
theorem readVersion_answerOf (hnames : l.NamesApart) (pid : Int) {cell : String → Cell}
    (htimes : ∀ c ∈ timeColumns, cell c.name = v.cell c.name) :
    l.readVersion (answerOf l pid cell) =
      (readFields (answerOf l pid cell) l.persisted).map fun record =>
        { v.version pid with record } := by
  have hread : ∀ c ∈ timeColumns, readColumn (answerOf l pid cell) c.name = .ok (v.cell c.name) := by
    intro c hc
    rw [readColumn_answerOf hnames pid cell (Layout.timeColumn_mem hc), htimes c hc]
  have hpid : readInteger (answerOf l pid cell) pidColumn = .ok pid := rfl
  have hfrom : readInteger (answerOf l pid cell) validFromColumn = .ok v.validFrom := by
    have hcell := hread _ (List.mem_cons_self ..)
    rw [cell_validFrom] at hcell
    rw [readInteger, hcell]
  have hto : readOptionalTime (answerOf l pid cell) validToColumn =
      .ok (v.validTo.map Instant.ofMillis) := by
    have hcell := hread _ (List.mem_cons_of_mem _ (List.mem_cons_self ..))
    rw [cell_validTo] at hcell
    rw [readOptionalTime, hcell]
    cases v.validTo <;> rfl
  have hmodified : readInteger (answerOf l pid cell) modifiedColumn = .ok v.modified := by
    have hcell := hread _ (List.mem_cons_of_mem _ (List.mem_cons_of_mem _ (List.mem_cons_self ..)))
    rw [cell_modified] at hcell
    rw [readInteger, hcell]
  rw [Layout.readVersion, hpid, hfrom, hto, hmodified]
  cases readFields (answerOf l pid cell) l.persisted <;> rfl

theorem get?_readFields {row : Cells} {fields : List Field} {r : Record} {name : String}
    (hname : name ∉ fields.map Field.name) (h : readFields row fields = .ok r) : r.get? name = none := by
  induction fields generalizing r with
  | nil =>
    cases h
    rfl
  | cons f rest ih =>
    rw [List.map_cons, List.mem_cons, not_or] at hname
    unfold readFields at h
    split at h
    · cases h
    split at h
    · cases h
    · rename_i read hread
      cases h
      split
      · exact ih hname.2 hread
      · rw [SortedMap.get?_insert, if_neg (Ne.symm hname.1)]
        exact ih hname.2 hread

-- What is read of a stored field is what its column shows.
theorem readCell_of_readFields {row : Cells} {fields : List Field} {r : Record}
    (hnodup : (fields.map Field.name).Nodup) (h : readFields row fields = .ok r) {f : Field}
    (hf : f ∈ fields) : (readColumn row f.name).bind f.readCell = .ok (r.valueOrNull f.name) := by
  induction fields generalizing r with
  | nil => cases hf
  | cons g rest ih =>
    rw [List.map_cons, List.nodup_cons] at hnodup
    unfold readFields at h
    split at h
    · cases h
    rename_i v hv
    split at h
    · cases h
    rename_i read hread
    cases h
    rcases List.mem_cons.1 hf with rfl | hf
    · rw [hv, Record.valueOrNull]
      cases hnull : v.isNull with
      | true =>
        rw [if_pos rfl, get?_readFields hnodup.1 hread, Value.isNull_iff.1 hnull]
        rfl
      | false =>
        rw [if_neg Bool.false_ne_true, SortedMap.get?_insert, if_pos rfl]
        rfl
    · have hne : g.name ≠ f.name := fun heq => hnodup.1 (heq ▸ List.mem_map_of_mem hf)
      rw [ih hnodup.2 hread hf, Record.valueOrNull, Record.valueOrNull]
      split
      · rfl
      · rw [SortedMap.get?_insert, if_neg hne]

/-- A row in which the clock may stand for some of the fields is read as its version besides them. -/
theorem readVersion_shownCell (hnames : l.NamesApart) (h : l.conforms v.record = true) {pid : Int}
    {now : Instant} {read : Version} (hread : l.readVersion (answerOf l pid (v.shownCell now)) = .ok read) :
    ∃ record, read = { v.version pid with record } ∧
      ∀ f ∈ l.persisted, senseOf f.name = .column →
        record.valueOrNull f.name = (v.record.valueOrNull f.name).restored := by
  rw [readVersion_answerOf hnames pid fun c hc => shownCell_of_column (Layout.sense_time hc) now v] at hread
  cases hfields : readFields (answerOf l pid (v.shownCell now)) l.persisted with
  | error fault =>
    rw [hfields] at hread
    cases hread
  | ok record =>
    rw [hfields] at hread
    cases hread
    refine ⟨record, rfl, fun f hf hsense => ?_⟩
    have hnodup : (l.persisted.map Field.name).Nodup :=
      l.names_nodup.sublist (List.filter_sublist.map Field.name)
    have hvalue := readCell_of_readFields hnodup hfields hf
    have hcolumn := readColumn_answerOf hnames pid (v.shownCell now) (Layout.column_mem hf)
    rw [show f.column.name = f.name from rfl, shownCell_of_column hsense, cell_field hnames v hf] at hcolumn
    rw [hcolumn] at hvalue
    exact Except.ok.inj (hvalue.symm.trans (Field.readCell_cell (Layout.fits_of_conforms h hf)))

-- Reading the stored fields gives the values that they have, without nulls.
theorem exists_readFields {row : Cells} {r : Record} {fields : List Field}
    (h : ∀ f ∈ fields, (readColumn row f.name).bind f.readCell = .ok (r.valueOrNull f.name)) :
    ∃ read, readFields row fields = .ok read ∧ ∀ name, read.get? name =
      (r.get? name).filter fun v => fields.any (fun f => f.name == name) && !v.isNull := by
  -- From the last field to the first, as the values are put into the record.
  induction fields with
  | nil =>
    refine ⟨.empty, rfl, fun name => ?_⟩
    cases r.get? name <;> rfl
  | cons f rest ih =>
    obtain ⟨read, hread, hget⟩ := ih fun g hg => h g (List.mem_cons_of_mem _ hg)
    have hf := h f (List.mem_cons_self ..)
    refine ⟨if (r.valueOrNull f.name).isNull then read
      else read.insert f.name (r.valueOrNull f.name), ?_, fun name => ?_⟩
    · simp only [readFields, hf, hread]
    · by_cases hname : f.name = name
      · subst hname
        cases hvalue : r.get? f.name with
        | none => simp [Record.valueOrNull, hvalue, Value.isNull, hget]
        | some v =>
          cases hnull : v.isNull <;>
            simp [Record.valueOrNull, hvalue, hnull, hget, SortedMap.get?_insert, Option.filter]
      · have hother : ∀ v : Value, (if (r.valueOrNull f.name).isNull then read
            else read.insert f.name v).get? name = read.get? name := by
          intro v
          split
          · rfl
          · rw [SortedMap.get?_insert, if_neg hname]
        rw [hother, hget, List.any_cons, beq_eq_false_iff_ne.2 hname, Bool.false_or]

theorem readFields_answer (hnames : l.NamesApart) (h : v.IsWritten l) (pid : Int) :
    readFields (v.answer l pid) l.persisted = .ok v.record.restored := by
  have hvalues : ∀ f ∈ l.persisted, (readColumn (v.answer l pid) f.name).bind f.readCell =
      .ok (v.record.restored.valueOrNull f.name) := by
    intro f hf
    have hread := readColumn_answerOf hnames pid v.cell (Layout.column_mem hf)
    rw [show f.column.name = f.name from rfl, cell_field hnames v hf] at hread
    rw [answer, hread, Record.valueOrNull_restored]
    exact Field.readCell_cell (Layout.fits_of_conforms h.conforms hf)
  obtain ⟨read, hread, hget⟩ := exists_readFields hvalues
  have hrecord : read = v.record.restored := by
    have hstored : l.stored v.record.restored = v.record.restored := h.restored.stored
    rw [← hstored]
    apply SortedMap.ext_get?
    intro name
    rw [hget, Layout.stored, SortedMap.get?_filter]
    rfl
  rw [hread, hrecord]

theorem readVersion_answer (hnames : l.NamesApart) (h : v.IsWritten l) (pid : Int) :
    l.readVersion (v.answer l pid) = .ok (v.restored.version pid) := by
  rw [answer, readVersion_answerOf hnames pid fun _ _ => rfl, ← answer, readFields_answer hnames h]
  rfl

end StoredVersion

end Registry
