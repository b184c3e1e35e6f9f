import Registry.History.Recorder
import Registry.Proofs.Database.Appending
import Registry.Proofs.History.StoredRow

/-!
# RegisterTable — statements on the table of a register

Rows of the table are versions under their numbers, so each statement is one on versions: a condition
is a test of a version, an answer lists versions, an assignment puts a version in the place of
another, and a new row is a new version.
-/

namespace Registry

open Registry.Text

namespace Layout

variable {l : Layout}

theorem keyField_mem (l : Layout) : l.keyField ∈ l.persisted ∧ l.keyField.name = l.key := by
  obtain ⟨f, hfield, hf, hname, hpersisted⟩ := l.field?_key
  have hkey : l.keyField = f := by
    have := l.field?_key_eq
    rw [hfield] at this
    exact (Option.some.inj this).symm
  rw [hkey]
  exact ⟨List.mem_filter.2 ⟨hf, hpersisted⟩, hname⟩

theorem key_fits {r : Record} (h : l.conforms r = true) :
    (r.valueOrNull l.key).fits l.keyField.type = true := by
  obtain ⟨hmem, hname⟩ := l.keyField_mem
  rw [← hname]
  exact fits_of_conforms h hmem

theorem key_isWholeMilli {r : Record} (h : l.IsWholeMilli r) :
    (r.valueOrNull l.key).IsWholeMilli := by
  obtain ⟨hmem, hname⟩ := l.keyField_mem
  rw [← hname]
  exact h _ hmem

end Layout

/-! ## Tests of versions -/

namespace StoredVersion

def key (l : Layout) (v : StoredVersion) : Value := v.record.valueOrNull l.key

/-- The version is found by a value of a column: its row has the same cell. -/
def hasValue (column : String) (value : Value) (v : StoredVersion) : Bool :=
  decide ((v.record.valueOrNull column).cell = value.cell)

/-- The version is found under a key: its row has the same cell. -/
def hasKey (l : Layout) (key : Value) (v : StoredVersion) : Bool := decide ((v.key l).cell = key.cell)

/-- The version holds on to a time or beyond, or without end. -/
def reaches (v : StoredVersion) (ms : Int) : Bool := v.validTo.all fun stop => ms ≤ stop

def holdsAt (v : StoredVersion) (ms : Int) : Bool :=
  v.validFrom ≤ ms && v.validTo.all fun stop => ms < stop

def closedAt (v : StoredVersion) (stop modified : Int) : StoredVersion :=
  { v with validTo := some stop, modified }

variable {l : Layout} {v : StoredVersion} {key : Value}

theorem holdsAt_iff {ms : Int} :
    v.holdsAt ms = true ↔ v.validFrom ≤ ms ∧ ∀ stop ∈ v.validTo, ms < stop := by
  rw [holdsAt, Bool.and_eq_true, decide_eq_true_eq]
  cases v.validTo <;> simp

theorem reaches_iff {stop : Int} : v.reaches stop = true ↔ ∀ s ∈ v.validTo, stop ≤ s := by
  rw [reaches]
  cases v.validTo <;> simp

theorem hasKey_iff : v.hasKey l key = true ↔ (v.key l).cell = key.cell := decide_eq_true_iff

theorem IsSound.hasKey_eq (h : v.IsSound l) (hfits : key.fits l.keyField.type = true)
    (hwhole : key.IsWholeMilli) : v.hasKey l key = decide (v.key l = key) := by
  rw [hasKey, decide_eq_decide]
  exact Value.cell_inj (Layout.key_fits h.conforms) hfits (Layout.key_isWholeMilli h.isWholeMilli)
    hwhole

-- A version is found under its own key.
theorem hasKey_key (l : Layout) (v : StoredVersion) : v.hasKey l (v.key l) = true :=
  hasKey_iff.2 rfl

theorem key_restored (l : Layout) (v : StoredVersion) : v.restored.key l = (v.key l).restored :=
  Record.valueOrNull_restored _ _

end StoredVersion

namespace Version

variable {l : Layout} {v : Version}

theorem holdsAt_stored {ms : Int} (hfrom : v.validFrom.toMillis ≤ ms)
    (hto : ∀ stop ∈ v.validTo, ms < stop.toMillis) (modified : Instant) :
    (v.stored l modified).holdsAt ms = true := by
  rw [StoredVersion.holdsAt_iff]
  refine ⟨hfrom, fun stop hstop => ?_⟩
  obtain ⟨t, ht, rfl⟩ := Option.map_eq_some_iff.1 hstop
  exact hto t ht

theorem key_stored (v : Version) (modified : Instant) :
    (v.stored l modified).key l = v.record.valueOrNull l.key := by
  obtain ⟨hmem, hname⟩ := l.keyField_mem
  rw [StoredVersion.key, ← hname]
  exact Layout.valueOrNull_stored v.record hmem

-- The row of a version has the cell of the key of its record.
theorem hasKey_stored (v : Version) (modified : Instant) :
    (v.stored l modified).hasKey l (v.record.valueOrNull l.key) = true := by
  rw [← v.key_stored modified]
  exact StoredVersion.hasKey_key l _

end Version

/-- The versions of a register under their numbers. -/
abbrev Versions := SortedMap Int StoredVersion

/-! ## The table -/

namespace Table

variable {l : Layout} {t : Table} {v : StoredVersion}

theorem namesApart_of_design (ht : t.toTableDesign = l.design) : l.NamesApart := by
  have hnodup := t.names_nodup
  rwa [ht] at hnodup

theorem columns_of_design (ht : t.toTableDesign = l.design) : t.columns = l.columns :=
  congrArg TableDesign.columns ht

theorem idColumn_of_design (ht : t.toTableDesign = l.design) : t.idColumn = some pidColumn :=
  congrArg TableDesign.idColumn ht

theorem mem_columns_of_design (ht : t.toTableDesign = l.design) {c : Column} (hc : c ∈ l.columns) :
    c ∈ t.columns := by
  rwa [columns_of_design ht]

theorem isPlain_of_design (ht : t.toTableDesign = l.design) : ∀ c ∈ t.columns, c.IsPlain := by
  rw [columns_of_design ht]
  exact fun c hc => Layout.isPlain_of_mem hc

theorem read_column (ht : t.toTableDesign = l.design) (pid : Int) (v : StoredVersion) {c : Column}
    (hc : c ∈ l.columns) : t.read pid (v.cells l) c.name = v.cell c.name := by
  rw [read_of_mem (mem_columns_of_design ht hc)]
  exact Cells.read_ofColumns (namesApart_of_design ht).distinct hc

theorem read_field (ht : t.toTableDesign = l.design) (pid : Int) (v : StoredVersion) {f : Field}
    (hf : f ∈ l.persisted) :
    t.read pid (v.cells l) f.name = (v.record.valueOrNull f.name).cell := by
  have hcolumn := read_column ht pid v (Layout.column_mem hf)
  rw [show f.column.name = f.name from rfl] at hcolumn
  rw [hcolumn, StoredVersion.cell_field (namesApart_of_design ht) v hf]

theorem read_key (ht : t.toTableDesign = l.design) (pid : Int) (v : StoredVersion) :
    t.read pid (v.cells l) l.key = (v.key l).cell := by
  obtain ⟨hmem, hname⟩ := l.keyField_mem
  have hread := read_field ht pid v hmem
  rwa [hname] at hread

theorem coerce_field (ht : t.toTableDesign = l.design) {f : Field} (hf : f ∈ l.persisted)
    {value : Value} (hfits : value.fits f.type = true) : t.coerce f.name value.cell = value.cell := by
  have hcolumn := coerce_of_mem (mem_columns_of_design ht (Layout.column_mem hf)) value.cell
  rw [show f.column.name = f.name from rfl,
    show f.column.affinity = f.type.affinity from rfl] at hcolumn
  rw [hcolumn, Value.coerce_cell hfits]

theorem coerce_modified (ht : t.toTableDesign = l.design) (modified : Instant) :
    t.coerce modifiedColumn modified.cell = .integer modified.toMillis := by
  have hcolumn := coerce_of_mem (mem_columns_of_design ht l.modified_mem) modified.cell
  exact hcolumn

theorem unknown?_of_design (ht : t.toTableDesign = l.design) {names : List String}
    (h : ∀ name ∈ names, name = pidColumn ∨ name ∈ l.columnNames) : t.unknown? names = none := by
  apply unknown?_eq_none
  intro name hname
  rw [idColumn_of_design ht, columns_of_design ht]
  exact (h name hname).imp (fun hpid => by rw [hpid]) id

/-! ### Conditions -/

theorem holds_field (ht : t.toTableDesign = l.design) (hconforms : l.conforms v.record = true)
    {f : Field} (hf : f ∈ l.persisted) {key : Value} (hfits : key.fits f.type = true) (pid : Int) :
    (Recorder.keyCondition f.name key).holds t pid (v.cells l) = v.hasValue f.name key := by
  rw [Recorder.keyCondition, StoredVersion.hasValue, Bool.eq_iff_iff, decide_eq_true_eq]
  have hread := read_field ht pid v hf
  by_cases hnull : key.isNull = true
  · rw [if_pos hnull, Condition.holds, Condition.column, hread, Condition.holdsOf, Value.isNull_iff.1 hnull,
      Value.cell_isNull, Value.isNull_iff]
    constructor
    · intro h
      rw [h]
    · intro h
      rw [← Value.isNull_iff, ← Value.cell_isNull, h]
      rfl
  · rw [if_neg hnull, Condition.holds, Condition.column, hread, Condition.holdsOf,
      coerce_field ht hf hfits]
    exact Value.equals_cell_iff_cell_eq (Layout.fits_of_conforms hconforms hf) hfits (by simpa using hnull)

theorem holds_key (ht : t.toTableDesign = l.design) (hconforms : l.conforms v.record = true)
    {key : Value} (hfits : key.fits l.keyField.type = true) (pid : Int) :
    (Recorder.keyCondition l.key key).holds t pid (v.cells l) = v.hasKey l key := by
  obtain ⟨hmem, hname⟩ := l.keyField_mem
  have hholds := holds_field ht hconforms hmem hfits pid
  rwa [hname] at hholds

theorem read_validFrom (ht : t.toTableDesign = l.design) (pid : Int) (v : StoredVersion) :
    t.read pid (v.cells l) validFromColumn = .integer v.validFrom := by
  have hread := read_column ht pid v l.validFrom_mem
  simp only [StoredVersion.cell_validFrom] at hread
  exact hread

theorem holds_validFrom (ht : t.toTableDesign = l.design) (pid : Int) (asOf : Instant) :
    (Condition.atMost validFromColumn asOf.cell).holds t pid (v.cells l) =
      decide (v.validFrom ≤ asOf.toMillis) := by
  have hcoerce : t.coerce validFromColumn asOf.cell = .integer asOf.toMillis := by
    have hcolumn := coerce_of_mem (mem_columns_of_design ht l.validFrom_mem) asOf.cell
    exact hcolumn
  rw [Condition.holds, Condition.column, read_validFrom ht, Condition.holdsOf, hcoerce,
    Cell.atMost_integer]

theorem read_validTo (ht : t.toTableDesign = l.design) (pid : Int) (v : StoredVersion) :
    t.read pid (v.cells l) validToColumn = Cell.ofOption Cell.integer v.validTo := by
  have hread := read_column ht pid v l.validTo_mem
  simp only [StoredVersion.cell_validTo] at hread
  exact hread

theorem read_modified (ht : t.toTableDesign = l.design) (pid : Int) (v : StoredVersion) :
    t.read pid (v.cells l) modifiedColumn = .integer v.modified := by
  have hread := read_column ht pid v l.modified_mem
  simp only [StoredVersion.cell_modified] at hread
  exact hread

theorem coerce_validTo (ht : t.toTableDesign = l.design) (stop : Instant) :
    t.coerce validToColumn stop.cell = .integer stop.toMillis := by
  have hcolumn := coerce_of_mem (mem_columns_of_design ht l.validTo_mem) stop.cell
  exact hcolumn

theorem holds_above (ht : t.toTableDesign = l.design) (pid : Int) (asOf : Instant) :
    (Condition.nullOrAbove validToColumn asOf.cell).holds t pid (v.cells l) =
      v.validTo.all fun stop => asOf.toMillis < stop := by
  rw [Condition.holds, Condition.column, read_validTo ht, Condition.holdsOf, coerce_validTo ht]
  cases v.validTo with
  | none => rfl
  | some stop => exact Cell.below_integer _ _

theorem holds_atLeast (ht : t.toTableDesign = l.design) (pid : Int) (stop : Instant) :
    (Condition.nullOrAtLeast validToColumn stop.cell).holds t pid (v.cells l) =
      v.reaches stop.toMillis := by
  rw [Condition.holds, Condition.column, read_validTo ht, Condition.holdsOf, coerce_validTo ht,
    StoredVersion.reaches]
  cases v.validTo with
  | none => rfl
  | some stop => exact Cell.atMost_integer _ _

/-! ### Assignments -/

theorem assign_cells (ht : t.toTableDesign = l.design) {assignments : Cells} {v' : StoredVersion}
    (h : ∀ c ∈ l.columns,
      (match Cells.assigned? assignments c.name with
        | some new => t.coerce c.name new
        | none => v.cell c.name) = v'.cell c.name) :
    t.assign assignments (v.cells l) = v'.cells l := by
  rw [StoredVersion.cells, StoredVersion.cells, ← columns_of_design ht, assign_ofColumns]
  apply Cells.ofColumns_congr
  rw [columns_of_design ht]
  exact h

-- Assigning the end and the time of the change closes a version.
theorem assign_closed (ht : t.toTableDesign = l.design) (v : StoredVersion) (stop modified : Instant) :
    t.assign [(validToColumn, stop.cell), (modifiedColumn, modified.cell)] (v.cells l) =
      (v.closedAt stop.toMillis modified.toMillis).cells l := by
  have hdistinct := (namesApart_of_design ht).distinct
  apply assign_cells ht
  intro c hc
  have hto := hdistinct.sameName_eq l.validTo_mem hc
  have hmodified := hdistinct.sameName_eq l.modified_mem hc
  simp only at hto hmodified
  rw [Cells.assigned?]
  simp only [List.reverse_cons, List.reverse_nil, List.nil_append, List.cons_append, List.find?_cons,
    List.find?_nil, hto, hmodified]
  by_cases hm : modifiedColumn = c.name
  · rw [decide_eq_true hm, ← hm]
    exact coerce_modified ht modified
  · rw [decide_eq_false hm]
    by_cases ht' : validToColumn = c.name
    · rw [decide_eq_true ht', ← ht']
      exact coerce_validTo ht stop
    · rw [decide_eq_false ht']
      simp only [Option.map_none, StoredVersion.cell, StoredVersion.closedAt, if_neg (Ne.symm hm),
        if_neg (Ne.symm ht')]

-- Assigning the whole row of a version puts it in the place of another.
theorem assign_row (ht : t.toTableDesign = l.design) (v : StoredVersion) {v' : StoredVersion}
    (hconforms : l.conforms v'.record = true) : t.assign (v'.cells l) (v.cells l) = v'.cells l := by
  have hnames := namesApart_of_design ht
  apply assign_cells ht
  intro c hc
  rw [StoredVersion.cells, Cells.assigned?_ofColumns hnames.distinct _ hc]
  exact (coerce_of_mem (mem_columns_of_design ht hc) _).trans (StoredVersion.keeps_cell hnames hconforms hc).1

/-! ### Rows -/

def rowsOf (l : Layout) (versions : Versions) : SortedMap Int Cells :=
  versions.map fun _ v => v.cells l

/-- The table with the rows of some versions, and the last number that was given. -/
def keeping (t : Table) (l : Layout) (versions : Versions) (lastId : Int) : Table :=
  { t with rows := rowsOf l versions, lastId }

variable {versions : Versions} {conditions : List Condition} {test : Int → StoredVersion → Bool}

theorem rowsWhere_rowsOf (hrows : t.rows = rowsOf l versions) (htest : ∀ e ∈ versions.entries,
    Condition.allHold t conditions e.1 (e.2.cells l) = test e.1 e.2) :
    Database.rowsWhere t conditions =
      (versions.entries.filter fun e => test e.1 e.2).map fun e => (e.1, e.2.cells l) := by
  rw [Database.rowsWhere, hrows, rowsOf, SortedMap.map, List.filter_map, Function.comp_def]
  congr 1
  exact List.filter_congr htest

-- A row that keeps a version is shown as the version, besides what the clock stands for.
theorem shown_row (ht : t.toTableDesign = l.design) (now : Instant) (pid : Int) (v : StoredVersion) :
    (pidColumn :: l.columnNames).map (t.shown now pid (v.cells l)) =
      StoredVersion.answerOf l pid (v.shownCell now) := by
  have hid := idColumn_of_design ht
  rw [List.map_cons, shown_of_column Layout.sense_pid, resultName_of_id hid, read_of_id hid,
    StoredVersion.answerOf, Cells.ofColumns, Layout.columnNames, List.map_map]
  congr 1
  apply List.map_congr_left
  intro c hc
  show t.shown now pid (v.cells l) c.name = (c.name, v.shownCell now c.name)
  unfold shown StoredVersion.shownCell
  cases clockText? now c.name with
  | some text => rfl
  | none =>
    dsimp only
    rw [resultName_of_mem (mem_columns_of_design ht hc), read_column ht pid v hc]

theorem missingValue?_cells (ht : t.toTableDesign = l.design)
    (hconforms : l.conforms v.record = true) : t.missingValue? (v.cells l) = none := by
  have hcolumns := columns_of_design ht
  rw [StoredVersion.cells, ← hcolumns]
  apply missingValue?_ofColumns
  · rw [hcolumns]
    exact (namesApart_of_design ht).distinct
  · rw [hcolumns]
    exact fun c hc => StoredVersion.keeps_cell (namesApart_of_design ht) hconforms hc

-- Assignments put a version in the place of each version that passes the test.
theorem update_rowsOf (ht : t.toTableDesign = l.design) (hrows : t.rows = rowsOf l versions)
    (htest : ∀ e ∈ versions.entries,
      Condition.allHold t conditions e.1 (e.2.cells l) = test e.1 e.2)
    {assignments : Cells} (hnames : ∀ name ∈ assignments.map (·.1), name ∈ l.columnNames)
    {change : StoredVersion → StoredVersion}
    (hchange : ∀ e ∈ versions.entries, test e.1 e.2 = true →
      t.assign assignments (e.2.cells l) = (change e.2).cells l ∧
        l.conforms (change e.2).record = true) :
    t.update (assignments.map (·.1)) (fun _ _ => assignments.map (·.2))
        (Condition.allHold t conditions) =
      .ok ((versions.entries.filter fun e => test e.1 e.2).length,
        t.keeping l (versions.map fun pid v => if test pid v then change v else v) t.lastId) := by
  have hmapped : t.rows.map (fun id cells =>
      if Condition.allHold t conditions id cells then t.assign assignments cells else cells) =
      rowsOf l (versions.map fun pid v => if test pid v then change v else v) := by
    apply SortedMap.ext_entries
    rw [hrows, rowsOf, rowsOf, SortedMap.map, SortedMap.map, SortedMap.map, SortedMap.map]
    simp only [List.map_map]
    apply List.map_congr_left
    intro e he
    rw [Function.comp_def, Function.comp_def]
    simp only [htest e he]
    by_cases htrue : test e.1 e.2 = true
    · rw [if_pos htrue, if_pos htrue, (hchange e he htrue).1]
    · rw [if_neg htrue, if_neg htrue]
  have hmissing : ∀ row ∈ t.rows.entries, Condition.allHold t conditions row.1 row.2 = true →
      t.missingValue? (t.assign assignments row.2) = none := by
    rw [hrows]
    intro row hrow htrue
    obtain ⟨e, he, rfl⟩ := List.mem_map.1 hrow
    obtain ⟨hassign, hconforms⟩ := hchange e he ((htest e he).symm.trans htrue)
    rw [hassign, missingValue?_cells ht hconforms]
  rw [Layout.columnNames, ← columns_of_design ht] at hnames
  have htouched := congrArg List.length (rowsWhere_rowsOf hrows htest)
  rw [List.length_map] at htouched
  rw [update_eq (isPlain_of_design ht) hnames _ hmissing, hmapped, ← htouched]
  rfl

theorem names_cells_of_design (ht : t.toTableDesign = l.design) (v : StoredVersion) :
    ∀ name ∈ (v.cells l).map (·.1), name ∈ t.columns.map Column.name := by
  rw [StoredVersion.names_cells, columns_of_design ht]
  exact fun _ hname => hname

theorem keepsCount_of_design (ht : t.toTableDesign = l.design) : t.keepsCount = true :=
  congrArg TableDesign.keepsCount ht

theorem newCells_of_design (ht : t.toTableDesign = l.design) (hconforms : l.conforms v.record = true) :
    (t.columns.map fun c => (c.name, newCell (v.cells l) c)) = v.cells l := by
  have hnames := namesApart_of_design ht
  rw [columns_of_design ht, StoredVersion.cells,
    newCells_ofColumns hnames.distinct fun c hc => StoredVersion.keeps_cell hnames hconforms hc]

theorem nextId_rowsOf (ht : t.toTableDesign = l.design) (hrows : t.rows = rowsOf l versions)
    {given : Nat} (hlast : t.lastId = given) (hkeys : ∀ e ∈ versions.entries, e.1 ≤ given) :
    t.nextId = (given + 1 : Nat) := by
  refine nextId_of_lastId (keepsCount_of_design ht) hlast fun e he => ?_
  rw [hrows, rowsOf, SortedMap.map] at he
  obtain ⟨version, hversion, rfl⟩ := List.mem_map.1 he
  exact hkeys version hversion

theorem rowsOf_insert (l : Layout) (versions : Versions) (pid : Int) (v : StoredVersion) :
    (rowsOf l versions).insert pid (v.cells l) = rowsOf l (versions.insert pid v) := by
  apply SortedMap.ext_get?
  intro id
  rw [rowsOf, rowsOf, SortedMap.get?_insert, SortedMap.get?_map, SortedMap.get?_map,
    SortedMap.get?_insert]
  by_cases hid : pid = id
  · rw [if_pos hid, if_pos hid, Option.map_some]
  · rw [if_neg hid, if_neg hid]

theorem appending_rowsOf (ht : t.toTableDesign = l.design) (hrows : t.rows = rowsOf l versions)
    {given : Nat} (hlast : t.lastId = given) (hkeys : ∀ e ∈ versions.entries, e.1 ≤ given)
    (v : StoredVersion) : t.appending (v.cells l) =
      t.keeping l (versions.insert (given + 1 : Nat) v) (given + 1 : Nat) := by
  have hmax : max ((given + 1 : Nat) : Int) given = (given + 1 : Nat) := by omega
  rw [appending, nextId_rowsOf ht hrows hlast hkeys, hrows, rowsOf_insert, hlast, hmax]
  rfl

end Table

end Registry
