import Registry.Database.Basic

/-!
# Columns — rows as functions of the names of their columns

The columns of a table have names that stay apart when the case of letters is dropped.  So a row that
is written by the names of the columns is read by them, and statements can be followed on functions
from names to cells.
-/

namespace Registry

open Registry.Text

/-! ## Rows by the names of columns -/

/-- The row that has a cell for each column, as a function tells it of the column's name. -/
def Cells.ofColumns (columns : List Column) (cell : String → Cell) : Cells :=
  columns.map fun c => (c.name, cell c.name)

/-- No two columns share a name. -/
def Distinct (columns : List Column) : Prop := (columns.map fun c => foldAscii c.name).Nodup

theorem sameName_iff {a b : String} : sameName a b = true ↔ foldAscii a = foldAscii b := by
  simp [sameName]

theorem Distinct.find? {columns : List Column} (h : Distinct columns) {c : Column}
    (hc : c ∈ columns) : (columns.find? fun d => sameName d.name c.name) = some c := by
  induction columns with
  | nil => cases hc
  | cons d rest ih =>
    rw [Distinct, List.map_cons, List.nodup_cons] at h
    rcases List.mem_cons.1 hc with rfl | hc
    · simp [sameName_refl]
    · have hne : sameName d.name c.name = false := by
        rw [Bool.eq_false_iff]
        intro hsame
        apply h.1
        rw [sameName_iff.1 hsame]
        exact List.mem_map.2 ⟨c, hc, rfl⟩
      rw [List.find?_cons, hne]
      exact ih h.2 hc

theorem Distinct.sameName_eq {columns : List Column} (h : Distinct columns) {c d : Column}
    (hc : c ∈ columns) (hd : d ∈ columns) : sameName c.name d.name = decide (c.name = d.name) := by
  rw [Bool.eq_iff_iff, sameName_iff, decide_eq_true_eq]
  constructor
  · intro hfold
    have hfind := h.find? hc
    rw [show (fun e : Column => sameName e.name c.name) = fun e => sameName e.name d.name by
      funext e
      rw [sameName, sameName, hfold], h.find? hd] at hfind
    cases hfind
    rfl
  · intro hname
    rw [hname]

namespace Cells

variable {columns : List Column} {cell : String → Cell}

theorem read_cons (e : String × Cell) (cells : Cells) (name : String) :
    read (e :: cells) name = if sameName e.1 name then e.2 else cells.read name := by
  unfold read
  rw [List.find?_cons]
  cases sameName e.1 name <;> rfl

theorem find?_ofColumns (h : Distinct columns) {c : Column} (hc : c ∈ columns) :
    ((ofColumns columns cell).find? fun e => sameName e.1 c.name) = some (c.name, cell c.name) := by
  rw [ofColumns, List.find?_map, Function.comp_def, h.find? hc, Option.map_some]

@[simp]
theorem read_ofColumns (h : Distinct columns) {c : Column} (hc : c ∈ columns) :
    (ofColumns columns cell).read c.name = cell c.name := by
  rw [read, find?_ofColumns h hc]

theorem ofColumns_congr {other : String → Cell} (h : ∀ c ∈ columns, cell c.name = other c.name) :
    ofColumns columns cell = ofColumns columns other := by
  apply List.map_congr_left
  intro c hc
  rw [h c hc]

theorem assigned?_ofColumns (h : Distinct columns) (cell : String → Cell) {c : Column} (hc : c ∈ columns) :
    assigned? (ofColumns columns cell) c.name = some (cell c.name) := by
  have hreverse : Distinct columns.reverse := by
    rw [Distinct, List.map_reverse, List.Nodup, List.pairwise_reverse]
    exact h.imp fun hne => Ne.symm hne
  rw [assigned?, ofColumns, ← List.map_reverse]
  show ((ofColumns columns.reverse cell).find? fun e => sameName e.1 c.name).map (·.2) = _
  rw [find?_ofColumns hreverse (List.mem_reverse.2 hc), Option.map_some]

end Cells

/-! ## Names in a table -/

theorem TableDesign.names_perm (d : TableDesign) :
    d.names.Perm (d.idColumn.toList ++ d.columns.map Column.name) := by
  unfold names
  dsimp only
  refine ((List.perm_append_comm).append_right _).trans ?_
  rw [List.append_assoc, List.take_append_drop]

namespace Table

variable {t : Table}

theorem nodup_names (t : Table) :
    ((t.idColumn.toList ++ t.columns.map Column.name).map foldAscii).Nodup :=
  (t.toTableDesign.names_perm.map foldAscii).nodup t.names_nodup

theorem distinct (t : Table) : Distinct t.columns := by
  have hnodup := t.nodup_names
  rw [List.map_append, List.map_map] at hnodup
  exact (List.nodup_append.1 hnodup).2.1

theorem source?_of_mem {c : Column} (hc : c ∈ t.columns) : t.source? c.name = some (.column c) := by
  rw [source?, column?, t.distinct.find? hc]

theorem mem_of_source? {name : String} {c : Column} (h : t.source? name = some (.column c)) :
    c ∈ t.columns := by
  unfold source? at h
  split at h
  · rename_i hcolumn
    cases h
    exact List.mem_of_find?_eq_some hcolumn
  · split at h <;> cases h

theorem source?_of_id {name : String} (hid : t.idColumn = some name) :
    t.source? name = some .number := by
  have hnodup := t.nodup_names
  rw [hid, Option.toList_some, List.singleton_append, List.map_cons, List.nodup_cons] at hnodup
  have hcolumn : t.column? name = none := by
    rw [column?, List.find?_eq_none]
    intro c hc hsame
    apply hnodup.1
    rw [← sameName_iff.1 hsame]
    exact List.mem_map_of_mem (List.mem_map_of_mem hc)
  rw [source?, hcolumn, isId, hid]
  simp [sameName_refl]

theorem read_of_mem {c : Column} (hc : c ∈ t.columns) (id : Int) (cells : Cells) :
    t.read id cells c.name = cells.read c.name := by
  rw [read, source?_of_mem hc]

theorem read_of_id {name : String} (hid : t.idColumn = some name) (id : Int) (cells : Cells) :
    t.read id cells name = .integer id := by
  rw [read, source?_of_id hid]

theorem coerce_of_mem {c : Column} (hc : c ∈ t.columns) (cell : Cell) :
    t.coerce c.name cell = c.affinity.coerce cell := by
  rw [coerce, source?_of_mem hc]

theorem resultName_of_mem {c : Column} (hc : c ∈ t.columns) : t.resultName c.name = c.name := by
  rw [resultName, source?_of_mem hc]

theorem resultName_of_id {name : String} (hid : t.idColumn = some name) :
    t.resultName name = name := by
  rw [resultName, source?_of_id hid, hid]
  rfl

theorem shown_of_column {name : String} (h : senseOf name = .column) (now : Instant) (id : Int)
    (cells : Cells) : t.shown now id cells name = (t.resultName name, t.read id cells name) := by
  rw [shown, clockText?_of_column h]

-- The rows that have a number.
theorem holds_id {name : String} (hid : t.idColumn = some name) (id number : Int) (cells : Cells) :
    (Condition.equals name (.integer number)).holds t id cells = decide (id = number) := by
  rw [Condition.holds, Condition.column, read_of_id hid]
  show (Cell.integer id).equals (t.coerce name (.integer number)) = _
  rw [coerce, source?_of_id hid]
  exact Cell.equals_integer _ _

theorem unknown?_eq_none {names : List String}
    (h : ∀ name ∈ names, t.idColumn = some name ∨ name ∈ t.columns.map Column.name) :
    t.unknown? names = none := by
  rw [unknown?, List.find?_eq_none]
  intro name hname
  rcases h name hname with hid | hname
  · simp [source?_of_id hid]
  · obtain ⟨c, hc, rfl⟩ := List.mem_map.1 hname
    simp [source?_of_mem hc]

theorem lacking?_eq_none {names : List String} (h : ∀ name ∈ names, name ∈ t.columns.map Column.name) :
    t.lacking? names = none := by
  rw [lacking?, List.find?_eq_none]
  intro name hname
  obtain ⟨c, hc, rfl⟩ := List.mem_map.1 (h name hname)
  simp [source?_of_mem hc]

-- Values for columns leave the number to the table.
theorem numberCell?_eq_none {values : Cells}
    (h : ∀ name ∈ values.map (·.1), name ∈ t.columns.map Column.name) : t.numberCell? values = none := by
  rw [numberCell?, Option.map_eq_none_iff, List.find?_eq_none]
  intro e he
  obtain ⟨c, hc, hname⟩ := List.mem_map.1 (h e.1 (List.mem_map_of_mem (List.mem_reverse.1 he)))
  rw [← hname, source?_of_mem hc]
  simp

end Table

/-! ## Plain columns -/

/-- A column without rules that look at other rows or other tables. -/
structure Column.IsPlain (c : Column) : Prop where
  uniqueness : c.uniqueness = none
  parent : c.parent = none

/-- A cell that the column keeps as it is. -/
def Column.Keeps (c : Column) (cell : Cell) : Prop :=
  c.affinity.coerce cell = cell ∧ (c.required = true → cell.isNull = false)

namespace Table

variable {t : Table} {cell : String → Cell}

theorem newCell_ofColumns {columns : List Column} (h : Distinct columns) {c : Column}
    (hc : c ∈ columns) (hkeeps : c.Keeps (cell c.name)) :
    newCell (Cells.ofColumns columns cell) c = cell c.name := by
  rw [newCell, Cells.find?_ofColumns h hc]
  exact hkeeps.1

theorem newCells_ofColumns {columns : List Column} (h : Distinct columns)
    (hkeeps : ∀ c ∈ columns, c.Keeps (cell c.name)) :
    (columns.map fun c => (c.name, newCell (Cells.ofColumns columns cell) c)) =
      Cells.ofColumns columns cell := by
  apply List.map_congr_left
  intro c hc
  rw [newCell_ofColumns h hc (hkeeps c hc)]

theorem missingValue?_ofColumns (h : Distinct t.columns)
    (hkeeps : ∀ c ∈ t.columns, c.Keeps (cell c.name)) :
    t.missingValue? (Cells.ofColumns t.columns cell) = none := by
  rw [missingValue?, Option.map_eq_none_iff, List.find?_eq_none]
  intro c hc
  rw [Cells.read_ofColumns h hc, Bool.and_eq_true]
  rintro ⟨hreq, hnull⟩
  rw [(hkeeps c hc).2 hreq] at hnull
  cases hnull

-- Of a new row in a table of plain columns, only the number can repeat.
theorem repeated?_eq_none (hplain : ∀ c ∈ t.columns, c.IsPlain) {id : Int} {cells : Cells}
    (hid : t.rows.contains id = false) : t.repeated? id cells = none := by
  rw [repeated?, if_neg (by rw [hid]; decide), Option.map_eq_none_iff, List.find?_eq_none]
  intro c hc
  rw [List.any_eq_true]
  rintro ⟨e, -, hrepeats⟩
  simp [repeats, (hplain c hc).uniqueness] at hrepeats

-- Assignments in plain columns concern no other rows, unless one of them is to the number.
theorem concernsOthers_of_not_number (hplain : ∀ c ∈ t.columns, c.IsPlain) {names : List String}
    (h : ∀ name ∈ names, t.source? name ≠ some .number) : t.concernsOthers names = false := by
  rw [concernsOthers, List.any_eq_false]
  intro name hname
  have hsource := h name hname
  cases hfound : t.source? name with
  | none => simp
  | some source =>
    cases source with
    | number => exact absurd hfound hsource
    | column c => simp [(hplain c (mem_of_source? hfound)).uniqueness]

theorem concernsOthers_eq_false (hplain : ∀ c ∈ t.columns, c.IsPlain) {names : List String}
    (h : ∀ name ∈ names, name ∈ t.columns.map Column.name) : t.concernsOthers names = false := by
  apply concernsOthers_of_not_number hplain
  intro name hname
  obtain ⟨c, hc, rfl⟩ := List.mem_map.1 (h name hname)
  rw [source?_of_mem hc]
  exact fun heq => by cases heq

-- Assignments in plain columns are made row by row, where no row loses a value that it has to have.
theorem update_eq (hplain : ∀ c ∈ t.columns, c.IsPlain) {assignments : Cells}
    (hnames : ∀ name ∈ assignments.map (·.1), name ∈ t.columns.map Column.name)
    (test : Int → Cells → Bool)
    (hmissing : ∀ e ∈ t.rows.entries, test e.1 e.2 = true →
      t.missingValue? (t.assign assignments e.2) = none) :
    t.update (assignments.map (·.1)) (fun _ _ => assignments.map (·.2)) test =
      .ok ((t.rows.entries.filter fun e => test e.1 e.2).length,
        { t with rows := t.rows.map fun id cells =>
            if test id cells then t.assign assignments cells else cells }) := by
  have hzip : (assignments.map (·.1)).zip (assignments.map (·.2)) = assignments := by
    rw [List.zip_map', List.map_id'']
    exact fun _ => rfl
  have hnone : (t.rows.entries.filter fun e => test e.1 e.2).findSome?
      (fun e => t.missingValue? (t.assign assignments e.2)) = none := by
    rw [List.findSome?_eq_none_iff]
    intro e he
    exact hmissing e (List.mem_filter.1 he).1 (List.mem_filter.1 he).2
  rw [update, concernsOthers_eq_false hplain hnames]
  simp only [Bool.false_eq_true, if_false, hzip, hnone]

theorem assign_ofColumns (assignments : Cells) :
    t.assign assignments (Cells.ofColumns t.columns cell) =
      Cells.ofColumns t.columns fun name =>
        match Cells.assigned? assignments name with
        | some new => t.coerce name new
        | none => cell name := by
  rw [assign, Cells.ofColumns, List.map_map]
  rfl

end Table

end Registry
