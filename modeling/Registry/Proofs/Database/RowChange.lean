import Registry.Proofs.Database.Appending

/-!
# RowChange — what a statement does to the rows of a table

A row is added under a number that no row has.  Assignments change the rows that pass a test and no
others, and leave each row with a cell for every column.  This holds for any values, so long as no name
stands for the number of a row.
-/

namespace Registry

open Registry.Text

namespace Cells

-- Cells under the names of some columns are what they read as.
theorem eq_ofColumns {columns : List Column} (hdistinct : Distinct columns) {cells : Cells}
    (hnames : cells.map (·.1) = columns.map Column.name) : cells = ofColumns columns (read cells) := by
  induction columns generalizing cells with
  | nil => exact List.map_eq_nil_iff.1 hnames
  | cons c columns ih =>
    cases cells with
    | nil => cases hnames
    | cons e cells =>
      rw [Distinct, List.map_cons, List.nodup_cons] at hdistinct
      rw [List.map_cons, List.map_cons, List.cons.injEq] at hnames
      obtain ⟨hname, hnames⟩ := hnames
      have hself : read (e :: cells) c.name = e.2 := by
        rw [read_cons, hname, sameName_refl, if_pos rfl]
      have hrest : ofColumns columns (read (e :: cells)) = ofColumns columns (read cells) := by
        apply ofColumns_congr
        intro d hd
        have hother : sameName e.1 d.name = false := by
          rw [Bool.eq_false_iff, Ne, sameName_iff, hname]
          exact fun hsame => hdistinct.1 (hsame ▸ List.mem_map.2 ⟨d, hd, rfl⟩)
        rw [read_cons, hother, if_neg Bool.false_ne_true]
      show e :: cells = (c.name, read (e :: cells) c.name) :: ofColumns columns (read (e :: cells))
      rw [hself, hrest, ← ih hdistinct.2 hnames, ← hname]

end Cells

namespace Table

/-- Every row has a cell for each column, in the order of the columns. -/
def IsFull (t : Table) : Prop :=
  ∀ pid cells, t.rows.get? pid = some cells → cells.map (·.1) = t.columns.map Column.name

variable {t t' : Table}

theorem source?_congr (h : t'.toTableDesign = t.toTableDesign) (name : String) :
    t'.source? name = t.source? name := by
  unfold source? column? isId
  rw [h]

/-! ## New rows -/

theorem insert_eq_ok {values : Cells} {id : Int} (h : t.insert values = .ok (id, t')) :
    t.rows.get? id = none ∧
      t'.rows = t.rows.insert id (t.columns.map fun c => (c.name, newCell values c)) := by
  unfold insert at h
  dsimp only at h
  split at h
  · cases h
  · split at h
    · cases h
    · cases h
    · rename_i hrepeated
      cases h
      refine ⟨?_, rfl⟩
      rw [← Option.not_isSome_iff_eq_none]
      intro hsome
      rw [repeated?, SortedMap.contains, if_pos hsome] at hrepeated
      cases hrepeated

/-! ## Assignments -/

theorem read_assign {cells : Cells} (hnames : cells.map (·.1) = t.columns.map Column.name) {c : Column}
    (hc : c ∈ t.columns) (assignments : Cells) :
    (t.assign assignments cells).read c.name =
      match Cells.assigned? assignments c.name with
      | some cell => c.affinity.coerce cell
      | none => cells.read c.name := by
  have hcells := Cells.eq_ofColumns t.distinct hnames
  conv => lhs; rw [hcells]
  rw [assign_ofColumns, Cells.read_ofColumns t.distinct hc]
  cases Cells.assigned? assignments c.name with
  | none => rfl
  | some cell => exact coerce_of_mem hc cell

theorem names_assign (t : Table) (assignments cells : Cells) :
    (t.assign assignments cells).map (·.1) = cells.map (·.1) := by
  rw [assign, List.map_map]
  rfl

theorem update_eq_ok {assignments : Cells} {test : Int → Cells → Bool} {count : Nat}
    (hothers : t.concernsOthers (assignments.map (·.1)) = false)
    (h : t.update (assignments.map (·.1)) (fun _ _ => assignments.map (·.2)) test = .ok (count, t')) :
    count = (t.rows.entries.filter fun e => test e.1 e.2).length ∧
      t'.rows = t.rows.map fun id cells => if test id cells then t.assign assignments cells else cells := by
  have hzip : (assignments.map (·.1)).zip (assignments.map (·.2)) = assignments := by
    rw [List.zip_map', List.map_id'']
    exact fun _ => rfl
  unfold update at h
  dsimp only at h
  rw [hothers, if_neg Bool.false_ne_true, hzip] at h
  split at h
  · cases h
  · cases h
    exact ⟨rfl, rfl⟩

end Table

/-! ## In a database -/

namespace Database

variable {db after : Database} {name : String}

/-- The cells of the row that has a number, in the table of a name. -/
def row? (db : Database) (name : String) (pid : Int) : Option Cells :=
  (db.table? name).bind (·.rows.get? pid)

theorem row?_of_table {t : Table} (h : db.table? name = some t) (pid : Int) :
    db.row? name pid = t.rows.get? pid := by
  rw [row?, h, Option.bind_some]

theorem insert_eq_ok {values : Cells} {id : Int} (h : db.insert name values = .ok (id, after)) :
    ∃ t t', db.table? name = some t ∧ t.insert values = .ok (id, t') ∧
      after.table? name = some t' := by
  unfold insert at h
  split at h
  · cases h
  · rename_i t hfind
    split at h
    · cases h
    · cases h
    · split at h
      · cases h
      · rename_i hinsert
        cases h
        exact ⟨t, _, find_eq_ok_iff.1 hfind, hinsert, table?_put_self db name _⟩

-- What a query answers with is shown of rows of the table.
theorem exists_row_of_select {names : List String} {conditions : List Condition} {rows : List Cells}
    (h : db.select name names conditions = .ok rows) {row : Cells} (hrow : row ∈ rows) :
    ∃ t, db.table? name = some t ∧ ∃ e ∈ t.rows.entries, row = names.map (t.shown db.clock e.1 e.2) := by
  unfold select at h
  dsimp only at h
  split at h
  · cases h
  · cases h
  · rename_i t _ hfind
    split at h
    · cases h
    · cases h
      obtain ⟨e, he, rfl⟩ := List.mem_map.1 hrow
      exact ⟨t, find_eq_ok_iff.1 hfind, e, (List.mem_filter.1 he).1, rfl⟩

theorem update_eq_ok {assignments : Cells} {conditions : List Condition} {count : Nat}
    (h : db.update name assignments conditions = .ok (count, after)) :
    ∃ t t', db.table? name = some t ∧
      t.update (assignments.map (·.1)) (fun _ _ => assignments.map (·.2))
        (Condition.allHoldAt db.clock t conditions) = .ok (count, t') ∧
      after.table? name = some t' := by
  unfold update at h
  split at h
  · cases h
  · cases h
  · rename_i t _ hfind
    split at h
    · cases h
    · cases h
    · split at h
      · cases h
      · rename_i hupdate
        cases h
        exact ⟨t, _, find_eq_ok_iff.1 hfind, hupdate, table?_put_self db name _⟩

end Database

end Registry
