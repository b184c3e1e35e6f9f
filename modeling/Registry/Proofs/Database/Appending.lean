import Registry.Proofs.Database.Besides
import Registry.Proofs.Database.Columns

/-!
# Appending — new rows behind the others

A table gives a new row a number larger than that of any row it has.  So where no rule looks at other
rows, a row whose number is left to the table is added behind all others.
-/

namespace Registry

/-! ## Numbers in a row -/

namespace SortedMap

variable {α : Type}

theorem insertEntry_of_forall_lt {key : Int} {value : α} {list : List (Int × α)}
    (h : ∀ e ∈ list, e.1 < key) : insertEntry key value list = list ++ [(key, value)] := by
  induction list with
  | nil => rfl
  | cons e rest ih =>
    have hlt : e.1 < key := h e (List.mem_cons_self ..)
    rw [insertEntry, if_neg (by omega), if_pos hlt,
      ih fun e he => h e (List.mem_cons_of_mem _ he), List.cons_append]

-- A number is that of one entry.
theorem entry_eq {m : SortedMap Int α} {a b : Int × α} (ha : a ∈ m.entries) (hb : b ∈ m.entries)
    (h : a.1 = b.1) : a = b := by
  have hget := mem_entries_iff.1 ha
  rw [h, mem_entries_iff.1 hb, Option.some.injEq] at hget
  exact Prod.ext h hget.symm

-- A map lists its largest key last.
theorem lt_behindLast {m : SortedMap Int α} {e : Int × α} (he : e ∈ m.entries) :
    e.1 < m.lastKey?.elim 1 (· + 1) := by
  obtain ⟨front, last, hentries⟩ : ∃ front last, m.entries = front ++ [last] :=
    ⟨_, _, (List.dropLast_concat_getLast (List.ne_nil_of_mem he)).symm⟩
  have hascending := m.ascending
  rw [hentries] at hascending he
  rw [lastKey?, hentries, List.getLast?_append, List.getLast?_singleton]
  show e.1 < last.1 + 1
  rcases List.mem_append.1 he with he | he
  · have hlt := (List.pairwise_append.1 hascending).2.2 e he last (List.mem_singleton_self _)
    omega
  · rw [List.mem_singleton.1 he]
    omega

end SortedMap

/-! ## The next row -/

namespace Table

variable {t : Table}

theorem create?_eq_ok {d : TableDesign} (h : create? d = .ok t) :
    t.toTableDesign = d ∧ t.rows = .empty ∧ t.lastId = 0 := by
  unfold create? at h
  split at h
  · cases h
  · cases h
    exact ⟨rfl, rfl, rfl⟩

-- The next number is larger than that of any row.
theorem lt_nextId {e : Int × Cells} (he : e ∈ t.rows.entries) : e.1 < t.nextId := by
  have hlt := SortedMap.lt_behindLast he
  unfold nextId
  dsimp only
  split <;> omega

theorem contains_nextId (t : Table) : t.rows.contains t.nextId = false := by
  rw [SortedMap.contains]
  cases hget : t.rows.get? t.nextId with
  | none => rfl
  | some cells => exact absurd (lt_nextId (SortedMap.mem_entries_iff.2 hget)) (Int.lt_irrefl _)

/-- The table with another row, under the next number. -/
def appending (t : Table) (cells : Cells) : Table :=
  { t with rows := t.rows.insert t.nextId cells, lastId := max t.nextId t.lastId }

theorem entries_appending (t : Table) (cells : Cells) :
    (t.appending cells).rows.entries = t.rows.entries ++ [(t.nextId, cells)] :=
  SortedMap.insertEntry_of_forall_lt fun _ he => lt_nextId he

/-- A row whose number is left to the table is added under the next number, if a cell can hold that. -/
theorem insert_eq (hplain : ∀ c ∈ t.columns, c.IsPlain) {values cells : Cells}
    (hnumber : t.numberCell? values = none)
    (hcells : (t.columns.map fun c => (c.name, newCell values c)) = cells)
    (hmissing : t.missingValue? cells = none) :
    t.insert values =
      if Cell.isInteger t.nextId then .ok (t.nextId, t.appending cells) else .error .full := by
  have hnew : t.newId values = if Cell.isInteger t.nextId then .ok t.nextId else .error .full := by
    rw [newId, hnumber]
    rfl
  rw [insert, hnew]
  by_cases hinteger : Cell.isInteger t.nextId = true
  · simp only [hinteger, if_true, hcells, hmissing, repeated?_eq_none hplain t.contains_nextId]
    rfl
  · simp only [hinteger, Bool.false_eq_true, if_false]

-- A table that keeps count goes on behind the last number that it gave.
theorem nextId_of_lastId (hcount : t.keepsCount = true) {given : Nat} (hlast : t.lastId = given)
    (hkeys : ∀ e ∈ t.rows.entries, e.1 ≤ given) : t.nextId = (given + 1 : Nat) := by
  have hbehind : t.rows.lastKey?.elim 1 (· + 1) ≤ (given + 1 : Int) := by
    rw [SortedMap.lastKey?]
    cases hentry : t.rows.entries.getLast? with
    | none =>
      simp only [Option.map_none, Option.elim_none]
      omega
    | some e =>
      have hle := hkeys e (List.mem_of_getLast? hentry)
      simp only [Option.map_some, Option.elim_some]
      omega
  rw [nextId, if_pos hcount, hlast]
  omega

theorem isInteger_next (given : Nat) :
    Cell.isInteger (given + 1 : Nat) = true ↔ given + 1 < 2 ^ 63 := by
  simp only [Cell.isInteger, Bool.and_eq_true, decide_eq_true_eq]
  omega

/-! ## One row, or none -/

-- Assignments in rows of which there are none leave the table as it is.
theorem update_none (hplain : ∀ c ∈ t.columns, c.IsPlain) {assignments : Cells}
    (hnames : ∀ name ∈ assignments.map (·.1), name ∈ t.columns.map Column.name)
    {test : Int → Cells → Bool} (hnone : ∀ e ∈ t.rows.entries, test e.1 e.2 = false) :
    t.update (assignments.map (·.1)) (fun _ _ => assignments.map (·.2)) test = .ok (0, t) := by
  have hnot : ∀ e ∈ t.rows.entries, ¬ test e.1 e.2 = true := fun e he => Bool.eq_false_iff.1 (hnone e he)
  have hrows : (t.rows.map fun id cells => if test id cells then t.assign assignments cells else cells) =
      t.rows := by
    apply SortedMap.ext_entries
    refine (List.map_congr_left fun e he => ?_).trans (List.map_id' _)
    dsimp only
    rw [if_neg (hnot e he)]
  rw [update_eq hplain hnames test fun e he htrue => absurd htrue (hnot e he), hrows,
    List.filter_eq_nil_iff.2 hnot]
  rfl

-- Assignments in the row that has a number leave all other rows alone.
theorem update_one (hplain : ∀ c ∈ t.columns, c.IsPlain) {name : String}
    (hid : t.idColumn = some name) {assignments : Cells}
    (hnames : ∀ name ∈ assignments.map (·.1), name ∈ t.columns.map Column.name)
    {front back : List (Int × Cells)} {id : Int} {cells : Cells}
    (hentries : t.rows.entries = front ++ (id, cells) :: back)
    (hmissing : t.missingValue? (t.assign assignments cells) = none) :
    ∃ t', t.update (assignments.map (·.1)) (fun _ _ => assignments.map (·.2))
        (Condition.allHold t [.equals name (.integer id)]) = .ok (1, t') ∧
      t'.lastId = t.lastId ∧ t'.rows.entries = front ++ (id, t.assign assignments cells) :: back := by
  have htest : ∀ other row, Condition.allHold t [.equals name (.integer id)] other row =
      decide (other = id) := by
    intro other row
    rw [Condition.allHold, List.all_cons, List.all_nil, Bool.and_true, holds_id hid]
  -- The numbers ascend, so no row before this one has its number and none behind it.
  obtain ⟨hfront, hback⟩ : (∀ e ∈ front, e.1 ≠ id) ∧ ∀ e ∈ back, e.1 ≠ id := by
    have hascending := t.rows.ascending
    rw [hentries, List.pairwise_append, List.pairwise_cons] at hascending
    obtain ⟨-, ⟨hbehind, -⟩, hbefore⟩ := hascending
    constructor
    · exact fun e he => Int.ne_of_lt (hbefore e he _ (List.mem_cons_self ..))
    · exact fun e he => Int.ne_of_gt (hbehind e he)
  have hkept : ∀ rows : List (Int × Cells), (∀ e ∈ rows, e.1 ≠ id) →
      (rows.filter fun e => decide (e.1 = id)) = [] ∧
        (rows.map fun e => (e.1, if e.1 = id then t.assign assignments e.2 else e.2)) = rows := by
    intro rows hothers
    refine ⟨List.filter_eq_nil_iff.2 fun e he => by simpa using hothers e he, ?_⟩
    rw [List.map_congr_left fun e he => by rw [if_neg (hothers e he)], List.map_id'']
    exact fun _ => rfl
  have htouched : (t.rows.entries.filter fun e => decide (e.1 = id)) = [(id, cells)] := by
    rw [hentries, List.filter_append, (hkept front hfront).1, List.filter_cons, (hkept back hback).1]
    simp
  have hupdate := update_eq hplain hnames (Condition.allHold t [.equals name (.integer id)])
    fun e he htrue => by
      rw [htest, decide_eq_true_eq] at htrue
      rw [SortedMap.entry_eq he (hentries ▸ List.mem_append_right _ (List.mem_cons_self ..)) htrue]
      exact hmissing
  simp only [htest, htouched, decide_eq_true_eq] at hupdate
  refine ⟨_, hupdate, rfl, ?_⟩
  rw [SortedMap.map]
  dsimp only
  rw [hentries, List.map_append, (hkept front hfront).2, List.map_cons, (hkept back hback).2, if_pos rfl]

end Table

/-! ## Rows behind the others -/

/-- The table has gained rows behind the others; without new rows it is the same. -/
structure Table.Gains (t t' : Table) (rows : List Cells) : Prop where
  design : t'.toTableDesign = t.toTableDesign
  entries : ∃ log, t'.rows.entries = t.rows.entries ++ log ∧ log.map (·.2) = rows
  same : rows = [] → t' = t

namespace Table.Gains

variable {t t' t'' : Table} {rows more : List Cells}

theorem refl (t : Table) : t.Gains t [] := ⟨rfl, ⟨[], by simp⟩, fun _ => rfl⟩

theorem trans (h : t.Gains t' rows) (h' : t'.Gains t'' more) : t.Gains t'' (rows ++ more) := by
  obtain ⟨log, hentries, hlog⟩ := h.entries
  obtain ⟨log', hentries', hlog'⟩ := h'.entries
  refine ⟨h'.design.trans h.design, ⟨log ++ log', ?_, ?_⟩, fun hnone => ?_⟩
  · rw [hentries', hentries, List.append_assoc]
  · rw [List.map_append, hlog, hlog']
  · obtain ⟨hrows, hmore⟩ := List.append_eq_nil_iff.1 hnone
    rw [h'.same hmore, h.same hrows]

end Table.Gains

/-! ## The next row in a database -/

namespace Database

variable {db : Database} {name : String} {t : Table}

theorem table?_put_self (db : Database) (name : String) (t : Table) :
    (db.put name t).table? name = some t := by
  rw [table?_put, if_pos rfl]

theorem put_eq_self (h : db.table? name = some t) : db.put name t = db := by
  rw [put, SortedMap.insert_eq_self h]

theorem find_of_table? (h : db.table? name = some t) : db.find name = .ok t :=
  find_eq_ok_iff.2 h

-- Where no table of the name was, a new one is there without rows.
theorem createTable_eq_ok {d : TableDesign} {ifMissing : Bool} {created : Database}
    (hnone : db.table? d.name = none) (h : db.createTable ifMissing d = .ok created) :
    ∃ t, created = db.put d.name t ∧ t.toTableDesign = d ∧ t.rows = .empty ∧ t.lastId = 0 := by
  unfold createTable at h
  split at h
  · cases h
  rw [hnone, Option.isSome_none, if_neg Bool.false_ne_true] at h
  split at h
  · cases h
  split at h
  · cases h
  · rename_i t hcreate
    cases h
    exact ⟨t, rfl, Table.create?_eq_ok hcreate⟩

theorem parentFault?_eq_none (hplain : ∀ c ∈ t.columns, c.IsPlain) : db.parentFault? t = none := by
  -- no column refers to another table
  have hparents : t.columns.filterMap Column.parent = [] :=
    List.filterMap_eq_nil_iff.2 fun c hc => (hplain c hc).parent
  rw [parentFault?, hparents]
  rfl

theorem insert_eq (htable : db.table? name = some t) (hplain : ∀ c ∈ t.columns, c.IsPlain)
    {values cells : Cells} (hnames : ∀ name ∈ values.map (·.1), name ∈ t.columns.map Column.name)
    (hcells : (t.columns.map fun c => (c.name, Table.newCell values c)) = cells)
    (hmissing : t.missingValue? cells = none) : db.insert name values =
      if Cell.isInteger t.nextId then
        .ok (t.nextId, { db.put name (t.appending cells) with changed := 1 })
      else .error .full := by
  have hinsert := Table.insert_eq hplain (Table.numberCell?_eq_none hnames) hcells hmissing
  simp only [insert, find_of_table? htable, Table.lacking?_eq_none hnames, parentFault?_eq_none hplain,
    hinsert]
  cases Cell.isInteger t.nextId <;> rfl

theorem phraseFault?_asked {conditions : List Condition}
    (h : ∀ c ∈ conditions, senseOf c.column = .column) : phraseFault? (asked conditions) = none := by
  refine phraseFault?_eq_none fun e he => ?_
  obtain ⟨c, hc, rfl⟩ := List.mem_map.1 he
  exact h c hc

/-- The rows of a table that meet all conditions. -/
def rowsWhere (t : Table) (conditions : List Condition) : List (Int × Cells) :=
  t.rows.entries.filter fun e => Condition.allHold t conditions e.1 e.2

-- Where conditions speak of columns only, a query shows the rows that meet them, unless one of its names
-- opens a phrase.
theorem select_of_columns (htable : db.table? name = some t) {names : List String}
    {conditions : List Condition} (hcolumns : ∀ c ∈ conditions, senseOf c.column = .column)
    (hknown : t.unknown? (names ++ conditions.map Condition.column) = none) :
    db.select name names conditions =
      match phraseFault? (listed "FROM" names) with
      | some fault => .error fault
      | none => .ok ((rowsWhere t conditions).map fun e => names.map (t.shown db.clock e.1 e.2)) := by
  have hasked : phraseFault? (listed "FROM" names ++ asked conditions) =
      phraseFault? (listed "FROM" names) := by
    have hnone := Option.map_eq_none_iff.1 (phraseFault?_asked hcolumns)
    rw [phraseFault?, phraseFault?, List.find?_append, hnone, Option.or_none]
  unfold select
  dsimp only
  rw [hasked, find_of_table? htable]
  cases phraseFault? (listed "FROM" names) with
  | some fault => rfl
  | none =>
    dsimp only
    rw [hknown, Table.select, Condition.allHoldAt_eq hcolumns]
    rfl

-- Where all names are those of columns, the clock plays no part in a query.
theorem select_of_names (htable : db.table? name = some t) {names : List String}
    (hnames : ∀ name ∈ names, senseOf name = .column)
    {conditions : List Condition} (hcolumns : ∀ c ∈ conditions, senseOf c.column = .column)
    (hknown : t.unknown? (names ++ conditions.map Condition.column) = none) :
    db.select name names conditions = .ok ((rowsWhere t conditions).map fun e =>
      names.map fun name => (t.resultName name, t.read e.1 e.2 name)) := by
  rw [select_of_columns htable hcolumns hknown, phraseFault?_eq_none fun e he => hnames _ (mem_listed he)]
  refine congrArg Except.ok (List.map_congr_left fun e _ => List.map_congr_left fun name hname => ?_)
  exact Table.shown_of_column (hnames name hname) db.clock e.1 e.2

-- Where conditions speak of columns only, the clock plays no part in an update.
theorem update_of_columns (htable : db.table? name = some t) {assignments : Cells}
    (hnames : ∀ name ∈ assignments.map (·.1), name ∈ t.columns.map Column.name)
    {conditions : List Condition} (hcolumns : ∀ c ∈ conditions, senseOf c.column = .column)
    (hknown : t.unknown? (conditions.map Condition.column) = none) :
    db.update name assignments conditions =
      (t.update (assignments.map (·.1)) (fun _ _ => assignments.map (·.2))
        (Condition.allHold t conditions)).map
          fun e => (e.1, { db.put name e.2 with changed := e.1 }) := by
  simp only [update, phraseFault?_asked hcolumns, find_of_table? htable, Table.lacking?_eq_none hnames,
    hknown, Condition.allHoldAt_eq hcolumns]
  rcases t.update _ _ _ with fault | ⟨count, t'⟩ <;> rfl

theorem update_none (htable : db.table? name = some t) (hplain : ∀ c ∈ t.columns, c.IsPlain)
    {assignments : Cells} (hnames : ∀ name ∈ assignments.map (·.1), name ∈ t.columns.map Column.name)
    {conditions : List Condition} (hcolumns : ∀ c ∈ conditions, senseOf c.column = .column)
    (hknown : t.unknown? (conditions.map Condition.column) = none)
    (hnone : ∀ e ∈ t.rows.entries, Condition.allHold t conditions e.1 e.2 = false) :
    db.update name assignments conditions = .ok (0, { db with changed := 0 }) := by
  rw [update_of_columns htable hnames hcolumns hknown, Table.update_none hplain hnames hnone]
  show Except.ok (0, { db.put name t with changed := 0 }) = _
  rw [put_eq_self htable]

-- Assignments in one row are made in the table.
theorem update_one (htable : db.table? name = some t) (hplain : ∀ c ∈ t.columns, c.IsPlain)
    {number : String} (hid : t.idColumn = some number) (hnumber : senseOf number = .column)
    {assignments : Cells} (hnames : ∀ name ∈ assignments.map (·.1), name ∈ t.columns.map Column.name)
    {front back : List (Int × Cells)} {id : Int} {cells : Cells}
    (hentries : t.rows.entries = front ++ (id, cells) :: back)
    (hmissing : t.missingValue? (t.assign assignments cells) = none) :
    ∃ t' db', db.update name assignments [.equals number (.integer id)] = .ok (1, db') ∧
      db'.table? name = some t' ∧ t'.toTableDesign = t.toTableDesign ∧ t'.lastId = t.lastId ∧
      t'.rows.entries = front ++ (id, t.assign assignments cells) :: back := by
  obtain ⟨t', hupdate, hlast, hafter⟩ := Table.update_one hplain hid hnames hentries hmissing
  have hunknown : t.unknown? [number] = none :=
    Table.unknown?_eq_none fun name hname => .inl (by rw [List.mem_singleton.1 hname, hid])
  have hcolumn : ∀ c ∈ [Condition.equals number (.integer id)], senseOf c.column = .column := by
    intro c hc
    rw [List.mem_singleton.1 hc]
    exact hnumber
  refine ⟨t', { db.put name t' with changed := 1 }, ?_, table?_put_self db name t',
    Table.toTableDesign_update hupdate, hlast, hafter⟩
  rw [update_of_columns htable hnames hcolumn hunknown, hupdate]
  rfl

end Database

end Registry
