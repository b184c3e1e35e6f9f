import Registry.Proofs.Database.RowChange
import Registry.Proofs.History.Engine
import Registry.Proofs.History.RegisterRows

/-!
# Stamp — one instant marks all that a recorder writes

Every statement of a recorder puts the recorder's instant into the row that it adds or changes, as the
time of the last change, whatever the caller says of that time.  A row that a record opens begins with
this instant as well, and keeps this beginning when a reconciliation reads it and writes it back.
-/

namespace Registry

open Registry.Text

/-! ## Writes with a stamp -/

/-- What writes with a stamp make of the rows of a table.  A row is there afterwards, and as it was or
with the stamp as the time of its last change; a new one has the stamp.  A beginning that is the stamp
stays, and a new row begins with the stamp, but for the rows that the caller dates. -/
structure Table.Writes (stamp : Int) (dated : Int → Prop) (t t' : Table) : Prop where
  design : t'.toTableDesign = t.toTableDesign
  full : t'.IsFull
  kept : ∀ pid cells, t.rows.get? pid = some cells → ∃ cells', t'.rows.get? pid = some cells' ∧
    (cells' = cells ∨ cells'.read modifiedColumn = .integer stamp) ∧
    (dated pid ∨ (cells.read validFromColumn = .integer stamp →
      cells'.read validFromColumn = .integer stamp))
  added : ∀ pid cells', t.rows.get? pid = none → t'.rows.get? pid = some cells' →
    cells'.read modifiedColumn = .integer stamp ∧
    (dated pid ∨ cells'.read validFromColumn = .integer stamp)

namespace Table.Writes

variable {stamp : Int} {dated other : Int → Prop} {t t' t'' : Table}

theorem refl (hfull : t.IsFull) : t.Writes stamp dated t where
  design := rfl
  full := hfull
  kept _ cells h := ⟨cells, h, .inl rfl, .inr id⟩
  added pid cells' hnone hsome := by
    rw [hnone] at hsome
    cases hsome

theorem mono (h : t.Writes stamp dated t') (himp : ∀ pid, dated pid → other pid) :
    t.Writes stamp other t' where
  design := h.design
  full := h.full
  kept pid cells hget := by
    obtain ⟨cells', hget', hmodified, hfrom⟩ := h.kept pid cells hget
    exact ⟨cells', hget', hmodified, hfrom.imp_left (himp pid)⟩
  added pid cells' hnone hsome :=
    (h.added pid cells' hnone hsome).imp_right (Or.imp_left (himp pid))

theorem trans (h : t.Writes stamp dated t') (h' : t'.Writes stamp dated t'') :
    t.Writes stamp dated t'' where
  design := h'.design.trans h.design
  full := h'.full
  kept pid cells hget := by
    obtain ⟨cells', hget', hmodified, hfrom⟩ := h.kept pid cells hget
    obtain ⟨cells'', hget'', hmodified', hfrom'⟩ := h'.kept pid cells' hget'
    refine ⟨cells'', hget'', ?_, ?_⟩
    · rcases hmodified' with rfl | hstamped
      · exact hmodified
      · exact .inr hstamped
    · rcases hfrom with hdated | hfrom
      · exact .inl hdated
      · exact hfrom'.imp_right fun hkeeps hstart => hkeeps (hfrom hstart)
  added pid cells'' hnone hsome := by
    cases hget' : t'.rows.get? pid with
    | none => exact h'.added pid cells'' hget' hsome
    | some cells' =>
      obtain ⟨hmodified, hfrom⟩ := h.added pid cells' hnone hget'
      obtain ⟨now, hnow, hmodified', hfrom'⟩ := h'.kept pid cells' hget'
      rw [hsome] at hnow
      cases hnow
      constructor
      · rcases hmodified' with rfl | hstamped
        · exact hmodified
        · exact hstamped
      · rcases hfrom with hdated | hfrom
        · exact .inl hdated
        · exact hfrom'.imp_right fun hkeeps => hkeeps hfrom

end Table.Writes

/-! ## Single statements -/

namespace Table

variable {l : Layout} {t t' : Table} {stamp : Int} {dated : Int → Prop}

theorem modified_mem_of_design (hdesign : t.toTableDesign = l.design) :
    { name := modifiedColumn, affinity := .integer, required := true } ∈ t.columns :=
  mem_columns_of_design hdesign l.modified_mem

theorem validFrom_mem_of_design (hdesign : t.toTableDesign = l.design) :
    { name := validFromColumn, affinity := .integer, required := true } ∈ t.columns :=
  mem_columns_of_design hdesign l.validFrom_mem

-- A new row has the given integer in an integer column.
theorem read_newCells_integer (t : Table) {values : Cells} {c : Column} {name : String} {n : Int}
    (hc : c ∈ t.columns) (hinteger : c.affinity = .integer)
    (h : values.find? (fun e => sameName e.1 c.name) = some (name, .integer n)) :
    Cells.read (t.columns.map fun c => (c.name, newCell values c)) c.name = .integer n := by
  rw [Cells.read, List.find?_map, Function.comp_def]
  simp only [t.distinct.find? hc, Option.map_some]
  rw [newCell, h, hinteger]
  rfl

theorem writes_insert (hdesign : t.toTableDesign = l.design) (hfull : t.IsFull) {values : Cells} {id : Int}
    (h : t.insert values = .ok (id, t'))
    (hmodified : values.find? (fun e => sameName e.1 modifiedColumn) =
      some (modifiedColumn, .integer stamp))
    (hfrom : dated id ∨ values.find? (fun e => sameName e.1 validFromColumn) =
      some (validFromColumn, .integer stamp)) :
    t.Writes stamp (fun pid => t.rows.get? pid = none ∧ dated pid) t' := by
  obtain ⟨hnew, hrows⟩ := insert_eq_ok h
  have hdesign' := toTableDesign_insert h
  have hget : ∀ pid, t'.rows.get? pid = if id = pid then
      some (t.columns.map fun c => (c.name, newCell values c)) else t.rows.get? pid := by
    intro pid
    rw [hrows, SortedMap.get?_insert]
  constructor
  · exact hdesign'
  · intro pid cells hcells
    rw [hget] at hcells
    rw [show t'.columns = t.columns from congrArg TableDesign.columns hdesign']
    split at hcells
    · cases hcells
      rw [List.map_map]
      rfl
    · exact hfull pid cells hcells
  · intro pid cells hcells
    have hother : id ≠ pid := by
      rintro rfl
      rw [hnew] at hcells
      cases hcells
    exact ⟨cells, by rw [hget, if_neg hother, hcells], .inl rfl, .inr fun hstart => hstart⟩
  · intro pid cells' hnone hcells
    rw [hget] at hcells
    split at hcells
    · rename_i hid
      cases hid
      cases hcells
      have hstamp := t.read_newCells_integer (modified_mem_of_design hdesign) rfl hmodified
      refine ⟨hstamp, ?_⟩
      rcases hfrom with hdated | hfrom
      · exact .inl ⟨hnone, hdated⟩
      · have hstart := t.read_newCells_integer (validFrom_mem_of_design hdesign) rfl hfrom
        exact .inr hstart
    · rw [hnone] at hcells
      cases hcells

theorem writes_update (hdesign : t.toTableDesign = l.design) (hfull : t.IsFull) {assignments : Cells}
    {test : Int → Cells → Bool} (hdesign' : t'.toTableDesign = t.toTableDesign)
    (hrows : t'.rows = t.rows.map fun id cells => if test id cells then t.assign assignments cells else cells)
    (hmodified : Cells.assigned? assignments modifiedColumn = some (.integer stamp))
    (hfrom : ∀ pid cells, t.rows.get? pid = some cells → test pid cells = true →
      dated pid ∨ (cells.read validFromColumn = .integer stamp →
        ∀ cell ∈ Cells.assigned? assignments validFromColumn, cell = .integer stamp)) :
    t.Writes stamp dated t' := by
  have hget : ∀ pid, t'.rows.get? pid = (t.rows.get? pid).map fun cells =>
      if test pid cells then t.assign assignments cells else cells := by
    intro pid
    rw [hrows, SortedMap.get?_map]
  constructor
  · exact hdesign'
  · intro pid cells' hcells'
    rw [hget, Option.map_eq_some_iff] at hcells'
    obtain ⟨cells, hcells, rfl⟩ := hcells'
    rw [show t'.columns = t.columns from congrArg TableDesign.columns hdesign']
    split
    · rw [names_assign, hfull pid cells hcells]
    · exact hfull pid cells hcells
  · intro pid cells hcells
    refine ⟨_, by rw [hget, hcells, Option.map_some], ?_⟩
    by_cases htest : test pid cells = true
    · have hstamp := read_assign (hfull pid cells hcells) (modified_mem_of_design hdesign) assignments
      have hstart := read_assign (hfull pid cells hcells) (validFrom_mem_of_design hdesign) assignments
      dsimp only at hstamp hstart
      rw [hmodified] at hstamp
      rw [if_pos htest]
      refine ⟨.inr hstamp, (hfrom pid cells hcells htest).imp_right fun hkeeps hbegan => ?_⟩
      rw [hstart]
      cases hassigned : Cells.assigned? assignments validFromColumn with
      | none => exact hbegan
      | some cell =>
        rw [hkeeps hbegan cell hassigned]
        rfl
    · rw [if_neg htest]
      exact ⟨.inl rfl, .inr id⟩
  · intro pid cells' hnone hcells'
    rw [hget, hnone] at hcells'
    cases hcells'

end Table

/-- The columns of the layout have names of their own, and none of the names stands for the number of a
row of the table. -/
structure Layout.WritesColumns (l : Layout) (t : Table) : Prop where
  names : l.NamesApart
  notNumber : ∀ name ∈ l.columnNames, t.source? name ≠ some .number

-- A layout writes into the columns of its own table.
theorem Layout.writesColumns_of_design {l : Layout} {t : Table} (h : t.toTableDesign = l.design) :
    l.WritesColumns t where
  names := Table.namesApart_of_design h
  notNumber name hname := by
    obtain ⟨c, hc, rfl⟩ := List.mem_map.1 hname
    rw [Table.source?_of_mem (Table.mem_columns_of_design h hc)]
    exact fun heq => by cases heq

theorem Layout.WritesColumns.congr {l : Layout} {t t' : Table} (h : l.WritesColumns t)
    (hdesign : t'.toTableDesign = t.toTableDesign) : l.WritesColumns t' where
  names := h.names
  notNumber name hname := by
    rw [Table.source?_congr hdesign]
    exact h.notNumber name hname

/-! ## Lookups -/

-- A name in an answer is read as the column of this name.
theorem Table.read_of_resultName {t : Table} {name shown : String} (hid : t.idColumn = some pidColumn)
    (hname : t.resultName name = shown) (id : Int) (cells : Cells) :
    t.read id cells name = t.read id cells shown := by
  unfold resultName at hname
  cases hfound : t.source? name with
  | none =>
    rw [hfound] at hname
    subst hname
    rfl
  | some source =>
    rw [hfound] at hname
    cases source with
    | number =>
      rw [hid, Option.getD_some] at hname
      rw [read, hfound, ← hname, read_of_id hid]
    | column c =>
      have hc : c ∈ t.columns := mem_of_source? hfound
      cases hname
      rw [read, hfound, read_of_mem hc]

-- What stands in an answer under the name of a column is not from the clock.
theorem Table.readColumn_shown {t : Table} (hid : t.idColumn = some pidColumn) {names : List String}
    {column : String} (hsense : senseOf column = .column) {now : Instant} {id : Int} {cells : Cells}
    {cell : Cell} (h : readColumn (names.map (t.shown now id cells)) column = .ok cell) :
    cell = t.read id cells column := by
  unfold readColumn at h
  split at h
  · rename_i found hlookup
    cases h
    obtain ⟨before, behind, hsplit, -⟩ := List.lookup_eq_some_iff.1 hlookup
    have hmem : (column, cell) ∈ names.map (t.shown now id cells) := by
      rw [hsplit]
      exact List.mem_append_right _ (List.mem_cons_self ..)
    obtain ⟨name, -, hentry⟩ := List.mem_map.1 hmem
    unfold shown at hentry
    split at hentry
    · rename_i hclock
      cases hentry
      rw [clockText?_of_column hsense] at hclock
      cases hclock
    · cases hentry
      exact read_of_resultName hid rfl id cells
  · cases h

theorem readInteger_eq_ok {row : Cells} {column : String} {n : Int} (h : readInteger row column = .ok n) :
    readColumn row column = .ok (.integer n) := by
  unfold readInteger at h
  split at h
  · cases h
  · rename_i hread
    cases h
    exact hread
  · cases h
  · cases h

theorem Layout.readVersion_eq_ok {l : Layout} {row : Cells} {v : Version} (h : l.readVersion row = .ok v) :
    ∃ pid start, readColumn row pidColumn = .ok (.integer pid) ∧
      readColumn row validFromColumn = .ok (.integer start) ∧
      v.pid = some pid ∧ v.validFrom = .ofMillis start := by
  unfold readVersion at h
  cases hrecord : readFields row l.persisted with
  | error fault =>
    rw [hrecord] at h
    cases h
  | ok record =>
    cases hpid : readInteger row pidColumn with
    | error fault =>
      rw [hrecord, hpid] at h
      cases h
    | ok pid =>
      cases hfrom : readInteger row validFromColumn with
      | error fault =>
        rw [hrecord, hpid, hfrom] at h
        cases h
      | ok start =>
        refine ⟨pid, start, readInteger_eq_ok hpid, readInteger_eq_ok hfrom, ?_⟩
        rw [hrecord, hpid, hfrom] at h
        cases hto : readOptionalTime row validToColumn with
        | error fault =>
          rw [hto] at h
          cases h
        | ok stop =>
          cases hmodified : readInteger row modifiedColumn with
          | error fault =>
            rw [hto, hmodified] at h
            cases h
          | ok modified =>
            rw [hto, hmodified] at h
            cases h
            exact ⟨rfl, rfl⟩

namespace Recorder

variable {l other : Layout} {db : Database} {t : Table}

/-- A version that a lookup finds has the number of a row and the beginning that stands in it. -/
theorem fetchBy_eq_some (htable : db.table? other.table = some t) (hdesign : t.toTableDesign = l.design)
    {column : String} {key : Value} {asOf : Instant} {v : Version}
    (h : fetchBy other column key asOf db = .ok (some v)) :
    ∃ pid cells start, t.rows.get? pid = some cells ∧ v.pid = some pid ∧
      cells.read validFromColumn = .integer start ∧ v.validFrom = .ofMillis start := by
  have hrow : ∃ row, validRows other column key asOf db = .ok [row] ∧ other.readVersion row = .ok v := by
    unfold fetchBy at h
    split at h
    · cases h
    · split at h
      · cases h
      · split at h
        · cases h
        · cases h
        · rename_i row hrows
          cases hread : other.readVersion row with
          | error fault =>
            rw [hread] at h
            cases h
          | ok found =>
            rw [hread] at h
            cases h
            exact ⟨row, hrows, hread⟩
        · cases h
  obtain ⟨row, hrows, hread⟩ := hrow
  obtain ⟨pid, start, hpid, hfrom, hnumber, hbegin⟩ := Layout.readVersion_eq_ok hread
  obtain ⟨now, hnow, e, he, rfl⟩ := Database.exists_row_of_select hrows (List.mem_singleton_self row)
  rw [htable, Option.some.injEq] at hnow
  subst hnow
  have hid := Table.idColumn_of_design hdesign
  have hcolumn := Table.mem_columns_of_design hdesign l.validFrom_mem
  have hpid' := Table.readColumn_shown hid Layout.sense_pid hpid
  rw [Table.read_of_id hid] at hpid'
  cases hpid'
  have hfrom' := Table.readColumn_shown hid Layout.sense_validFrom hfrom
  have hreads := Table.read_of_mem hcolumn e.1 e.2
  dsimp only at hreads hfrom'
  rw [hreads] at hfrom'
  exact ⟨e.1, e.2, start, SortedMap.mem_entries_iff.1 he, hnumber, hfrom'.symm, hbegin⟩

-- The row of a number takes the stamp from a version that is written over it, and the beginning too.
theorem writes_over (w : Recorder) (hnames : other.NamesApart) (hdesign : t.toTableDesign = l.design)
    (hfull : t.IsFull) {v : Version} {pid : Int} {count : Nat} {t' : Table}
    (hdesign' : t'.toTableDesign = t.toTableDesign)
    (hcount : count = (t.rows.entries.filter fun e => decide (e.1 = pid)).length)
    (hrows : t'.rows = t.rows.map fun id cells =>
      if decide (id = pid) then t.assign ((v.stored other w.time).cells other) cells else cells) :
    t.Writes w.time.toMillis (fun id => id = pid ∧ count ≠ 0 ∧
      ∃ cells, t.rows.get? id = some cells ∧ cells.read validFromColumn = .integer w.time.toMillis ∧
        v.validFrom.toMillis ≠ w.time.toMillis) t' := by
  let cell := (v.stored other w.time).cell
  have hmodified := Cells.assigned?_ofColumns hnames.distinct cell other.modified_mem
  have hfrom := Cells.assigned?_ofColumns hnames.distinct cell other.validFrom_mem
  apply Table.writes_update hdesign hfull hdesign' hrows hmodified
  intro id cells hget hid
  by_cases hstart : v.validFrom.toMillis = w.time.toMillis
  · refine .inr fun _ assigned hassigned => ?_
    have hcell : cell validFromColumn = .integer w.time.toMillis := by
      rw [← hstart]
      rfl
    dsimp only at hfrom
    rw [StoredVersion.cells, hfrom, hcell] at hassigned
    exact (Option.some.inj hassigned).symm
  · by_cases hbegan : cells.read validFromColumn = .integer w.time.toMillis
    · have hmem : (id, cells) ∈ t.rows.entries.filter fun e => decide (e.1 = pid) :=
        List.mem_filter.2 ⟨SortedMap.mem_entries_iff.2 hget, hid⟩
      refine .inl ⟨of_decide_eq_true hid, ?_, cells, hget, hbegan, hstart⟩
      rw [hcount]
      exact fun hzero => List.ne_nil_of_mem hmem (List.length_eq_zero_iff.1 hzero)
    · exact .inr fun h => absurd h hbegan

/-! ## Calls on the table -/

variable (w : Recorder) (htable : db.table? l.table = some t) (hdesign : t.toTableDesign = l.design)
  (hfull : t.IsFull) (hname : foldAscii other.table = foldAscii l.table)
include htable hdesign hfull hname

theorem writes_terminateAt (r : Record) (stop : Instant)
    (hlasts : db.Lasts (w.terminateAt other r stop db).1) :
    ∃ t', (w.terminateAt other r stop db).2.table? l.table = some t' ∧
      t.Writes w.time.toMillis (fun _ => False) t' := by
  have htable' : db.table? other.table = some t := by rwa [Database.table?, hname]
  unfold terminateAt at hlasts ⊢
  dsimp only at hlasts ⊢
  split
  · exact ⟨t, htable, .refl hfull⟩
  · rename_i hcell
    rw [hcell] at hlasts
    dsimp only at hlasts
    split
    · rename_i hupdate
      rw [hupdate] at hlasts
      exact ⟨t, (Database.table?_refused hlasts l.table).trans htable, .refl hfull⟩
    · rename_i count after hupdate
      obtain ⟨now, t', hnow, hrows, hafter⟩ := Database.update_eq_ok hupdate
      rw [htable', Option.some.injEq] at hnow
      subst hnow
      rw [Database.table?, hname] at hafter
      have hothers : t.concernsOthers [validToColumn, modifiedColumn] = false := by
        apply Table.concernsOthers_eq_false (Table.isPlain_of_design hdesign)
        intro name hmem
        rw [Table.columns_of_design hdesign]
        simp only [List.mem_cons, List.not_mem_nil, or_false] at hmem
        rcases hmem with rfl | rfl
        · exact List.mem_map_of_mem l.validTo_mem
        · exact List.mem_map_of_mem l.modified_mem
      obtain ⟨-, hchanged⟩ := Table.update_eq_ok hothers hrows
      refine ⟨t', hafter, Table.writes_update hdesign hfull (Table.toTableDesign_update hrows) hchanged ?_ ?_⟩
      · simp [Cells.assigned?, sameName_refl, Instant.cell]
      · -- the beginning is not among the assignments
        have hfrom : sameName modifiedColumn validFromColumn = false ∧
            sameName validToColumn validFromColumn = false := by decide +kernel
        intro pid cells _ _
        exact .inr fun _ cell hcell => by simp [Cells.assigned?, hfrom] at hcell

variable (hwrites : other.WritesColumns t)
include hwrites

theorem writes_insertRow (v : Version) (hlasts : db.Lasts (w.insertRow other v db).1) :
    ∃ t', (w.insertRow other v db).2.table? l.table = some t' ∧ t.Writes w.time.toMillis
      (fun pid => t.rows.get? pid = none ∧ v.validFrom.toMillis ≠ w.time.toMillis) t' := by
  have htable' : db.table? other.table = some t := by rwa [Database.table?, hname]
  unfold insertRow at hlasts ⊢
  cases hfault : other.fault? v.record with
  | some fault => exact ⟨t, htable, .refl hfull⟩
  | none =>
    have hconforms : other.conforms v.record = true := Option.isNone_iff_eq_none.2 hfault
    simp only [hfault, Version.cells_eq_ok hwrites.names hconforms] at hlasts ⊢
    cases hinsert : db.insert other.table ((v.stored other w.time).cells other) with
    | error fault =>
      rw [hinsert] at hlasts
      exact ⟨t, (Database.table?_refused hlasts l.table).trans htable, .refl hfull⟩
    | ok result =>
      obtain ⟨pid, after⟩ := result
      obtain ⟨now, t', hnow, hrow, hafter⟩ := Database.insert_eq_ok hinsert
      rw [htable', Option.some.injEq] at hnow
      subst hnow
      have hdistinct := hwrites.names.distinct
      let cell := (v.stored other w.time).cell
      have hfind {c : Column} (hc : c ∈ other.columns) :
          (((v.stored other w.time).cells other).find? fun e => sameName e.1 c.name) =
            some (c.name, cell c.name) := Cells.find?_ofColumns hdistinct hc
      have hmodified := hfind other.modified_mem
      have hfrom := hfind other.validFrom_mem
      refine ⟨t', ?_, Table.writes_insert hdesign hfull hrow hmodified ?_⟩
      · rwa [Database.table?, hname] at hafter
      · by_cases hstart : v.validFrom.toMillis = w.time.toMillis
        · have hcell : cell validFromColumn = .integer w.time.toMillis := by
            rw [← hstart]
            rfl
          dsimp only at hfrom
          rw [hcell] at hfrom
          exact .inr hfrom
        · exact .inl hstart

theorem writes_insertVersion (v : Version) (hlasts : db.Lasts (w.insertVersion other v db).1) :
    ∃ t', (w.insertVersion other v db).2.table? l.table = some t' ∧ t.Writes w.time.toMillis
      (fun pid => t.rows.get? pid = none ∧ v.validFrom.toMillis ≠ w.time.toMillis) t' := by
  rw [w.insertVersion_eq] at hlasts ⊢
  exact w.writes_insertRow htable hdesign hfull hname hwrites v (Database.lasts_of_told hlasts)

theorem writes_update (v : Version) : ∃ t', (w.update other v db).2.table? l.table = some t' ∧
    t.Writes w.time.toMillis (fun pid => v.pid = some pid ∧ (∃ new, (w.update other v db).1 = .ok new) ∧
      ∃ cells, t.rows.get? pid = some cells ∧ cells.read validFromColumn = .integer w.time.toMillis ∧
        v.validFrom.toMillis ≠ w.time.toMillis) t' := by
  have htable' : db.table? other.table = some t := by rwa [Database.table?, hname]
  have hlasts : db.Lasts (w.update other v db).1 := Database.lasts_of_ne (w.update_ne_full other v db)
  unfold update at hlasts ⊢
  cases hpid : v.pid with
  | none => exact ⟨t, htable, .refl hfull⟩
  | some pid =>
    cases hfault : other.fault? v.record with
    | some fault => exact ⟨t, htable, .refl hfull⟩
    | none =>
      have hconforms : other.conforms v.record = true := Option.isNone_iff_eq_none.2 hfault
      simp only [hpid, hfault, Version.cells_eq_ok hwrites.names hconforms] at hlasts ⊢
      cases hupdate : db.update other.table ((v.stored other w.time).cells other)
          [.equals pidColumn (.integer pid)] with
      | error fault =>
        rw [hupdate] at hlasts
        exact ⟨t, (Database.table?_refused hlasts l.table).trans htable, .refl hfull⟩
      | ok result =>
        obtain ⟨count, after⟩ := result
        obtain ⟨now, t', hnow, hrows, hafter⟩ := Database.update_eq_ok hupdate
        rw [htable', Option.some.injEq] at hnow
        subst hnow
        rw [Database.table?, hname] at hafter
        have hothers : t.concernsOthers (((v.stored other w.time).cells other).map (·.1)) = false := by
          rw [StoredVersion.names_cells]
          exact Table.concernsOthers_of_not_number (Table.isPlain_of_design hdesign) hwrites.notNumber
        obtain ⟨hcount, hchanged⟩ := Table.update_eq_ok hothers hrows
        -- the rows that are changed are the one with the number, if it is there
        have hsense : ∀ c ∈ [Condition.equals pidColumn (.integer pid)], senseOf c.column = .column := by
          intro c hc
          rw [List.mem_singleton.1 hc]
          exact Layout.sense_pid
        have htest : ∀ id row, Condition.allHoldAt db.clock t [.equals pidColumn (.integer pid)] id row =
            decide (id = pid) := by
          intro id row
          rw [Condition.allHoldAt_eq hsense, Condition.allHold, List.all_cons, List.all_nil, Bool.and_true,
            Table.holds_id (Table.idColumn_of_design hdesign)]
        simp only [htest] at hcount hchanged
        have hwritten := w.writes_over hwrites.names hdesign hfull (Table.toTableDesign_update hrows)
          hcount hchanged
        cases count with
        | zero => exact ⟨t', hafter, hwritten.mono fun id h => absurd rfl h.2.1⟩
        | succ n =>
          exact ⟨t', hafter, hwritten.mono fun id h => ⟨congrArg some h.1.symm, ⟨_, rfl⟩, h.2.2⟩⟩

-- What a reconciliation writes back begins as it was read.
theorem writes_reconcile (r : Record) (hlasts : db.Lasts (w.reconcile other r db).1) :
    ∃ t', (w.reconcile other r db).2.table? l.table = some t' ∧
      t.Writes w.time.toMillis (fun _ => False) t' := by
  have htable' : db.table? other.table = some t := by rwa [Database.table?, hname]
  have hadds : ∀ {db₁ : Database} {t₁ : Table}, db₁.table? l.table = some t₁ →
      t.Writes w.time.toMillis (fun _ => False) t₁ → ∀ tell, db₁.Lasts (w.add other r tell db₁).1 →
      ∃ t', (w.add other r tell db₁).2.table? l.table = some t' ∧
        t.Writes w.time.toMillis (fun _ => False) t' := by
    intro db₁ t₁ htable₁ hwritten tell hlasts
    obtain ⟨t', hafter, hadded⟩ := w.writes_insertRow htable₁ (hwritten.design.trans hdesign) hwritten.full
      hname (hwrites.congr hwritten.design) (w.openVersion r) (Database.lasts_of_told hlasts)
    exact ⟨t', hafter, hwritten.trans (hadded.mono fun _ h => h.2 rfl)⟩
  rw [w.reconcile_eq] at hlasts ⊢
  cases hfetch : w.fetchCurrent other (r.valueOrNull other.key) db with
  | error fault => exact ⟨t, htable, .refl hfull⟩
  | ok found =>
    rw [hfetch] at hlasts
    cases found with
    | none => exact hadds htable (.refl hfull) .inserted hlasts
    | some existing =>
      obtain ⟨pid, cells, start, hrow, hpid, hfrom, hbegin⟩ := fetchBy_eq_some htable' hdesign hfetch
      unfold settle at hlasts ⊢
      dsimp only at hlasts ⊢
      simp only [hpid] at hlasts ⊢
      by_cases hsame : other.samePersisted existing.record r = true
      · rw [if_pos hsame]
        exact ⟨t, htable, .refl hfull⟩
      · rw [if_neg hsame] at hlasts ⊢
        obtain ⟨t', hafter, hclosed⟩ := w.writes_update htable hdesign hfull hname hwrites
          { existing with validTo := some w.time }
        have hclosed' : t.Writes w.time.toMillis (fun _ => False) t' := by
          apply hclosed.mono
          rintro id ⟨hid, -, now, hnow, hbegan, hother⟩
          apply hother
          rw [hpid, Option.some.injEq] at hid
          rw [← hid, hrow, Option.some.injEq] at hnow
          rw [← hnow, hfrom, Cell.integer.injEq] at hbegan
          show existing.validFrom.toMillis = _
          have hstart : Instant.ofMillis w.time.toMillis = w.time := w.time_truncated
          rw [hbegin, hbegan, hstart]
        have hbegun := w.begun_update other { existing with validTo := some w.time } db
        rw [hpid] at hafter hbegun
        generalize w.update other _ db = closing at hafter hbegun hlasts ⊢
        obtain ⟨answer, after⟩ := closing
        cases answer with
        | error fault => exact ⟨t', hafter, hclosed'⟩
        | ok closed =>
          exact hadds hafter hclosed' (.replaced pid) fun hfull => hbegun.trans (hlasts hfull)

end Recorder

end Registry
