import Registry.Proofs.History.RoundTrip

/-!
# Agreement — what a layout accepts is what its table accepts

Four places speak of the fields of a layout: the columns of its table, the check of a record, the cells
of a version and the rules of the columns.  They agree.  The schema makes a table for every layout whose
columns have names of their own, and a version is added to such a table just when its record conforms;
no rule of a column, no kind of a cell and no name of a column ever stands against a record that
conforms.
-/

namespace Registry

open Registry.Text

/-! ## Tables of layouts -/

theorem firstRepeated?_eq_none {names earlier : List String} (hnodup : (names.map foldAscii).Nodup)
    (hnew : ∀ name ∈ names, foldAscii name ∉ earlier) : firstRepeated? earlier names = none := by
  induction names generalizing earlier with
  | nil => rfl
  | cons name rest ih =>
    rw [List.map_cons, List.nodup_cons] at hnodup
    have hfirst : earlier.contains (foldAscii name) = false := by
      simpa using hnew name (List.mem_cons_self ..)
    rw [firstRepeated?, hfirst, if_neg Bool.false_ne_true]
    apply ih hnodup.2
    intro other hother hmem
    rcases List.mem_append.1 hmem with hmem | hmem
    · exact hnew other (List.mem_cons_of_mem _ hother) hmem
    · exact hnodup.1 (List.mem_singleton.1 hmem ▸ List.mem_map_of_mem hother)

theorem Table.exists_create? {d : TableDesign} (h : (d.names.map foldAscii).Nodup) :
    ∃ t, Table.create? d = .ok t := by
  have hnone : firstRepeated? [] d.names = none := firstRepeated?_eq_none h (by simp)
  unfold create?
  split
  · rename_i repeated hrepeated
    rw [hnone] at hrepeated
    cases hrepeated
  · exact ⟨_, rfl⟩

namespace Layout

variable {l : Layout}

theorem toList_indexName (l : Layout) :
    l.indexName.toList = 'i' :: 'd' :: 'x' :: '_' :: (l.table.toList ++ '_' :: l.key.toList) := by
  simp [indexName, toString]

-- The name of the index is neither reserved nor that of the table.
theorem isReserved_indexName (l : Layout) : Database.isReserved l.indexName = false := by
  rw [Database.isReserved, String.startsWith_string_eq_false_iff, foldAscii, String.toList_ofList,
    toList_indexName]
  intro hprefix
  have hfirst := hprefix.head (by decide)
  revert hfirst
  simp [Database.ownMark]

theorem foldAscii_indexName_ne (l : Layout) : foldAscii l.table ≠ foldAscii l.indexName := by
  intro heq
  have hlength := congrArg (fun s => s.toList.length) heq
  simp only [foldAscii, String.toList_ofList, List.length_map, toList_indexName, List.length_cons,
    List.length_append] at hlength
  omega

/-- The names of the table and of its index are free in the database, and the key is no word that an index
takes for something else than a column. -/
structure NamesFree (l : Layout) (db : Database) : Prop where
  notReserved : Database.isReserved l.table = false
  tableFree : db.table? l.table = none
  tableNoIndex : db.indexes.contains (foldAscii l.table) = false
  indexFree : db.table? l.indexName = none
  keyIndexed : senseOf l.key = .column

theorem sense_indexed (hsense : senseOf l.key = .column) :
    ∀ name ∈ [l.key, validFromColumn], senseOf name = .column := by
  intro name hname
  simp only [List.mem_cons, List.not_mem_nil, or_false] at hname
  rcases hname with rfl | rfl
  · exact hsense
  · exact sense_validFrom

-- The columns of the index are columns of the table.
theorem indexFault?_eq_none {t : Table} (hdesign : t.toTableDesign = l.design)
    (hsense : senseOf l.key = .column) : t.indexFault? [l.key, validFromColumn] = none := by
  have hcolumn : ∀ name ∈ l.columnNames, (t.column? name).isNone = false := by
    intro name hname
    obtain ⟨c, hc, rfl⟩ := List.mem_map.1 hname
    rw [Table.column?, t.distinct.find? (Table.mem_columns_of_design hdesign hc)]
    rfl
  rw [Table.indexFault?, List.findSome?_eq_none_iff]
  intro name hname
  have hmem : name ∈ l.columnNames := by
    simp only [List.mem_cons, List.not_mem_nil, or_false] at hname
    rcases hname with rfl | rfl
    · exact l.key_mem_columnNames
    · exact List.mem_map_of_mem l.validFrom_mem
  simp [sense_indexed hsense name hname, hcolumn name hmem]

/-- The schema makes the table of every layout whose columns have names of their own, where the names
are free. -/
theorem created_of_namesApart {db : Database} (hnames : l.NamesApart) (hfree : l.NamesFree db) :
    l.Created (l.createTable db).2 := by
  apply created_of_isOk hfree.tableFree
  obtain ⟨t, ht⟩ := Table.exists_create? hnames
  have hcreate : db.createTable true l.design = .ok (db.put l.table t) := by
    have hname : l.design.name = l.table := rfl
    rw [Database.createTable, hname, hfree.notReserved, hfree.tableFree, hfree.tableNoIndex, ht]
    rfl
  have hindexed : ∃ after, (db.put l.table t).createIndex true l.indexName l.table
      [l.key, validFromColumn] = .ok after := by
    have hother : (db.put l.table t).table? l.indexName = none := by
      rw [Database.table?_put, if_neg (foldAscii_indexName_ne l), hfree.indexFree]
    have hphrase : phraseFault? (listed ")" [l.key, validFromColumn]) = none :=
      phraseFault?_eq_none fun e he => sense_indexed hfree.keyIndexed _ (mem_listed he)
    rw [Database.createIndex, Database.table?_put_self]
    simp only [hphrase, isReserved_indexName, hother,
      indexFault?_eq_none (Table.create?_eq_ok ht).1 hfree.keyIndexed,
      Option.isSome_none, Bool.false_eq_true, if_false, if_true]
    split
    · exact ⟨_, rfl⟩
    · exact ⟨_, rfl⟩
  obtain ⟨after, hafter⟩ := hindexed
  unfold createTable
  rw [show ({ name := l.table, idColumn := some pidColumn, columns := l.columns } : TableDesign) =
    l.design from rfl, hcreate]
  simp only [hafter]
  rfl

end Layout

/-! ## Versions in tables of layouts -/

/-- The second database has another row behind those of the table of a name, under a number, and is the
same besides. -/
def Database.GainsRow (name : String) (pid : Int) (before after : Database) : Prop :=
  SameBesides name before after ∧ ∃ t t' cells, before.table? name = some t ∧
    after.table? name = some t' ∧ t'.rows.entries = t.rows.entries ++ [(pid, cells)]

section

variable {l : Layout} {db : Database} (w : Recorder) {v : Version}

-- A version whose record conforms meets no rule of the table.
theorem Recorder.insertVersion_of_conforms (htable : l.HasTable db) (hroom : l.HasRoom db)
    (hconforms : l.conforms v.record = true) :
    ∃ pid after, w.insertVersion l v db =
        (.ok { v with pid := some pid, modified := some w.time }, after) ∧
      Database.GainsRow l.table pid db after := by
  obtain ⟨t, ht, hdesign⟩ := htable.exists_table
  obtain ⟨now, hnow, hinteger⟩ := hroom
  rw [ht, Option.some.injEq] at hnow
  rw [← hnow] at hinteger
  have hinsert := insertRow_of_table ht hdesign w hconforms
  rw [if_pos hinteger] at hinsert
  have hput : Database.SameBesides l.table db (db.put l.table (t.appending ((v.stored l w.time).cells l))) :=
    .put_self ht rfl
  refine ⟨t.nextId, { db.put l.table (t.appending ((v.stored l w.time).cells l)) with changed := 1 }, ?_,
    ⟨hput.others, hput.design, hput.clock⟩, t, _, _, ht, Database.table?_put_self db l.table _,
    t.entries_appending _⟩
  rw [insertVersion, hinsert]

-- A version whose record does not conform is refused for the fault of the record.
theorem Recorder.insertVersion_of_fault {fault : RecordFault} (h : l.fault? v.record = some fault)
    (db : Database) : w.insertVersion l v db = (.error (.record fault), db) := by
  rw [insertVersion, insertRow, h]

end

/-- A layout and its table agree.  The schema makes the table of every layout whose columns have names
of their own, where the names are free.  In the table, with whatever rows and a number left, a version
is added just when its record conforms; then the table has one more row and nothing else is changed.  A
version whose record does not conform is refused for what the check finds, and changes nothing. -/
theorem insertVersion_iff_conforms (l : Layout) :
    (∀ db, l.NamesApart → l.NamesFree db →
      l.Created (l.createTable db).2 ∧ l.HasRoom (l.createTable db).2) ∧
    ∀ db, l.HasTable db → l.HasRoom db → ∀ (w : Recorder) (v : Version),
      ((∃ new after, w.insertVersion l v db = (.ok new, after)) ↔ l.conforms v.record = true) ∧
      (∀ new after, w.insertVersion l v db = (.ok new, after) →
        ∃ pid, new = { v with pid := some pid, modified := some w.time } ∧
          Database.GainsRow l.table pid db after) ∧
      (¬ l.conforms v.record = true → ∃ fault, l.fault? v.record = some fault ∧
        w.insertVersion l v db = (.error (.record fault), db)) := by
  constructor
  · intro db hnames hfree
    have hcreated := Layout.created_of_namesApart hnames hfree
    exact ⟨hcreated, hcreated.hasRoom⟩
  · intro db htable hroom w v
    by_cases hconforms : l.conforms v.record = true
    · obtain ⟨pid, after, hrun, hgains⟩ := w.insertVersion_of_conforms htable hroom hconforms
      refine ⟨⟨fun _ => hconforms, fun _ => ⟨_, _, hrun⟩⟩, fun new after' hok => ?_,
        fun hnot => absurd hconforms hnot⟩
      rw [hrun] at hok
      cases hok
      exact ⟨pid, rfl, hgains⟩
    · obtain ⟨fault, hfault⟩ : ∃ fault, l.fault? v.record = some fault :=
        Option.ne_none_iff_exists'.1 fun hnone => hconforms (Option.isNone_iff_eq_none.2 hnone)
      have hrun := w.insertVersion_of_fault hfault db
      refine ⟨⟨fun ⟨new, after, hok⟩ => ?_, fun h => absurd h hconforms⟩, fun new after hok => ?_,
        fun _ => ⟨fault, hfault, hrun⟩⟩
      · rw [hrun] at hok
        cases hok
      · rw [hrun] at hok
        cases hok

theorem insertVersion_iff_conforms_reading :
    readingLayout.Created (readingLayout.createTable .empty).2 ∧
      (∃ new after, (Recorder.pinnedAt .epoch).insertVersion readingLayout earlyReading
        (readingLayout.createTable .empty).2 = (.ok new, after)) ∧
      ∃ fault, (Recorder.pinnedAt .epoch).insertVersion readingLayout
          { earlyReading with record := .ofList [("count", .text "7")] }
          (readingLayout.createTable .empty).2 =
        (.error (.record fault), (readingLayout.createTable .empty).2) := by
  obtain ⟨hcreated, hagrees⟩ := insertVersion_iff_conforms readingLayout
  have hnames : readingLayout.NamesApart := by
    unfold Layout.NamesApart
    decide +kernel
  have hfree : readingLayout.NamesFree .empty :=
    ⟨by decide +kernel, rfl, rfl, rfl, readingLayout_plain.key⟩
  obtain ⟨htable, hroom⟩ := hcreated .empty hnames hfree
  refine ⟨htable, ?_, ?_⟩
  · exact (hagrees _ htable.hasTable hroom (.pinnedAt .epoch) earlyReading).1.2 (by decide +kernel)
  · obtain ⟨fault, -, hrun⟩ := (hagrees _ htable.hasTable hroom (.pinnedAt .epoch)
      { earlyReading with record := .ofList [("count", .text "7")] }).2.2 (by decide +kernel)
    exact ⟨fault, hrun⟩

end Registry
