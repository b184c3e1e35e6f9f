import Registry.Database.Basic

/-!
# Besides — databases that agree besides one table

A statement reads and changes one table.  Of the others it needs to know how they are designed, and
no statement on rows changes a design.  So statements on other tables answer the same in databases
that agree besides one table, and leave databases that agree besides it.
-/

namespace Registry

open Registry.Text

/-! ## Designs of tables -/

namespace Table

variable {t t' : Table}

theorem toTableDesign_insert {values : Cells} {id : Int} (h : t.insert values = .ok (id, t')) :
    t'.toTableDesign = t.toTableDesign := by
  unfold insert at h
  dsimp only at h
  split at h
  · cases h
  split at h
  · cases h
  · cases h
  · cases h
    rfl

theorem toTableDesign_setAll {names : List String} {values : Int → Cells → List Cell}
    {rows : List (Int × Cells)} (h : t.setAll names values rows = .ok t') :
    t'.toTableDesign = t.toTableDesign := by
  induction rows generalizing t with
  | nil =>
    cases h
    rfl
  | cons row rest ih =>
    obtain ⟨id, cells⟩ := row
    rw [setAll] at h
    dsimp only at h
    split at h
    · cases h
    split at h
    · cases h
    · cases h
    · rw [ih h]

theorem toTableDesign_update {names : List String} {values : Int → Cells → List Cell}
    {test : Int → Cells → Bool} {count : Nat} (h : t.update names values test = .ok (count, t')) :
    t'.toTableDesign = t.toTableDesign := by
  unfold update at h
  dsimp only at h
  split at h
  · cases hset : t.setAll names values (t.rows.entries.filter fun e => test e.1 e.2) with
    | error fault =>
      rw [hset] at h
      cases h
    | ok changed =>
      rw [hset] at h
      cases h
      exact toTableDesign_setAll hset
  · split at h
    · cases h
    · cases h
      rfl

/-! ## No room -/

-- Only a new row can find that there is no number left.
theorem missingValue?_ne_full (t : Table) (cells : Cells) : t.missingValue? cells ≠ some .full := by
  rw [missingValue?]
  intro h
  obtain ⟨c, -, hfault⟩ := Option.map_eq_some_iff.1 h
  cases hfault

theorem repeated?_ne_full (t : Table) (id : Int) (cells : Cells) : t.repeated? id cells ≠ some .full := by
  unfold repeated?
  split
  · split <;> exact fun h => by cases h
  · intro h
    obtain ⟨c, -, hfault⟩ := Option.map_eq_some_iff.1 h
    cases hfault

theorem assignId_ne_full (t : Table) (assignments : Cells) (id : Int) :
    t.assignId assignments id ≠ .error .full := by
  unfold assignId
  split
  · unfold number?
    split <;> exact fun h => by cases h
  · exact fun h => by cases h

theorem setAll_ne_full (t : Table) (names : List String) (values : Int → Cells → List Cell)
    (rows : List (Int × Cells)) : t.setAll names values rows ≠ .error .full := by
  induction rows generalizing t with
  | nil => exact fun h => by cases h
  | cons row rest ih =>
    obtain ⟨id, cells⟩ := row
    rw [setAll]
    dsimp only
    split
    · rename_i hassign
      intro h
      cases h
      exact t.assignId_ne_full _ id hassign
    split
    · rename_i hmissing
      intro h
      cases h
      exact missingValue?_ne_full _ _ hmissing
    · rename_i hrepeated
      intro h
      cases h
      exact repeated?_ne_full _ _ _ hrepeated
    · exact ih _

theorem update_ne_full (t : Table) (names : List String) (values : Int → Cells → List Cell)
    (test : Int → Cells → Bool) : t.update names values test ≠ .error .full := by
  unfold update
  dsimp only
  split
  · intro h
    cases hset : t.setAll names values (t.rows.entries.filter fun e => test e.1 e.2) with
    | error fault =>
      rw [hset] at h
      cases h
      exact t.setAll_ne_full _ _ _ hset
    | ok changed =>
      rw [hset] at h
      cases h
  · split
    · rename_i hmissing
      intro h
      cases h
      obtain ⟨e, -, hfault⟩ := List.exists_of_findSome?_eq_some hmissing
      exact t.missingValue?_ne_full _ hfault
    · exact fun h => by cases h

theorem keyName?_congr (h : t'.toTableDesign = t.toTableDesign) (name : String) :
    t'.keyName? name = t.keyName? name := by
  unfold keyName? isId column?
  rw [h]

end Table

namespace Database

/-! ## Agreement -/

/-- Two databases have the same clock and the same tables besides the one of a name, and this one has
the same design in both or is missing in both. -/
structure SameBesides (name : String) (a b : Database) : Prop where
  others : ∀ key, key ≠ foldAscii name → a.tables.get? key = b.tables.get? key
  design : (a.tables.get? (foldAscii name)).map Table.toTableDesign =
    (b.tables.get? (foldAscii name)).map Table.toTableDesign
  clock : a.clock = b.clock

namespace SameBesides

variable {name other : String} {a b c : Database}

theorem refl (name : String) (a : Database) : SameBesides name a a := ⟨fun _ _ => rfl, rfl, rfl⟩

theorem symm (h : SameBesides name a b) : SameBesides name b a :=
  ⟨fun key hkey => (h.others key hkey).symm, h.design.symm, h.clock.symm⟩

theorem trans (hab : SameBesides name a b) (hbc : SameBesides name b c) : SameBesides name a c :=
  ⟨fun key hkey => (hab.others key hkey).trans (hbc.others key hkey), hab.design.trans hbc.design,
    hab.clock.trans hbc.clock⟩

theorem of_tables (h : a.tables = b.tables) (hclock : a.clock = b.clock) : SameBesides name a b :=
  ⟨fun _ _ => by rw [h], by rw [h], hclock⟩

theorem table?_eq (h : SameBesides name a b) (hother : foldAscii other ≠ foldAscii name) :
    a.table? other = b.table? other := h.others _ hother

theorem find_eq (h : SameBesides name a b) (hother : foldAscii other ≠ foldAscii name) :
    a.find other = b.find other := by
  unfold find
  rw [h.table?_eq hother]

theorem designs (h : SameBesides name a b) (key : String) :
    (a.tables.get? key).map Table.toTableDesign = (b.tables.get? key).map Table.toTableDesign := by
  by_cases hkey : key = foldAscii name
  · rw [hkey, h.design]
  · rw [h.others key hkey]

theorem put_self {t t' : Table} (htable : a.table? name = some t)
    (hdesign : t'.toTableDesign = t.toTableDesign) : SameBesides name a (a.put name t') := by
  refine ⟨?_, ?_, rfl⟩
  · intro key hkey
    rw [put, SortedMap.get?_insert, if_neg (Ne.symm hkey)]
  · rw [put, SortedMap.get?_insert, if_pos rfl]
    show (a.table? name).map _ = _
    rw [htable, Option.map_some, Option.map_some, hdesign]

theorem put_both (h : SameBesides name a b) (hother : foldAscii other ≠ foldAscii name) (t : Table) :
    SameBesides name (a.put other t) (b.put other t) := by
  refine ⟨?_, ?_, h.clock⟩
  · intro key hkey
    rw [put, put, SortedMap.get?_insert, SortedMap.get?_insert, h.others key hkey]
  · rw [put, put, SortedMap.get?_insert, SortedMap.get?_insert, if_neg hother, if_neg hother, h.design]

/-! ## What statements ask of other tables -/

theorem any_keepsCount_of (h : ∀ key, (a.tables.get? key).map Table.toTableDesign =
      (b.tables.get? key).map Table.toTableDesign)
    (hany : a.tables.entries.any (·.2.keepsCount) = true) :
    b.tables.entries.any (·.2.keepsCount) = true := by
  rw [List.any_eq_true] at hany ⊢
  obtain ⟨⟨key, t⟩, hmem, hcount⟩ := hany
  -- whether a table keeps count is part of its design
  have hdesign := h key
  rw [SortedMap.mem_entries_iff.1 hmem, Option.map_some] at hdesign
  obtain ⟨t', ht', heq⟩ := Option.map_eq_some_iff.1 hdesign.symm
  refine ⟨(key, t'), SortedMap.mem_entries_iff.2 ht', ?_⟩
  show t'.toTableDesign.keepsCount = true
  rw [heq]
  exact hcount

theorem absence_eq (h : SameBesides name a b) (changes : Bool) (names : List String)
    (lacking : String → DatabaseFault) :
    a.absence other changes names lacking = b.absence other changes names lacking := by
  have hcount : a.tables.entries.any (·.2.keepsCount) = b.tables.entries.any (·.2.keepsCount) := by
    rw [Bool.eq_iff_iff]
    exact ⟨any_keepsCount_of h.designs, any_keepsCount_of h.symm.designs⟩
  unfold absence ownTable?
  rw [hcount]

theorem parentFault?_eq (h : SameBesides name a b) (t : Table) :
    a.parentFault? t = b.parentFault? t := by
  unfold parentFault?
  congr 1
  funext p
  -- of the parent only the names of its columns count, which its design tells
  have hdesign := h.designs (foldAscii p.table)
  rw [table?, table?]
  cases ha : a.tables.get? (foldAscii p.table) with
  | none =>
    rw [ha, Option.map_none, eq_comm, Option.map_eq_none_iff] at hdesign
    rw [hdesign]
  | some parent =>
    rw [ha, Option.map_some, eq_comm] at hdesign
    obtain ⟨parent', hb, heq⟩ := Option.map_eq_some_iff.1 hdesign
    rw [hb]
    dsimp only
    rw [Table.keyName?_congr heq]

/-! ## Statements on another table -/

theorem select_eq (h : SameBesides name a b) (hother : foldAscii other ≠ foldAscii name)
    (names : List String) (conditions : List Condition) :
    a.select other names conditions = b.select other names conditions := by
  unfold select
  dsimp only
  rw [h.find_eq hother, h.absence_eq, h.clock]

-- A row added to another table is refused in both databases, or added to both.
theorem insert_same (h : SameBesides name a b) (hother : foldAscii other ≠ foldAscii name)
    (values : Cells) :
    (∃ fault, a.insert other values = .error fault ∧ b.insert other values = .error fault) ∨
    ∃ id a' b', a.insert other values = .ok (id, a') ∧ b.insert other values = .ok (id, b') ∧
      SameBesides name a' b' := by
  unfold insert
  rw [h.find_eq hother, h.absence_eq]
  cases b.find other with
  | error fault => exact .inl ⟨_, rfl, rfl⟩
  | ok t =>
    dsimp only
    rw [h.parentFault?_eq]
    generalize t.lacking? (List.map (fun e : String × Cell => e.1) values) = lacking
    cases lacking with
    | some column => exact .inl ⟨_, rfl, rfl⟩
    | none =>
      cases b.parentFault? t with
      | some fault => exact .inl ⟨_, rfl, rfl⟩
      | none =>
        dsimp only
        rcases t.insert values with fault | ⟨id, t'⟩
        · exact .inl ⟨_, rfl, rfl⟩
        · have hput := h.put_both hother t'
          exact .inr ⟨_, _, _, rfl, rfl, hput.others, hput.design, hput.clock⟩

-- Assignments in another table are refused in both databases, or made in both.
theorem update_same (h : SameBesides name a b) (hother : foldAscii other ≠ foldAscii name)
    (assignments : Cells) (conditions : List Condition) :
    (∃ fault, a.update other assignments conditions = .error fault ∧
      b.update other assignments conditions = .error fault) ∨
    ∃ count a' b', a.update other assignments conditions = .ok (count, a') ∧
      b.update other assignments conditions = .ok (count, b') ∧ SameBesides name a' b' := by
  unfold update
  rw [h.find_eq hother, h.absence_eq, h.clock]
  cases phraseFault? (asked conditions) with
  | some fault => exact .inl ⟨_, rfl, rfl⟩
  | none =>
    cases b.find other with
    | error fault => exact .inl ⟨_, rfl, rfl⟩
    | ok t =>
      dsimp only
      generalize t.lacking? (List.map (fun e : String × Cell => e.1) assignments) = lacking
      cases lacking with
      | some column => exact .inl ⟨_, rfl, rfl⟩
      | none =>
        cases t.unknown? (conditions.map Condition.column) with
        | some column => exact .inl ⟨_, rfl, rfl⟩
        | none =>
          dsimp only
          generalize t.update _ _ _ = updated
          rcases updated with fault | ⟨count, t'⟩
          · exact .inl ⟨_, rfl, rfl⟩
          · have hput := h.put_both hother t'
            exact .inr ⟨_, _, _, rfl, rfl, hput.others, hput.design, hput.clock⟩

end SameBesides

/-! ## No room in a database -/

theorem phraseFault?_ne_full (tokens : List (String × String)) : phraseFault? tokens ≠ some .full := by
  intro h
  obtain ⟨e, -, hfault⟩ := Option.map_eq_some_iff.1 h
  cases hfault

theorem absence_ne_full (db : Database) (name : String) (changes : Bool) (names : List String) :
    db.absence name changes names .noColumn ≠ .full := by
  unfold absence
  split
  · exact fun h => by cases h
  split
  · exact fun h => by cases h
  rename_i own _ _
  cases names.find? fun n => !(own.columns ++ Table.numberNames).any (sameName n) <;>
    exact fun h => by cases h

theorem select_ne_full (db : Database) (name : String) (names : List String)
    (conditions : List Condition) : db.select name names conditions ≠ .error .full := by
  unfold select
  dsimp only
  intro h
  split at h
  · rename_i hphrase
    cases h
    exact phraseFault?_ne_full _ hphrase
  · exact db.absence_ne_full name _ _ (Except.error.inj h)
  · split at h <;> cases h

theorem update_ne_full (db : Database) (name : String) (assignments : Cells)
    (conditions : List Condition) : db.update name assignments conditions ≠ .error .full := by
  unfold update
  intro h
  split at h
  · rename_i hphrase
    cases h
    exact phraseFault?_ne_full _ hphrase
  · exact db.absence_ne_full name _ _ (Except.error.inj h)
  · split at h
    · cases h
    · cases h
    · split at h
      · rename_i hupdate
        cases h
        exact Table.update_ne_full _ _ _ _ hupdate
      · cases h

/-! ## Statements on the table itself -/

variable {db db' : Database} {name : String}

theorem sameBesides_insert {values : Cells} {id : Int} (h : db.insert name values = .ok (id, db')) :
    SameBesides name db db' := by
  unfold insert at h
  split at h
  · cases h
  rename_i t hfind
  split at h
  · cases h
  · cases h
  split at h
  · cases h
  rename_i t' hinsert
  cases h
  have hput := SameBesides.put_self (find_eq_ok_iff.1 hfind) (Table.toTableDesign_insert hinsert)
  exact ⟨hput.others, hput.design, hput.clock⟩

theorem sameBesides_update {assignments : Cells} {conditions : List Condition} {count : Nat}
    (h : db.update name assignments conditions = .ok (count, db')) : SameBesides name db db' := by
  unfold update at h
  split at h
  · cases h
  · cases h
  rename_i t _ hfind
  split at h
  · cases h
  · cases h
  split at h
  · cases h
  rename_i t' hupdate
  cases h
  have hput := SameBesides.put_self (find_eq_ok_iff.1 hfind) (Table.toTableDesign_update hupdate)
  exact ⟨hput.others, hput.design, hput.clock⟩

end Database

end Registry
