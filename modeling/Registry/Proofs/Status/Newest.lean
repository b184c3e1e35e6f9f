import Registry.Proofs.Database.Appending
import Registry.Status.Ledger

/-!
# Newest — the newest attempt in the table of a ledger

A new attempt is one more row behind the others.  The newest attempt is the one whose row starts no
earlier than those before it and after those behind it.  To end the newest attempt is to write into this
row and to leave the others alone.
-/

namespace Registry

open Registry.Text

namespace Ledger

variable {g : Ledger} {db db' : Database} {t : Table}

/-- The table of the ledger, as it is made. -/
def design (g : Ledger) : TableDesign := { name := g.table, idColumn := some idColumn, columns }

/-- The row of an attempt: when it started and, once it is over, when it ended and how. -/
def row (start : Int) (ending : Option (Int × Outcome)) : Cells :=
  [(startColumn, .integer start), (stopColumn, Cell.ofOption (fun e => .integer e.1) ending),
    (outcomeColumn, Cell.ofOption (fun e => .text e.2.word) ending)]

/-! ## The table -/

theorem columns_of_design (ht : t.toTableDesign = g.design) : t.columns = columns :=
  congrArg TableDesign.columns ht

theorem idColumn_of_design (ht : t.toTableDesign = g.design) : t.idColumn = some idColumn :=
  congrArg TableDesign.idColumn ht

theorem isPlain_of_design (ht : t.toTableDesign = g.design) : ∀ c ∈ t.columns, c.IsPlain := by
  rw [columns_of_design ht]
  intro c hc
  simp only [columns, List.mem_cons, List.not_mem_nil, or_false] at hc
  rcases hc with rfl | rfl | rfl <;> exact ⟨rfl, rfl⟩

theorem read_row (start : Int) (ending : Option (Int × Outcome)) :
    (row start ending).read startColumn = .integer start := by
  rw [row, Cells.read_cons, if_pos (sameName_refl _)]

theorem missingValue?_row (ht : t.toTableDesign = g.design) (start : Int)
    (ending : Option (Int × Outcome)) : t.missingValue? (row start ending) = none := by
  rw [Table.missingValue?, columns_of_design ht]
  simp [columns, read_row, Cell.isNull]

/-! ## A new attempt -/

-- A new attempt is behind the others, and not over; it is refused when all numbers have been given.
theorem begin_eq (htable : db.table? g.table = some t) (ht : t.toTableDesign = g.design)
    (start : Instant) :
    g.begin start db =
      if Cell.isInteger t.nextId then
        .ok { db.put g.table (t.appending (row start.toMillis none)) with changed := 1 }
      else .error (.database .full) := by
  have hcolumns := columns_of_design ht
  have hnames : ∀ name ∈ [(startColumn, Cell.integer start.toMillis)].map (·.1),
      name ∈ t.columns.map Column.name := by
    rw [hcolumns]
    simp [columns]
  have hcells : (t.columns.map fun c =>
      (c.name, Table.newCell [(startColumn, .integer start.toMillis)] c)) =
        row start.toMillis none := by
    rw [hcolumns]
    simp only [columns, List.map_cons, List.map_nil, Table.newCell, List.find?_cons, List.find?_nil]
    rfl
  unfold begin
  rw [Database.insert_eq htable (isPlain_of_design ht) hnames hcells (missingValue?_row ht _ _)]
  cases Cell.isInteger t.nextId <;> rfl

theorem begin_spec (htable : db.table? g.table = some t) (ht : t.toTableDesign = g.design)
    {start : Instant} {begun : Database} (h : g.begin start db = .ok begun) :
    begun.table? g.table = some (t.appending (row start.toMillis none)) := by
  rw [begin_eq htable ht] at h
  split at h
  · cases h
    exact Database.table?_put_self _ _ _
  · cases h

/-! ## The newest attempt -/

theorem foldl_later_mem (best : Cells) (rows : List Cells) : rows.foldl later best ∈ best :: rows := by
  induction rows generalizing best with
  | nil => exact List.mem_singleton_self best
  | cons row rest ih =>
    have hmem := ih (later best row)
    unfold later at hmem ⊢
    rcases List.mem_cons.1 hmem with hbest | hrest
    · rw [List.foldl_cons, hbest]
      split <;> simp
    · exact List.mem_cons_of_mem _ (List.mem_cons_of_mem _ hrest)

theorem foldl_later_eq_self {best : Cells} {rows : List Cells}
    (hstarts : ∀ row ∈ rows, (best.read startColumn).atMost (row.read startColumn) = false) :
    rows.foldl later best = best := by
  induction rows with
  | nil => rfl
  | cons row rest ih =>
    rw [List.foldl_cons, later, hstarts row (List.mem_cons_self ..), if_neg Bool.false_ne_true]
    exact ih fun other hother => hstarts other (List.mem_cons_of_mem _ hother)

-- A row is the newest that starts no earlier than those before it, and after those behind it.
theorem newest?_split {front back : List Cells} {row : Cells}
    (hfront : ∀ other ∈ front, (other.read startColumn).atMost (row.read startColumn) = true)
    (hback : ∀ other ∈ back, (row.read startColumn).atMost (other.read startColumn) = false) :
    newest? (front ++ row :: back) = some row := by
  cases front with
  | nil =>
    show some (back.foldl later row) = some row
    rw [foldl_later_eq_self hback]
  | cons first rest =>
    have hbest := hfront _ (foldl_later_mem first rest)
    show some ((rest ++ row :: back).foldl later first) = some row
    rw [List.foldl_append, List.foldl_cons, later, if_pos hbest, foldl_later_eq_self hback]

/-! ## Telling the attempts -/

/-- What a table of attempts has under the name of one of its columns. -/
def cellOf (e : Int × Cells) (name : String) : Cell :=
  if name = idColumn then .integer e.1 else e.2.read name

/-- A row of the table as it is told, under some names of its columns. -/
def told (names : List String) (e : Int × Cells) : Cells := names.map fun name => (name, cellOf e name)

-- The names under which a row can be told.
def shown : List String := [idColumn, startColumn, stopColumn, outcomeColumn]

theorem read_told {names : List String} (hnames : ∀ name ∈ names, name ∈ shown) {name : String}
    (hname : name ∈ names) (e : Int × Cells) : (told names e).read name = cellOf e name := by
  have hapart : ∀ a ∈ shown, ∀ b ∈ shown, sameName a b = decide (a = b) := by decide
  induction names with
  | nil => cases hname
  | cons first rest ih =>
    show Cells.read ((first, cellOf e first) :: told rest e) name = _
    rw [Cells.read_cons, hapart first (hnames _ (List.mem_cons_self ..)) name (hnames _ hname)]
    by_cases hfirst : first = name
    · rw [hfirst, decide_eq_true rfl, if_pos rfl]
    · rw [decide_eq_false hfirst, if_neg Bool.false_ne_true]
      exact ih (fun other hother => hnames other (List.mem_cons_of_mem _ hother))
        ((List.mem_cons.1 hname).resolve_left (Ne.symm hfirst))

theorem lookup_told {names : List String} {name : String} (hname : name ∈ names) (row : Int × Cells) :
    (told names row).lookup name = some (cellOf row name) := by
  induction names with
  | nil => cases hname
  | cons first rest ih =>
    show List.lookup name ((first, cellOf row first) :: told rest row) = _
    by_cases hfirst : name = first
    · rw [hfirst, List.lookup_cons_self]
    · rw [List.lookup_cons, beq_eq_false_iff_ne.2 hfirst]
      exact ih ((List.mem_cons.1 hname).resolve_left hfirst)

theorem select_told (htable : db.table? g.table = some t) (ht : t.toTableDesign = g.design)
    {names : List String} (hnames : ∀ name ∈ names, name ∈ shown) :
    db.select g.table names [] = .ok (t.rows.entries.map (told names)) := by
  have hid := idColumn_of_design ht
  have hcolumn : ∀ name ∈ shown, name ≠ idColumn → ∃ c ∈ t.columns, c.name = name := by
    rw [columns_of_design ht]
    decide
  have htold : ∀ e : Int × Cells, (names.map fun name => (t.resultName name, t.read e.1 e.2 name)) =
      told names e := by
    intro e
    refine List.map_congr_left fun name hname => ?_
    rw [cellOf]
    by_cases hnumber : name = idColumn
    · rw [hnumber, if_pos rfl, Table.resultName_of_id hid, Table.read_of_id hid]
    · obtain ⟨c, hc, rfl⟩ := hcolumn name (hnames name hname) hnumber
      rw [if_neg hnumber, Table.resultName_of_mem hc, Table.read_of_mem hc]
  have hunknown : t.unknown? names = none := by
    refine Table.unknown?_eq_none fun name hname => ?_
    by_cases hnumber : name = idColumn
    · exact .inl (hnumber ▸ hid)
    · obtain ⟨c, hc, heq⟩ := hcolumn name (hnames name hname) hnumber
      exact .inr (heq ▸ List.mem_map_of_mem hc)
  have hall : Database.rowsWhere t [] = t.rows.entries := List.filter_eq_self.2 fun _ _ => rfl
  have hsense : ∀ name ∈ shown, senseOf name = .column := by decide +kernel
  rw [Database.select_of_names htable (fun name hname => hsense name (hnames name hname))
    (fun _ hc => by cases hc) (by rwa [List.map_nil, List.append_nil]), hall,
    List.map_congr_left fun e _ => htold e]

-- Whatever else is told of the attempts, the newest is found by the starts.
theorem select_newest (htable : db.table? g.table = some t) (ht : t.toTableDesign = g.design)
    {names : List String} (hnames : ∀ name ∈ names, name ∈ shown) (hstart : startColumn ∈ names)
    {front back : List (Int × Cells)} {e : Int × Cells} (hentries : t.rows.entries = front ++ e :: back)
    (hfront : ∀ other ∈ front, (other.2.read startColumn).atMost (e.2.read startColumn) = true)
    (hback : ∀ other ∈ back, (e.2.read startColumn).atMost (other.2.read startColumn) = false) :
    ∃ rows, db.select g.table names [] = .ok rows ∧ newest? rows = some (told names e) := by
  have hread : ∀ other, (told names other).read startColumn = other.2.read startColumn := fun other => by
    rw [read_told hnames hstart, cellOf, if_neg (by decide)]
  refine ⟨_, select_told htable ht hnames, ?_⟩
  rw [hentries, List.map_append, List.map_cons]
  apply newest?_split
  · intro other hother
    obtain ⟨entry, hentry, rfl⟩ := List.mem_map.1 hother
    rw [hread, hread]
    exact hfront entry hentry
  · intro other hother
    obtain ⟨entry, hentry, rfl⟩ := List.mem_map.1 hother
    rw [hread, hread]
    exact hback entry hentry

/-! ## The end of the newest attempt -/

theorem names_ending (ht : t.toTableDesign = g.design) (stop outcome : Cell) :
    ∀ name ∈ List.map (·.1) [(stopColumn, stop), (outcomeColumn, outcome)],
      name ∈ t.columns.map Column.name := by
  rw [columns_of_design ht]
  simp [columns]

theorem assigned?_ending (stop outcome : Cell) :
    Cells.assigned? [(stopColumn, stop), (outcomeColumn, outcome)] startColumn = none ∧
      Cells.assigned? [(stopColumn, stop), (outcomeColumn, outcome)] stopColumn = some stop ∧
      Cells.assigned? [(stopColumn, stop), (outcomeColumn, outcome)] outcomeColumn = some outcome := by
  simp only [Cells.assigned?, List.reverse_cons, List.reverse_nil, List.nil_append, List.cons_append,
    List.find?_cons, List.find?_nil]
  exact ⟨rfl, rfl, rfl⟩

theorem assign_row (ht : t.toTableDesign = g.design) (start : Int) (ending : Option (Int × Outcome))
    (stop : Int) (outcome : Outcome) :
    t.assign [(stopColumn, .integer stop), (outcomeColumn, .text outcome.word)] (row start ending) =
      row start (some (stop, outcome)) := by
  have hstop := Table.coerce_of_mem (t := t) (c := columns[1])
    (by rw [columns_of_design ht]; simp [columns]) (.integer stop)
  have houtcome := Table.coerce_of_mem (t := t) (c := columns[2])
    (by rw [columns_of_design ht]; simp [columns]) (.text outcome.word)
  obtain ⟨hkept, hended, htold⟩ := assigned?_ending (.integer stop) (.text outcome.word)
  simp only [columns, List.getElem_cons_zero, List.getElem_cons_succ] at hstop houtcome
  simp only [Table.assign, row, List.map_cons, List.map_nil, hkept, hended, htold, hstop, houtcome]
  rfl

-- The newest attempt is ended, however often it has been before, and the others are left alone.
theorem finish_spec (htable : db.table? g.table = some t) (ht : t.toTableDesign = g.design)
    {front back : List (Int × Cells)} {id start : Int} {ending : Option (Int × Outcome)}
    (hentries : t.rows.entries = front ++ (id, row start ending) :: back)
    (hfront : ∀ e ∈ front, (e.2.read startColumn).atMost (.integer start) = true)
    (hback : ∀ e ∈ back, (Cell.integer start).atMost (e.2.read startColumn) = false)
    (stop : Instant) (outcome : Outcome) :
    ∃ t' db', g.finish stop outcome db = .ok db' ∧ db'.table? g.table = some t' ∧
      t'.toTableDesign = g.design ∧ t'.lastId = t.lastId ∧
      t'.rows.entries = front ++ (id, row start (some (stop.toMillis, outcome))) :: back := by
  have hshown : ∀ name ∈ [stopColumn, outcomeColumn, idColumn, startColumn], name ∈ shown := by decide
  obtain ⟨rows, hselect, hnewest⟩ := select_newest htable ht hshown (by decide) hentries
    (by rwa [read_row]) (by rwa [read_row])
  have hassign := assign_row ht start ending stop.toMillis outcome
  obtain ⟨t', db', hupdate, htable', ht', hlast, hentries'⟩ := Database.update_one htable
    (isPlain_of_design ht) (idColumn_of_design ht) (by decide +kernel) (names_ending ht _ _) hentries
    (by rw [hassign, missingValue?_row ht])
  refine ⟨t', db', ?_, htable', ht'.trans ht, hlast, by rw [hentries', hassign]⟩
  unfold finish
  rw [hselect]
  dsimp only
  rw [hnewest]
  dsimp only
  rw [read_told hshown (by decide), cellOf, if_pos rfl, hupdate]

/-! ## One more attempt -/

/-- The table has the rows of another one, and behind them the row of one attempt. -/
def Adds (g : Ledger) (t : Table) (start : Int) (ending : Option (Int × Outcome)) (db : Database) : Prop :=
  ∃ t', db.table? g.table = some t' ∧ t'.toTableDesign = g.design ∧
    t'.rows.entries = t.rows.entries ++ [(t.nextId, row start ending)]

theorem adds_begin (htable : db.table? g.table = some t) (ht : t.toTableDesign = g.design)
    {start : Instant} {begun : Database} (h : g.begin start db = .ok begun) :
    g.Adds t start.toMillis none begun :=
  ⟨_, begin_spec htable ht h, ht, t.entries_appending _⟩

section Adds

variable {start : Int} {ending : Option (Int × Outcome)} (h : g.Adds t start ending db)
include h

theorem Adds.congr {other : Database} (hsame : other.table? g.table = db.table? g.table) :
    g.Adds t start ending other := by
  obtain ⟨t', htable', ht', hentries⟩ := h
  exact ⟨t', hsame.trans htable', ht', hentries⟩

-- The attempt is the newest where no other starts later, and it can be ended again.
theorem Adds.finish (hstarts : ∀ e ∈ t.rows.entries,
      (e.2.read startColumn).atMost (.integer start) = true) (stop : Instant) (outcome : Outcome) :
    ∃ db', g.finish stop outcome db = .ok db' ∧ g.Adds t start (some (stop.toMillis, outcome)) db' := by
  obtain ⟨t', htable', ht', hentries⟩ := h
  obtain ⟨t'', db', hfinish, htable'', ht'', -, hentries'⟩ := finish_spec htable' ht' hentries hstarts
    (fun _ he => by cases he) stop outcome
  exact ⟨db', hfinish, t'', htable'', ht'', hentries'⟩

theorem Adds.gains (ht : t.toTableDesign = g.design) :
    ∃ t', db.table? g.table = some t' ∧ t.Gains t' [row start ending] := by
  obtain ⟨t', htable', ht', hentries⟩ := h
  exact ⟨t', htable', ht'.trans ht.symm, ⟨_, hentries, rfl⟩, fun hnil => by cases hnil⟩

end Adds

/-! ## Other tables -/

theorem sameBesides_begin {start : Instant} (h : g.begin start db = .ok db') :
    Database.SameBesides g.table db db' := by
  unfold begin at h
  split at h
  · cases h
  · rename_i hinsert
    cases h
    exact Database.sameBesides_insert hinsert

theorem sameBesides_finish {stop : Instant} {outcome : Outcome}
    (h : g.finish stop outcome db = .ok db') : Database.SameBesides g.table db db' := by
  unfold finish at h
  split at h
  · cases h
  dsimp only at h
  split at h
  · cases h
  · rename_i hupdate
    cases h
    exact Database.sameBesides_update hupdate

end Ledger

end Registry
