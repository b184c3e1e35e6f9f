import Registry.Proofs.History.Overlap
import Registry.Proofs.History.Permanence
import Registry.Proofs.History.Replay

/-!
# Termination — a key that ends at an instant

To end a key at an instant closes those of its versions that are open or go on to the instant or beyond,
whether or not they have begun by then and however many hold at once.  The key has before the instant
what it had, and nothing from the instant on.
-/

namespace Registry

/-! ## Versions that end -/

namespace StoredVersion

variable {l : Layout} {v : StoredVersion} {key : Value} {stop modified : Int}

/-- What becomes of a version where its key ends. -/
def endedAt (l : Layout) (key : Value) (stop modified : Int) (v : StoredVersion) : StoredVersion :=
  if v.hasKey l key && v.reaches stop then v.closedAt stop modified else v

theorem record_endedAt : (v.endedAt l key stop modified).record = v.record := by
  unfold endedAt
  split <;> rfl

theorem validFrom_endedAt : (v.endedAt l key stop modified).validFrom = v.validFrom := by
  unfold endedAt
  split <;> rfl

theorem key_endedAt : (v.endedAt l key stop modified).key l = v.key l :=
  congrArg (·.valueOrNull l.key) record_endedAt

-- A version that has ended before holds at no later instant anyway.
theorem holdsAt_endedAt (hkey : v.hasKey l key = true) (ms : Int) :
    (v.endedAt l key stop modified).holdsAt ms = (decide (ms < stop) && v.holdsAt ms) := by
  rw [endedAt, hkey, Bool.true_and, Bool.eq_iff_iff, Bool.and_eq_true, decide_eq_true_eq, holdsAt_iff,
    holdsAt_iff]
  by_cases hreaches : v.reaches stop = true
  · rw [if_pos hreaches]
    constructor
    · rintro ⟨hbegun, hgoes⟩
      have hbefore : ms < stop := hgoes stop rfl
      refine ⟨hbefore, hbegun, fun s hs => ?_⟩
      exact Int.lt_of_lt_of_le hbefore (reaches_iff.1 hreaches s hs)
    · rintro ⟨hbefore, hbegun, -⟩
      refine ⟨hbegun, fun s hs => ?_⟩
      rwa [← Option.some.inj hs]
  · rw [if_neg hreaches]
    have hended : ∃ s ∈ v.validTo, s < stop := by
      rw [reaches_iff] at hreaches
      simpa only [not_forall, Int.not_le, exists_prop] using hreaches
    obtain ⟨s, hs, hlt⟩ := hended
    constructor
    · rintro ⟨hbegun, hgoes⟩
      have := hgoes s hs
      exact ⟨by omega, hbegun, hgoes⟩
    · exact And.right

end StoredVersion

/-! ## Tables in which a key ends -/

namespace Table

/-- The row is one of a key, and is open or goes on to an instant or beyond. -/
def rowReaches (l : Layout) (t : Table) (key : Value) (stop : Instant) (row : Int × Cells) : Bool :=
  decide (t.read row.1 row.2 l.key = key.cell) &&
    match t.read row.1 row.2 validToColumn with
    | .null => true
    | .integer ms => stop.toMillis ≤ ms
    | _ => false

/-- The row of a number is there, is one of a key and holds at an instant. -/
def HoldsOf (l : Layout) (t : Table) (key : Value) (asOf : Instant) (pid : Int) : Prop :=
  ∃ cells, t.rows.get? pid = some cells ∧ t.read pid cells l.key = key.cell ∧
    t.rowHolds asOf (pid, cells) = true

/-- A table has become another in which a key ends at an instant: no row has come or gone, and none has
changed but those of the key that reached the instant.  These end at it and have the time of the change,
and are counted.  What holds of the key is what held, before the instant, and nothing after. -/
structure EndsKey (l : Layout) (t t' : Table) (key : Value) (stop modified : Instant) (count : Nat) :
    Prop where
  design : t'.toTableDesign = t.toTableDesign
  lastId : t'.lastId = t.lastId
  absent : ∀ pid, t.rows.get? pid = none → t'.rows.get? pid = none
  kept : ∀ pid cells, t.rows.get? pid = some cells → ∃ now, t'.rows.get? pid = some now ∧
    ∀ name ∈ l.columnNames, name ≠ validToColumn → name ≠ modifiedColumn →
      t'.read pid now name = t.read pid cells name
  left : ∀ pid cells, t.rows.get? pid = some cells → t.rowReaches l key stop (pid, cells) = false →
    t'.rows.get? pid = some cells
  closed : ∀ pid cells, t.rows.get? pid = some cells → t.rowReaches l key stop (pid, cells) = true →
    ∃ now, t'.rows.get? pid = some now ∧ t'.read pid now validToColumn = .integer stop.toMillis ∧
      t'.read pid now modifiedColumn = .integer modified.toMillis
  counted : count = (t.rows.entries.filter (t.rowReaches l key stop)).length
  holds : ∀ (asOf : Instant) (pid : Int),
    t'.HoldsOf l key asOf pid ↔ asOf.toMillis < stop.toMillis ∧ t.HoldsOf l key asOf pid

variable {l : Layout} {t t' : Table} {versions : Versions} {key : Value} {stop : Instant}

theorem rowReaches_cells (ht : t.toTableDesign = l.design) (key : Value) (stop : Instant)
    (e : Int × StoredVersion) : t.rowReaches l key stop (e.1, e.2.cells l) =
      (e.2.hasKey l key && e.2.reaches stop.toMillis) := by
  rw [rowReaches, read_key ht, read_validTo ht, StoredVersion.hasKey, StoredVersion.reaches]
  cases e.2.validTo <;> rfl

-- A row holds for a key where its version does.
theorem holdsOf_iff (ht : t.toTableDesign = l.design) (hrows : t.rows = rowsOf l versions)
    {asOf : Instant} {pid : Int} : t.HoldsOf l key asOf pid ↔
      ∃ v, versions.get? pid = some v ∧ v.hasKey l key = true ∧ v.holdsAt asOf.toMillis = true := by
  simp only [HoldsOf, hrows, rowsOf, SortedMap.get?_map, Option.map_eq_some_iff, StoredVersion.hasKey_iff]
  constructor
  · rintro ⟨_, ⟨v, hv, rfl⟩, hkey, hholds⟩
    rw [read_key ht] at hkey
    rw [Recorded.rowHolds_cells ht asOf (pid, v)] at hholds
    exact ⟨v, hv, hkey, hholds⟩
  · rintro ⟨v, hv, hkey, hholds⟩
    refine ⟨_, ⟨v, hv, rfl⟩, ?_, ?_⟩
    · rwa [read_key ht]
    · rwa [Recorded.rowHolds_cells ht asOf (pid, v)]

theorem endsKey (ht : t.toTableDesign = l.design) (ht' : t'.toTableDesign = l.design)
    (hlast : t'.lastId = t.lastId) (hrows : t.rows = rowsOf l versions) {modified : Instant}
    (hrows' : t'.rows = rowsOf l
      (versions.map fun _ v => v.endedAt l key stop.toMillis modified.toMillis)) :
    t.EndsKey l t' key stop modified (versions.entries.filter fun e =>
      e.2.hasKey l key && e.2.reaches stop.toMillis).length := by
  have hget : ∀ pid cells, t.rows.get? pid = some cells → ∃ v, versions.get? pid = some v ∧
      cells = v.cells l ∧
      t'.rows.get? pid = some ((v.endedAt l key stop.toMillis modified.toMillis).cells l) := by
    intro pid cells hcells
    rw [hrows, rowsOf, SortedMap.get?_map, Option.map_eq_some_iff] at hcells
    obtain ⟨v, hv, rfl⟩ := hcells
    exact ⟨v, hv, rfl, by rw [hrows', rowsOf, SortedMap.get?_map, SortedMap.get?_map, hv]; rfl⟩
  constructor
  · exact ht'.trans ht.symm
  · exact hlast
  · intro pid hnone
    rw [hrows, rowsOf, SortedMap.get?_map, Option.map_eq_none_iff] at hnone
    rw [hrows', rowsOf, SortedMap.get?_map, SortedMap.get?_map, hnone]
    rfl
  · intro pid cells hcells
    obtain ⟨v, -, rfl, hnow⟩ := hget pid cells hcells
    refine ⟨_, hnow, fun name hname hto hmodified => ?_⟩
    obtain ⟨c, hc, rfl⟩ := List.mem_map.1 hname
    rw [read_column ht' pid _ hc, read_column ht pid v hc, StoredVersion.cell, StoredVersion.cell,
      StoredVersion.validFrom_endedAt, StoredVersion.record_endedAt, if_neg hto, if_neg hto,
      if_neg hmodified, if_neg hmodified]
  · intro pid cells hcells hpast
    obtain ⟨v, -, rfl, hnow⟩ := hget pid cells hcells
    rw [rowReaches_cells ht key stop (pid, v)] at hpast
    rwa [StoredVersion.endedAt, hpast, if_neg Bool.false_ne_true] at hnow
  · intro pid cells hcells hreaches
    obtain ⟨v, -, rfl, hnow⟩ := hget pid cells hcells
    rw [rowReaches_cells ht key stop (pid, v)] at hreaches
    rw [StoredVersion.endedAt, hreaches, if_pos rfl] at hnow
    exact ⟨_, hnow, read_validTo ht' pid _, read_modified ht' pid _⟩
  · have htest : ∀ e : Int × StoredVersion,
        (e.2.hasKey l key && e.2.reaches stop.toMillis) = t.rowReaches l key stop (e.1, e.2.cells l) :=
      fun e => (rowReaches_cells ht key stop e).symm
    rw [hrows, rowsOf, SortedMap.map, List.filter_map, List.length_map, Function.comp_def]
    simp only [htest]
  · intro asOf pid
    rw [holdsOf_iff ht hrows, holdsOf_iff ht' hrows']
    simp only [SortedMap.get?_map, Option.map_eq_some_iff]
    constructor
    · rintro ⟨_, ⟨v, hv, rfl⟩, hkey, hholds⟩
      have hkey' : v.hasKey l key = true := by
        rwa [StoredVersion.hasKey, StoredVersion.key_endedAt] at hkey
      rw [StoredVersion.holdsAt_endedAt hkey', Bool.and_eq_true, decide_eq_true_eq] at hholds
      exact ⟨hholds.1, v, hv, hkey', hholds.2⟩
    · rintro ⟨hbefore, v, hv, hkey, hholds⟩
      refine ⟨_, ⟨v, hv, rfl⟩, ?_, ?_⟩
      · rwa [StoredVersion.hasKey, StoredVersion.key_endedAt]
      · rw [StoredVersion.holdsAt_endedAt hkey, decide_eq_true hbefore, hholds]
        rfl

end Table

/-- In a register that recorders have written and whose key is read as a column, whatever its versions
are, the key of a record ends at any instant if the key has the type of its column or is null.  The answer
is the number of rows that were changed.  With a key of another type nothing is changed. -/
theorem terminateAt_endsKey {l : Layout} (hsense : senseOf l.key = .column) {db : Database}
    (hwritten : l.Written db) (w : Recorder) (r : Record) (stop : Instant) :
    ((r.valueOrNull l.key).fits l.keyField.type = true →
      ∃ count after t t', w.terminateAt l r stop db = (.ok count, after) ∧
        db.table? l.table = some t ∧ after.table? l.table = some t' ∧
        t.EndsKey l t' (r.valueOrNull l.key) stop w.time count) ∧
    ((r.valueOrNull l.key).fits l.keyField.type = false →
      w.terminateAt l r stop db =
        (.error (.wrongKind l.keyField.name l.keyField.type (r.valueOrNull l.key).kind), db)) := by
  constructor
  · intro hfits
    obtain ⟨versions, given, hrecorded⟩ := hwritten.isRecorded hsense
    obtain ⟨after, hrun, hafter⟩ := hrecorded.terminateAt_eq hsense w hfits stop
    obtain ⟨t, htable, hdesign, hrows, hlast⟩ := hrecorded.table
    obtain ⟨t', htable', hdesign', hrows', hlast'⟩ := hafter.table
    exact ⟨_, after, t, t', hrun, htable, htable',
      Table.endsKey hdesign hdesign' (hlast'.trans hlast.symm) hrows hrows'⟩
  · intro hfits
    simp only [Recorder.terminateAt, Field.cell, hfits, Bool.false_eq_true, if_false]

/-! ### A small register -/

/-- Readings of no sensor, of which some hold at one instant, one begins late and one never holds, and a
reading of a sensor. -/
def crowdedReadings : Database :=
  readingLayout.written
    ([earlyReading,
      .unstored (reading .null 1) (.ofMillis (-500)) none,
      .unstored (reading .null 2) (.ofMillis 9000) none,
      .unstored (reading .null 3) (.ofMillis (-300)) (some (.ofMillis (-300))),
      .unstored (reading (.text "a") 4) (.ofMillis (-500)) none].map fun v =>
        (.pinnedAt .epoch, .insertVersion v))
    (readingLayout.createTable .empty).2

theorem terminateAt_endsKey_crowded :
    ∃ after t t', (Recorder.pinnedAt (.ofMillis 5000)).terminateAt readingLayout (reading .null 0)
        (.ofMillis (-100)) crowdedReadings = (.ok 3, after) ∧
      crowdedReadings.table? "reading" = some t ∧ after.table? "reading" = some t' ∧
      t.EndsKey readingLayout t' .null (.ofMillis (-100))
        (Recorder.pinnedAt (.ofMillis 5000)).time 3 := by
  have hwritten : readingLayout.Written crowdedReadings :=
    (Layout.Written.created readingLayout_created).calls
      (Layout.lasting_of_begun (by decide +kernel) _)
  have hcount : ((Recorder.pinnedAt (.ofMillis 5000)).terminateAt readingLayout (reading .null 0)
      (.ofMillis (-100)) crowdedReadings).1 = .ok 3 := by decide +kernel
  obtain ⟨count, after, t, t', hrun, htable, htable', hends⟩ := (terminateAt_endsKey readingLayout_plain.key
    hwritten (.pinnedAt (.ofMillis 5000)) (reading .null 0) (.ofMillis (-100))).1 (by decide +kernel)
  rw [hrun] at hcount
  cases hcount
  exact ⟨after, t, t', hrun, htable, htable', hends⟩

/-! ### A word for the clock -/

/-- A register of visits under the date of each. -/
def datedLayout : Layout where
  table := "visit_Current"
  key := "Date"
  fields := [Field.required "Date" 10]
  table_identifier := by decide
  names_identifier := by decide
  names_nodup := by decide
  key_persisted := ⟨_, List.mem_cons_self .., rfl, rfl⟩

/-- A register of visits under a word for the date.  Its index has the name of that of the other register,
and is not made where that is there. -/
def visitLayout : Layout where
  table := "visit"
  key := "Current_Date"
  fields := [Field.required "Current_Date" 10]
  table_identifier := by decide
  names_identifier := by decide
  names_nodup := by decide
  key_persisted := ⟨_, List.mem_cons_self .., rfl, rfl⟩

def visit : Record := .ofList [("Current_Date", .text "first")]

/-- Both registers, and a visit in the second. -/
def visitsBefore : Database :=
  (EngineCall.run (.pinnedAt (.ofMillis 1000)) ⟨visitLayout, .insert visit⟩
    (visitLayout.createTable (datedLayout.createTable .empty).2).2).2

-- The visit is open, but its key is compared with the date of the clock, so that it is not found.
theorem not_terminateAt_endsKey_visit :
    visitLayout.Written visitsBefore ∧
      (visit.valueOrNull visitLayout.key).fits visitLayout.keyField.type = true ∧
      (visitsBefore.table? "visit").map (fun t => (t.rows.entries.filter
        (t.rowReaches visitLayout (visit.valueOrNull visitLayout.key) (.ofMillis 2000))).length) = some 1 ∧
      ((Recorder.pinnedAt (.ofMillis 2000)).terminateAt visitLayout visit (.ofMillis 2000)
        visitsBefore).1 = .ok 0 := by
  have hcreated : visitLayout.Created
      (visitLayout.createTable (datedLayout.createTable .empty).2).2 :=
    Layout.created_of_isOk (by decide +kernel) (by decide +kernel)
  exact ⟨.called _ _ (.created hcreated) (Database.lasts_of_begun (by decide +kernel)),
    by decide +kernel, by decide +kernel, by decide +kernel⟩

end Registry
