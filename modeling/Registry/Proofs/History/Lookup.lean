import Registry.Proofs.History.Permanence

/-!
# Lookup — the database and the program agree on what holds

A lookup compares milliseconds and cells where they are stored.  A program that reads all versions can
ask each of them whether it holds at an instant, to the nanosecond, and whether its record has a value.
Outside of leap seconds both find the same versions, in every column and at every instant.
-/

namespace Registry

/-! ## Registers without leap seconds -/

/-- The version begins and ends outside of leap seconds, and no stored value of its record lies in one. -/
def Version.IsLeapFree (l : Layout) (v : Version) : Prop :=
  v.validFrom.isLeap = false ∧ (∀ stop ∈ v.validTo, stop.isLeap = false) ∧ ¬ l.HasLeap v.record

instance (l : Layout) (v : Version) : Decidable (v.IsLeapFree l) :=
  inferInstanceAs (Decidable (_ ∧ _ ∧ _))

/-- The request gives no instant in a leap second to a version. -/
def EngineRequest.IsLeapFree (l : Layout) (w : Recorder) (request : EngineRequest) : Prop :=
  (∀ v ∈ request.versions w, v.IsLeapFree l) ∧ ∀ stop ∈ request.stops w, stop.isLeap = false

instance (l : Layout) (w : Recorder) (request : EngineRequest) : Decidable (request.IsLeapFree l w) :=
  inferInstanceAs (Decidable (_ ∧ _))

/-- A database whose table of the layout was created and then written by calls of recorders that give
no instant in a leap second.  A call that undoes an open transaction takes the table back to how it was. -/
inductive Layout.WrittenLeapFree (l : Layout) : Database → Prop
  | created {db : Database} : l.Created db → WrittenLeapFree l db
  | called {db : Database} (w : Recorder) (request : EngineRequest) :
      WrittenLeapFree l db → request.IsLeapFree l w → db.Lasts (EngineCall.run w ⟨l, request⟩ db).1 →
        WrittenLeapFree l (EngineCall.run w ⟨l, request⟩ db).2
  | elsewhere {db after : Database} :
      WrittenLeapFree l db → after.table? l.table = db.table? l.table → WrittenLeapFree l after

/-- The times of the version are those of instants, and no stored value lies in a leap second. -/
structure StoredVersion.IsLeapFree (l : Layout) (v : StoredVersion) : Prop extends v.IsSteady l where
  validTo : ∀ stop ∈ v.validTo, Instant.MillisInRange stop

namespace StoredVersion

variable {l : Layout} {v : StoredVersion}

theorem isLeapFree_stored {v : Version} (h : v.IsLeapFree l) (modified : Instant) :
    (v.stored l modified).IsLeapFree l where
  toIsSteady := isSteady_stored h.1 h.2.2 modified
  validTo ms hms := by
    obtain ⟨stop, hstop, rfl⟩ := Option.map_eq_some_iff.1 hms
    exact Instant.inRange_toMillis (h.2.1 stop hstop)

theorem IsLeapFree.closedAt (h : v.IsLeapFree l) {stop : Instant} (hstop : stop.isLeap = false)
    (modified : Int) : (v.closedAt stop.toMillis modified).IsLeapFree l where
  toIsSteady := h.toIsSteady.closedAt _ _
  validTo ms hms := by
    rw [← Option.some.inj hms]
    exact Instant.inRange_toMillis hstop

theorem IsLeapFree.rewrittenAt (h : v.IsLeapFree l) {stop : Instant} (hstop : stop.isLeap = false) :
    (v.rewrittenAt stop).IsLeapFree l where
  toIsSteady := h.toIsSteady.rewrittenAt stop
  validTo ms hms := by
    rw [← Option.some.inj hms]
    exact Instant.inRange_toMillis hstop

end StoredVersion

-- What a call leaves is free of leap seconds where the register and the request are.
theorem Versions.Leave.isLeapFree {l : Layout} {w : Recorder} {before : Versions} {given : List Version}
    {stops : List Instant} {v : StoredVersion} (h : before.Leave l w given stops v) (hplain : l.NamesPlain)
    (hnames : l.NamesApart) (hwritten : ∀ e ∈ before.entries, e.2.IsWritten l)
    (hbefore : ∀ e ∈ before.entries, e.2.IsLeapFree l) (hgiven : ∀ v ∈ given, v.IsLeapFree l)
    (hstops : ∀ stop ∈ stops, stop.isLeap = false) : v.IsLeapFree l := by
  cases h with
  | kept hentry => exact hbefore _ hentry
  | closed hentry hstop => exact (hbefore _ hentry).closedAt (hstops _ hstop) _
  | rewritten hentry hread =>
    rw [StoredVersion.answerOf_shownCell hplain,
      StoredVersion.readVersion_answer hnames (hwritten _ hentry), Except.ok.injEq] at hread
    rw [← hread, Version.stored_rewritten (hwritten _ hentry)]
    exact (hbefore _ hentry).rewrittenAt w.isLeap_time
  | given hmem _ => exact StoredVersion.isLeapFree_stored (hgiven _ hmem) w.time

theorem Layout.WrittenLeapFree.exists_recorded {l : Layout} {db : Database} (h : l.WrittenLeapFree db)
    (hplain : l.NamesPlain) :
    ∃ versions last, Recorded l db versions last ∧ ∀ e ∈ versions.entries, e.2.IsLeapFree l := by
  induction h with
  | created hcreated => exact ⟨_, _, hcreated.recorded, fun _ he => by cases he⟩
  | called w request _ hrequest hlasts ih =>
    obtain ⟨versions, last, hrecorded, hfree⟩ := ih
    obtain ⟨t, -, hdesign, -⟩ := hrecorded.table
    obtain ⟨versions', last', hafter, hleave⟩ := hrecorded.leftBy_run hplain.key w request hlasts
    exact ⟨versions', last', hafter, fun e he => (hleave e he).isLeapFree hplain
      (Table.namesApart_of_design hdesign) hrecorded.written hfree hrequest.1 hrequest.2⟩
  | elsewhere _ hsame ih =>
    obtain ⟨versions, last, hrecorded, hfree⟩ := ih
    exact ⟨versions, last, hrecorded.congr hsame, hfree⟩

/-! ## Versions as they are read -/

/-- Every version in the table of the layout, as it is read. -/
def Layout.readAll (l : Layout) (db : Database) : Except HistoryFault (List Version) :=
  match db.select l.table (pidColumn :: l.columnNames) [] with
  | .error fault => .error (.database fault)
  | .ok rows => rows.mapM l.readVersion

/-- The version holds at an instant, and its record has a value; null is that of an absent one. -/
def Version.answers (column : String) (value : Value) (asOf : Instant) (v : Version) : Bool :=
  decide (v.record.valueOrNull column = value) && v.isValidAt asOf

/-- The only version of a list, if there is one; there may be no other. -/
def Layout.onlyOne (l : Layout) (column : String) (value : Value) :
    List Version → Except HistoryFault (Option Version)
  | [] => .ok none
  | [v] => .ok (some v)
  | several => .error (.severalCurrent l.table column value.display several.length)

namespace StoredVersion

variable {l : Layout} {v : StoredVersion}

-- A version that is read holds at the instants in whose milliseconds it is stored to hold.
theorem IsLeapFree.isValidAt_version (h : v.IsLeapFree l) {asOf : Instant} (hasOf : asOf.isLeap = false)
    (pid : Int) : (v.restored.version pid).isValidAt asOf = v.holdsAt asOf.toMillis := by
  have hfrom := Instant.ofMillis_le_iff h.validFrom hasOf
  rw [Bool.eq_iff_iff, Version.isValidAt_iff, holdsAt_iff]
  apply and_congr hfrom
  constructor
  · intro hgoes stop hstop
    rw [← Instant.lt_ofMillis_iff (h.validTo stop hstop) hasOf]
    exact hgoes _ (congrArg (Option.map Instant.ofMillis) hstop)
  · intro hgoes _ hmap
    obtain ⟨stop, hstop, rfl⟩ := Option.map_eq_some_iff.1 hmap
    rw [Instant.lt_ofMillis_iff (h.validTo stop hstop) hasOf]
    exact hgoes stop hstop

-- A record that is read has a value of whole milliseconds just where the row has its cell.
theorem IsLeapFree.valueOrNull_version (h : v.IsLeapFree l) (hconforms : l.conforms v.record = true)
    {f : Field} (hf : f ∈ l.persisted) {value : Value} (hfits : value.fits f.type = true)
    (hwhole : value.IsWholeMilli) (pid : Int) :
    decide ((v.restored.version pid).record.valueOrNull f.name = value) = v.hasValue f.name value := by
  have hread : (v.restored.version pid).record.valueOrNull f.name =
      (v.record.valueOrNull f.name).restored := Record.valueOrNull_restored _ _
  rw [hread, hasValue, decide_eq_decide]
  constructor
  · intro hback
    rw [← Value.cell_restored fun hleap => h.noLeap ⟨f, hf, hleap⟩, hback]
  · intro hcell
    have hback := Value.restored_eq_of_cell_eq (Layout.fits_of_conforms hconforms hf) hfits hcell
    rwa [Value.restored_eq_self_iff.2 hwhole] at hback

end StoredVersion

/-! ## Lookups -/

-- Reading rows one after the other gives what each of them is read as.
theorem mapM_map_eq_ok {α β γ ε : Type} {read : β → Except ε γ} {row : α → β} {answer : α → γ}
    {list : List α} (h : ∀ a ∈ list, read (row a) = .ok (answer a)) :
    (list.map row).mapM read = .ok (list.map answer) := by
  induction list with
  | nil => rfl
  | cons a rest ih =>
    rw [List.map_cons, List.mapM_cons, h a (List.mem_cons_self ..),
      ih fun b hb => h b (List.mem_cons_of_mem _ hb)]
    rfl

namespace Recorded

variable {l : Layout} {db : Database} {versions : Versions} {last : Nat}

theorem readVersion_answer (h : Recorded l db versions last) {e : Int × StoredVersion}
    (he : e ∈ versions.entries) :
    l.readVersion (e.2.answer l e.1) = .ok (e.2.restored.version e.1) := by
  obtain ⟨t, -, hdesign, -⟩ := h.table
  exact StoredVersion.readVersion_answer (Table.namesApart_of_design hdesign) (h.written e he) e.1

theorem readAll_eq (h : Recorded l db versions last) (hplain : l.NamesPlain) :
    l.readAll db = .ok (versions.entries.map fun e => e.2.restored.version e.1) := by
  obtain ⟨t, htable, hdesign, hrows, -⟩ := h.table
  have hknown : t.unknown? (pidColumn :: l.columnNames ++ [].map Condition.column) = none := by
    apply Table.unknown?_of_design hdesign
    intro name hname
    rwa [List.map_nil, List.append_nil, List.mem_cons] at hname
  let test (_ : Int) (_ : StoredVersion) : Bool := true
  have htest : ∀ e ∈ versions.entries,
      Condition.allHold t [] e.1 (e.2.cells l) = test e.1 e.2 := fun _ _ => rfl
  have hquery : phraseFault? (listed "FROM" (pidColumn :: l.columnNames)) = none :=
    hplain.queryFault?
  have hselect : db.select l.table (pidColumn :: l.columnNames) [] =
      .ok (versions.entries.map fun e => e.2.answer l e.1) := by
    rw [Database.select_of_columns htable (fun _ hc => by cases hc) hknown, hquery,
      Table.rowsWhere_rowsOf hrows htest, List.filter_eq_self.2 fun _ _ => rfl, List.map_map]
    simp only [Function.comp_def, Table.shown_row hdesign, StoredVersion.answerOf_shownCell hplain]
  rw [Layout.readAll, hselect]
  exact mapM_map_eq_ok fun e he => h.readVersion_answer he

/-- What a lookup in a column answers, by the versions that it finds. -/
theorem fetchBy_eq (h : Recorded l db versions last) (hplain : l.NamesPlain) {f : Field}
    (hf : f ∈ l.persisted) {value : Value} (hfits : value.fits f.type = true) (asOf : Instant) :
    Recorder.fetchBy l f.name value asOf db =
      l.onlyOne f.name value ((versions.entries.filter fun e =>
        e.2.hasValue f.name value && e.2.holdsAt asOf.toMillis).map fun e =>
          e.2.restored.version e.1) := by
  obtain ⟨t, htable, hdesign, hrows, -⟩ := h.table
  have hcolumn : f.name ∈ l.columnNames := List.mem_map_of_mem (Layout.column_mem hf)
  let test (_ : Int) (v : StoredVersion) : Bool := v.hasValue f.name value && v.holdsAt asOf.toMillis
  have htest : ∀ e ∈ versions.entries,
      Condition.allHold t (Recorder.validConditions f.name value asOf) e.1 (e.2.cells l) =
        test e.1 e.2 := fun e he =>
    Recorder.allHold_validConditions_field hdesign (h.written e he).conforms hf hfits asOf e.1
  have hvalid : Recorder.validRows l f.name value asOf db =
      .ok ((versions.entries.filter fun e => test e.1 e.2).map fun e => e.2.answer l e.1) := by
    rw [Recorder.validRows_of_table htable hdesign hcolumn (hplain f hf), hplain.queryFault?,
      Table.rowsWhere_rowsOf hrows htest, List.map_map]
    simp only [Function.comp_def, Table.shown_row hdesign, StoredVersion.answerOf_shownCell hplain]
  have hread : ∀ e ∈ versions.entries.filter fun e => test e.1 e.2,
      l.readVersion (e.2.answer l e.1) = .ok (e.2.restored.version e.1) :=
    fun e he => h.readVersion_answer (List.mem_filter.1 he).1
  rw [Recorder.fetchBy, Layout.persisted_find hf]
  simp only [Field.cell, hfits, if_true, hvalid]
  show _ = l.onlyOne f.name value ((versions.entries.filter fun e => test e.1 e.2).map _)
  generalize (versions.entries.filter fun e => test e.1 e.2) = found at hread
  rcases found with _ | ⟨e, _ | ⟨other, rest⟩⟩
  · rfl
  · rw [List.map_singleton, List.map_singleton]
    simp only [hread e (List.mem_singleton_self e)]
    rfl
  · simp only [List.map_cons, List.length_cons, List.length_map, Layout.onlyOne]

end Recorded

/-- In a register without leap seconds and with columns that are all read as such, a lookup of a value of
whole milliseconds in any column and at any instant outside of leap seconds answers by just those versions
that hold at the instant and have the value when they are read: with nothing, with the only one, or with
the fault that counts them. -/
theorem fetchBy_eq_onlyOne {l : Layout} (hplain : l.NamesPlain) {db : Database}
    (h : l.WrittenLeapFree db) {f : Field} (hf : f ∈ l.persisted) {value : Value}
    (hfits : value.fits f.type = true) (hwhole : value.IsWholeMilli) {asOf : Instant}
    (hasOf : asOf.isLeap = false) :
    ∃ all, l.readAll db = .ok all ∧ Recorder.fetchBy l f.name value asOf db =
      l.onlyOne f.name value (all.filter (Version.answers f.name value asOf)) := by
  obtain ⟨versions, last, hrecorded, hfree⟩ := h.exists_recorded hplain
  refine ⟨_, hrecorded.readAll_eq hplain, ?_⟩
  have hsame : ∀ e ∈ versions.entries, (e.2.restored.version e.1).answers f.name value asOf =
      (e.2.hasValue f.name value && e.2.holdsAt asOf.toMillis) := by
    intro e he
    rw [Version.answers, (hfree e he).isValidAt_version hasOf,
      (hfree e he).valueOrNull_version (hrecorded.written e he).conforms hf hfits hwhole]
  rw [hrecorded.fetchBy_eq hplain hf hfits, List.filter_map]
  congr 2
  exact List.filter_congr fun e he => (hsame e he).symm

/-! ### Small registers -/

/-- The early reading, and the same again from 1970 on. -/
def sameReadings : Database :=
  readingLayout.written
    [(.pinnedAt .epoch, .insertVersion earlyReading),
      (.pinnedAt .epoch, .insert earlyReading.record)]
    (readingLayout.createTable .empty).2

/-- The last nanosecond before 1970. -/
def justBefore : Instant := { second := -1, nano := 999999999 }

theorem fetchBy_eq_onlyOne_justBefore :
    ∃ v, Recorder.fetchBy readingLayout "count" (.integer 7) justBefore sameReadings = .ok (some v) ∧
      v.validFrom = .ofMillis (-1000) := by
  have hfirst : readingLayout.WrittenLeapFree _ :=
    .called (.pinnedAt .epoch) (.insertVersion earlyReading) (.created readingLayout_created)
      (by decide +kernel) (Database.lasts_of_begun (by decide +kernel))
  have hwritten : readingLayout.WrittenLeapFree sameReadings :=
    .called (.pinnedAt .epoch) (.insert earlyReading.record) hfirst (by decide +kernel)
      (Database.lasts_of_begun (by decide +kernel))
  have hcount : (Field.required "count" 4).withType .integer ∈ readingLayout.persisted := by
    decide +kernel
  have hfits : (Value.integer 7).fits .integer = true := rfl
  have hwhole : (Value.integer 7).IsWholeMilli := trivial
  have hasOf : justBefore.isLeap = false := rfl
  obtain ⟨all, hall, hfetch⟩ := fetchBy_eq_onlyOne readingLayout_plain hwritten hcount hfits hwhole hasOf
  have honly : (readingLayout.readAll sameReadings).toOption.map (fun all =>
      (all.filter (Version.answers "count" (.integer 7) justBefore)).map Version.validFrom) =
        some [.ofMillis (-1000)] := by decide +kernel
  rw [hall] at honly
  obtain ⟨v, hv, hfrom⟩ := List.map_eq_singleton_iff.1 (Option.some.inj honly)
  refine ⟨v, ?_, hfrom⟩
  have hname : ((Field.required "count" 4).withType .integer).name = "count" := rfl
  rw [hname, hv] at hfetch
  exact hfetch

/-- The register of events, in which one was in the first second of the year 2017. -/
def newYear : Database :=
  (EngineCall.run (.pinnedAt (.ofMillis 1000)) ⟨eventLayout, .insert (event (.ofMillis 1483228800000))⟩
    (eventLayout.createTable .empty).2).2

-- A lookup of a leap second finds what was in the second that follows, which is read as that second.
theorem not_fetchBy_eq_onlyOne_leap :
    eventLayout.WrittenLeapFree newYear ∧ leapOf2016.nano % 1000000 = 0 ∧
      ∃ all v, eventLayout.readAll newYear = .ok all ∧
        all.filter (Version.answers "at" (.datetime leapOf2016) (.ofMillis 2000)) = [] ∧
        Recorder.fetchBy eventLayout "at" (.datetime leapOf2016) (.ofMillis 2000) newYear =
          .ok (some v) :=
  ⟨.called _ _ (.created eventLayout_created) (by decide +kernel)
      (Database.lasts_of_begun (by decide +kernel)), rfl,
    [{ pid := some 1, record := event (.ofMillis 1483228800000), validFrom := .ofMillis 1000
       validTo := none, modified := some (.ofMillis 1000) }],
    { pid := some 1, record := event (.ofMillis 1483228800000), validFrom := .ofMillis 1000
      validTo := none, modified := some (.ofMillis 1000) }, by decide +kernel⟩

end Registry
