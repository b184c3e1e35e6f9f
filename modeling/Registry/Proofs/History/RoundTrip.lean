import Mathlib.Control.Monad.Basic
import Registry.Proofs.History.ClockWord

/-!
# RoundTrip — what was added to a register is what a lookup finds

A version of whole milliseconds that is added to the table of a register, whatever rows the table has,
is what a lookup finds at each instant at which no row of its key was found before: with the number
that it was given, the times that it was added with and just the values that have a column and are not
null.
-/

namespace Registry

variable {l : Layout} {db : Database}

/-- The table of the layout has a number left for another version. -/
def Layout.HasRoom (l : Layout) (db : Database) : Prop :=
  ∃ t, db.table? l.table = some t ∧ Cell.isInteger t.nextId = true

theorem Recorded.hasRoom_iff {versions : Versions} {given : Nat} (h : Recorded l db versions given) :
    l.HasRoom db ↔ given + 1 < 2 ^ 63 := by
  obtain ⟨t, htable, hdesign, hrows, hlast⟩ := h.table
  rw [Layout.HasRoom, htable]
  simp only [Option.some.injEq, exists_eq_left', Table.nextId_rowsOf hdesign hrows hlast h.numbered,
    Table.isInteger_next]

theorem Layout.Created.hasRoom (h : l.Created db) : l.HasRoom db :=
  h.recorded.hasRoom_iff.2 (by decide)

-- Storage keeps just the values that have a column and are not null.
theorem Layout.get?_stored_eq_some_iff {r : Record} {name : String} {value : Value} :
    (l.stored r).get? name = some value ↔
      r.get? name = some value ∧ value ≠ .null ∧ ∃ f ∈ l.persisted, f.name = name := by
  have hkeeps : l.keeps name value = true ↔ value ≠ .null ∧ ∃ f ∈ l.persisted, f.name = name := by
    rw [keeps, Bool.and_eq_true, List.any_eq_true, and_comm, Bool.not_eq_true', ← Bool.not_eq_true,
      Value.isNull_iff]
    simp only [beq_iff_eq]
  rw [stored, SortedMap.get?_filter, Option.filter_eq_some_iff, hkeeps]

namespace Version

variable {v : Version}

-- What comes back of a version of whole milliseconds is the version, of its record what is stored.
theorem version_stored (hwhole : l.IsWholeMilli v.record) (hfrom : v.validFrom.IsWholeMilli)
    (hto : ∀ stop ∈ v.validTo, stop.IsWholeMilli) (w : Recorder) (pid : Int) :
    (v.stored l w.time).restored.version pid =
      { pid := some pid, record := l.stored v.record, validFrom := v.validFrom, validTo := v.validTo
        modified := some w.time } := by
  have hrecord : (l.stored v.record).restored = l.stored v.record :=
    Layout.restored_eq_self (Layout.stored_stored _) (Layout.isWholeMilli_stored hwhole)
  have hstop : (v.validTo.map Instant.toMillis).map Instant.ofMillis = v.validTo := by
    cases hvalid : v.validTo with
    | none => rfl
    | some stop => exact congrArg some (Instant.ofMillis_toMillis (hto stop hvalid))
  have hmodified : Instant.ofMillis w.time.toMillis = w.time := w.time_truncated
  simp only [StoredVersion.version, StoredVersion.restored, stored, hrecord, hstop, hmodified,
    Instant.ofMillis_toMillis hfrom]

end Version

theorem Recorder.insertVersion_eq_ok {w : Recorder} {v new : Version} {after : Database}
    (h : w.insertVersion l v db = (.ok new, after)) :
    ∃ pid, w.insertRow l v db = (.ok pid, after) ∧
      new = { v with pid := some pid, modified := some w.time } := by
  unfold insertVersion at h
  split at h
  · cases h
  · rename_i pid _ hinsert
    cases h
    exact ⟨pid, hinsert, rfl⟩

/-- A version of whole milliseconds whose record conforms is added to a table that has a number left.
Where all columns are read as such, a lookup of its key after that, at an instant at which the version
holds and nothing was found before, finds the version: its number, its times, the instant of the recorder
as that of the last change, and a record with just those values of the given one that have a column and
are not null. -/
theorem fetchAt_insertVersion (hplain : l.NamesPlain) (htable : l.HasTable db) {v : Version}
    (hconforms : l.conforms v.record = true) (hwhole : l.IsWholeMilli v.record)
    (hfrom : v.validFrom.IsWholeMilli) (hto : ∀ stop ∈ v.validTo, stop.IsWholeMilli) (w : Recorder) :
    (l.HasRoom db → ∃ new after, w.insertVersion l v db = (.ok new, after)) ∧
      ∀ new after, w.insertVersion l v db = (.ok new, after) →
        ∃ pid, new = { v with pid := some pid, modified := some w.time } ∧
          ∀ asOf : Instant, v.validFrom.toMillis ≤ asOf.toMillis →
            (∀ stop ∈ v.validTo, asOf.toMillis < stop.toMillis) →
            Recorder.fetchAt l (v.record.valueOrNull l.key) asOf db = .ok none →
            ∃ found,
              Recorder.fetchAt l (v.record.valueOrNull l.key) asOf after = .ok (some found) ∧
              found.pid = some pid ∧ found.validFrom = v.validFrom ∧ found.validTo = v.validTo ∧
              found.modified = some w.time ∧
              (∀ name value, found.record.get? name = some value ↔
                v.record.get? name = some value ∧ value ≠ .null ∧ ∃ f ∈ l.persisted, f.name = name) ∧
              l.samePersisted found.record v.record = true := by
  obtain ⟨t, ht, hdesign⟩ := htable.exists_table
  constructor
  · rintro ⟨now, hnow, hinteger⟩
    rw [ht, Option.some.injEq] at hnow
    rw [← hnow] at hinteger
    have hinsert := Recorder.insertRow_of_table ht hdesign w hconforms
    rw [if_pos hinteger] at hinsert
    exact ⟨_, _, by rw [Recorder.insertVersion, hinsert]⟩
  · intro new after hinserted
    obtain ⟨pid, hinsert, rfl⟩ := Recorder.insertVersion_eq_ok hinserted
    refine ⟨pid, rfl, fun asOf hbegun hgoes hnone => ?_⟩
    have hfetch := Recorder.fetchAt_insertRow hplain ht hdesign hconforms hinsert
      (Layout.key_fits hconforms) (v.hasKey_stored w.time) (Version.holdsAt_stored hbegun hgoes w.time) hnone
    rw [Version.version_stored hwhole hfrom hto] at hfetch
    refine ⟨_, hfetch, rfl, rfl, rfl, rfl, fun name value => Layout.get?_stored_eq_some_iff, ?_⟩
    rw [Layout.samePersisted_stored, Layout.samePersisted_iff]
    exact fun _ _ => rfl

/-! ### A small register -/

/-- A register of readings in which a reading may do without its sensor, with a value of each type and
a remark that is not stored. -/
def readingLayout : Layout where
  table := "reading"
  key := "sensor"
  fields := [(Field.required "sensor" 8).asOptional, (Field.required "count" 4).withType .integer,
    (Field.required "amount" 9).withType .decimal, (Field.required "taken" 14).withType .datetime,
    (Field.required "remark" 20).notPersisted]
  table_identifier := by decide
  names_identifier := by decide
  names_nodup := by decide
  key_persisted := ⟨_, List.mem_cons_self .., rfl, rfl⟩

/-- A reading of no sensor, taken before 1970 and valid from before 1970 to 1970. -/
def earlyReading : Version :=
  .unstored (.ofList [("count", .integer 7), ("amount", .decimal ⟨-1250, by decide⟩),
    ("taken", .datetime (.ofMillis (-86400001))), ("remark", .text "cold")])
    (.ofMillis (-1000)) (some (.ofMillis 0))

theorem readingLayout_created : readingLayout.Created (readingLayout.createTable .empty).2 :=
  Layout.created_of_isOk rfl (by decide +kernel)

theorem readingLayout_plain : readingLayout.NamesPlain := by decide +kernel

theorem fetchAt_insertVersion_early :
    ∃ new after found, (Recorder.pinnedAt .epoch).insertVersion readingLayout earlyReading
        (readingLayout.createTable .empty).2 = (.ok new, after) ∧
      Recorder.fetchAt readingLayout .null (.ofMillis (-1)) after = .ok (some found) ∧
      found.validFrom = .ofMillis (-1000) ∧
      found.record.get? "amount" = some (.decimal ⟨-1250, by decide⟩) ∧
      found.record.get? "remark" = none := by
  have hconforms : readingLayout.conforms earlyReading.record = true := by decide +kernel
  have hwhole : readingLayout.IsWholeMilli earlyReading.record := by decide +kernel
  have hfrom : earlyReading.validFrom.IsWholeMilli := by decide +kernel
  have hto : ∀ stop ∈ earlyReading.validTo, stop.IsWholeMilli := by decide +kernel
  obtain ⟨hadded, hfound⟩ := fetchAt_insertVersion readingLayout_plain readingLayout_created.hasTable
    hconforms hwhole hfrom hto (.pinnedAt .epoch)
  obtain ⟨new, after, hinsert⟩ := hadded readingLayout_created.hasRoom
  obtain ⟨pid, -, hlookup⟩ := hfound new after hinsert
  have hnone : Recorder.fetchAt readingLayout .null (.ofMillis (-1))
      (readingLayout.createTable .empty).2 = .ok none :=
    readingLayout_created.recorded.fetchAt_none readingLayout_plain.key readingLayout_plain.queryFault? rfl rfl
  obtain ⟨found, hfetch, -, hvalid, -, -, hvalues, -⟩ :=
    hlookup (.ofMillis (-1)) (by decide +kernel) (by decide +kernel) hnone
  refine ⟨new, after, found, hinsert, hfetch, hvalid, (hvalues _ _).2 (by decide +kernel), ?_⟩
  cases hremark : found.record.get? "remark" with
  | none => rfl
  | some value =>
    -- a remark has no column
    obtain ⟨-, -, f, hf, hname⟩ := (hvalues _ _).1 hremark
    exact absurd hname (by revert f; decide +kernel)

/-! ### A word for the clock -/

-- A lookup finds the row of the version and reads the clock in it, which is no number.
theorem not_fetchAt_insertVersion_moment :
    momentLayout.Created (momentLayout.createTable .empty).2 ∧
      momentLayout.conforms (moments "gate" (some 7)) = true ∧
      momentLayout.IsWholeMilli (moments "gate" (some 7)) ∧
      Recorder.fetchAt momentLayout (.text "gate") (.ofMillis 0) (momentLayout.createTable .empty).2 =
        .ok none ∧
      ∃ new after, (Recorder.pinnedAt .epoch).insertVersion momentLayout
          (.unstored (moments "gate" (some 7)) (.ofMillis 0) none) (momentLayout.createTable .empty).2 =
            (.ok new, after) ∧ new.pid = some 1 ∧
        Recorder.fetchAt momentLayout (.text "gate") (.ofMillis 0) after = .error clockFault :=
  ⟨momentLayout_created, by decide +kernel, by decide +kernel, by decide +kernel,
    { Version.unstored (moments "gate" (some 7)) (.ofMillis 0) none with
      pid := some 1, modified := some (.ofMillis 0) },
    ((Recorder.pinnedAt .epoch).insertVersion momentLayout
      (.unstored (moments "gate" (some 7)) (.ofMillis 0) none) (momentLayout.createTable .empty).2).2,
    by decide +kernel, rfl, by decide +kernel⟩

end Registry
