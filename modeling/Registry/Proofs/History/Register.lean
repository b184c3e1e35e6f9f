import Registry.Proofs.History.Recorded

/-!
# Register — a register whose versions come back as they were

`Kept l db versions given` says that the table of a layout is there, has the rows of just these
versions and has given the numbers up to `given`, and that each version comes back from its row as it
was.  Its lookups find the versions that have the very key.
-/

namespace Registry

/-! ## Versions -/

namespace Versions

/-- The versions of a key that hold at a time. -/
def current (versions : Versions) (l : Layout) (key : Value) (ms : Int) :
    List (Int × StoredVersion) :=
  versions.entries.filter fun e => decide (e.2.key l = key) && e.2.holdsAt ms

/-- The versions after those of a key that hold on to a time or beyond are closed at it. -/
def closeKey (versions : Versions) (l : Layout) (key : Value) (stop modified : Int) : Versions :=
  versions.map fun _ v =>
    if decide (v.key l = key) && v.reaches stop then v.closedAt stop modified else v

/-- The versions after that of a number is closed at a time. -/
def closeOne (versions : Versions) (pid stop modified : Int) : Versions :=
  versions.map fun id v => if decide (id = pid) then v.closedAt stop modified else v

theorem mem_current {versions : Versions} {l : Layout} {key : Value} {ms : Int}
    {e : Int × StoredVersion} :
    e ∈ versions.current l key ms ↔
      e ∈ versions.entries ∧ e.2.key l = key ∧ e.2.holdsAt ms = true := by
  rw [current, List.mem_filter, Bool.and_eq_true, decide_eq_true_eq]

end Versions

namespace StoredVersion

variable {l : Layout} {v : StoredVersion}

theorem IsSound.closedAt (h : v.IsSound l) {stop : Int} (hstop : Instant.MillisInRange stop)
    (modified : Int) : (v.closedAt stop modified).IsSound l where
  conforms := h.conforms
  isWholeMilli := h.isWholeMilli
  stored := h.stored
  validFrom := h.validFrom
  validTo := by
    intro s hs
    cases hs
    exact hstop

theorem IsSound.rewrittenAt (h : v.IsSound l) (stop : Instant) :
    v.rewrittenAt stop = v.closedAt stop.toMillis stop.toMillis := by
  rw [StoredVersion.rewrittenAt, Layout.restored_eq_self h.stored h.isWholeMilli,
    Instant.toMillis_ofMillis h.validFrom]
  rfl

end StoredVersion

/-! ## The register -/

/-- The table of the layout keeps these versions and has given these numbers. -/
structure Kept (l : Layout) (db : Database) (versions : Versions) (given : Nat) : Prop where
  table : ∃ t, db.table? l.table = some t ∧ t.toTableDesign = l.design ∧
    t.rows = Table.rowsOf l versions ∧ t.lastId = given
  sound : ∀ e ∈ versions.entries, e.2.IsSound l
  numbered : ∀ e ∈ versions.entries, e.1 ≤ given

-- A table that has just been created keeps no version.
theorem Layout.Created.kept {l : Layout} {db : Database} (h : l.Created db) :
    Kept l db .empty 0 :=
  ⟨h.exists_table, (fun _ he => by cases he), (fun _ he => by cases he)⟩

theorem Recorded.kept {l : Layout} {db : Database} {versions : Versions} {given : Nat}
    (h : Recorded l db versions given) (hsound : ∀ e ∈ versions.entries, e.2.IsSound l) :
    Kept l db versions given :=
  ⟨h.table, hsound, h.numbered⟩

namespace Kept

variable {l : Layout} {db : Database} {versions : Versions} {given : Nat}

theorem recorded (h : Kept l db versions given) : Recorded l db versions given :=
  ⟨h.table, fun e he => (h.sound e he).isWritten, h.numbered⟩

/-! ### Lookups -/

-- A lookup finds the versions of the very key.
theorem found_eq (h : Kept l db versions given) {key : Value}
    (hfits : key.fits l.keyField.type = true) (hwhole : key.IsWholeMilli) (ms : Int) :
    versions.found l key ms = versions.current l key ms := by
  apply List.filter_congr
  intro e he
  rw [(h.sound e he).hasKey_eq hfits hwhole]

theorem fetchAt_none (h : Kept l db versions given) (hplain : l.NamesPlain) {key : Value}
    (hfits : key.fits l.keyField.type = true) (hwhole : key.IsWholeMilli) {asOf : Instant}
    (hcurrent : versions.current l key asOf.toMillis = []) :
    Recorder.fetchAt l key asOf db = .ok none :=
  h.recorded.fetchAt_none hplain.key hplain.queryFault? hfits
    ((h.found_eq hfits hwhole _).trans hcurrent)

theorem fetchAt_some (h : Kept l db versions given) (hplain : l.NamesPlain) {key : Value}
    (hfits : key.fits l.keyField.type = true) (hwhole : key.IsWholeMilli) {asOf : Instant}
    {e : Int × StoredVersion} (hcurrent : versions.current l key asOf.toMillis = [e]) :
    Recorder.fetchAt l key asOf db = .ok (some (e.2.version e.1)) := by
  have hmem : e ∈ versions.current l key asOf.toMillis := by
    rw [hcurrent]
    exact List.mem_cons_self ..
  have hsound := h.sound e (Versions.mem_current.1 hmem).1
  rw [h.recorded.fetchAt_some hplain hfits ((h.found_eq hfits hwhole _).trans hcurrent),
    hsound.restored_eq]

/-! ### Writes -/

-- The versions of a key that hold on to an instant or beyond are closed at it.
theorem terminateAt_eq (h : Kept l db versions given) (hsense : senseOf l.key = .column) (w : Recorder)
    {r : Record}
    (hfits : (r.valueOrNull l.key).fits l.keyField.type = true)
    (hwhole : (r.valueOrNull l.key).IsWholeMilli) {stop : Instant} (hstop : stop.isLeap = false) :
    ∃ count db', w.terminateAt l r stop db = (.ok count, db') ∧
      Kept l db' (versions.closeKey l (r.valueOrNull l.key) stop.toMillis w.time.toMillis) given := by
  obtain ⟨db', hrun, hrecorded⟩ := h.recorded.terminateAt_eq hsense w hfits stop
  have hclosed : (versions.map fun _ v =>
      if v.hasKey l (r.valueOrNull l.key) && v.reaches stop.toMillis then
        v.closedAt stop.toMillis w.time.toMillis else v) =
      versions.closeKey l (r.valueOrNull l.key) stop.toMillis w.time.toMillis := by
    apply SortedMap.ext_entries
    apply List.map_congr_left
    intro e he
    dsimp only
    rw [(h.sound e he).hasKey_eq hfits hwhole]
  rw [hclosed] at hrecorded
  refine ⟨_, db', hrun, hrecorded.kept fun changed hchanged => ?_⟩
  obtain ⟨e, he, rfl⟩ := List.mem_map.1 hchanged
  dsimp only
  split
  · exact (h.sound e he).closedAt (Instant.inRange_toMillis hstop) _
  · exact h.sound e he

theorem isSound_opened (w : Recorder) {r : Record} (hconforms : l.conforms r = true)
    (hwhole : l.IsWholeMilli r) : ((w.openVersion r).stored l w.time).IsSound l :=
  Version.isSound_stored hconforms hwhole w.isLeap_time (fun _ hstop => by cases hstop) w.time

theorem isSound_insert (hsound : ∀ e ∈ versions.entries, e.2.IsSound l) {v : StoredVersion}
    (hv : v.IsSound l) (pid : Int) : ∀ e ∈ (versions.insert pid v).entries, e.2.IsSound l := by
  intro e he
  rcases SortedMap.mem_insertEntry he with rfl | he
  · exact hv
  · exact hsound e he

/-! ### Reconciliation -/

theorem reconcile_absent (h : Kept l db versions given) (hplain : l.NamesPlain) (w : Recorder)
    {r : Record}
    (hroom : given + 1 < 2 ^ 63 ∨ ∃ answer, (w.reconcile l r db).1 = .ok answer)
    (hconforms : l.conforms r = true) (hwhole : l.IsWholeMilli r)
    (hcurrent : versions.current l (r.valueOrNull l.key) w.time.toMillis = []) :
    ∃ db', w.reconcile l r db = (.ok (.inserted (given + 1 : Nat)), db') ∧
      Kept l db' (versions.insert (given + 1 : Nat) ((w.openVersion r).stored l w.time))
        (given + 1) := by
  have hfound := (h.found_eq (Layout.key_fits hconforms) (Layout.key_isWholeMilli hwhole) _).trans hcurrent
  obtain ⟨db', hrun, hrecorded⟩ := h.recorded.reconcile_absent hplain w hroom hconforms hfound
  exact ⟨db', hrun, hrecorded.kept (isSound_insert h.sound (isSound_opened w hconforms hwhole) _)⟩

theorem reconcile_same (h : Kept l db versions given) (hplain : l.NamesPlain) (w : Recorder)
    {r : Record}
    (hconforms : l.conforms r = true) (hwhole : l.IsWholeMilli r) {e : Int × StoredVersion}
    (hcurrent : versions.current l (r.valueOrNull l.key) w.time.toMillis = [e])
    (hsame : l.samePersisted e.2.record r = true) :
    w.reconcile l r db = (.ok (.unchanged e.1), db) := by
  have hmem : e ∈ versions.current l (r.valueOrNull l.key) w.time.toMillis := by
    rw [hcurrent]
    exact List.mem_cons_self ..
  have hsound := h.sound e (Versions.mem_current.1 hmem).1
  have hfound := (h.found_eq (Layout.key_fits hconforms) (Layout.key_isWholeMilli hwhole) _).trans hcurrent
  rw [← Layout.restored_eq_self hsound.stored hsound.isWholeMilli] at hsame
  exact h.recorded.reconcile_same hplain w hconforms hfound hsame

theorem setOne_eq_closeOne {pid : Int} {old : StoredVersion} (hold : (pid, old) ∈ versions.entries)
    (stop modified : Int) :
    versions.setOne pid (old.closedAt stop modified) = versions.closeOne pid stop modified := by
  apply SortedMap.ext_entries
  rw [Versions.setOne, Versions.closeOne, SortedMap.map, SortedMap.map]
  apply List.map_congr_left
  rintro ⟨id, v⟩ he
  by_cases hid : id = pid
  · subst hid
    have hget := SortedMap.mem_entries_iff.1 he
    rw [SortedMap.mem_entries_iff.1 hold] at hget
    rw [Option.some.inj hget]
  · simp only [decide_eq_false hid, Bool.false_eq_true, if_false]

theorem reconcile_different (h : Kept l db versions given) (hplain : l.NamesPlain) (w : Recorder)
    {r : Record}
    (hroom : given + 1 < 2 ^ 63 ∨ ∃ answer, (w.reconcile l r db).1 = .ok answer)
    (hconforms : l.conforms r = true) (hwhole : l.IsWholeMilli r) {e : Int × StoredVersion}
    (hcurrent : versions.current l (r.valueOrNull l.key) w.time.toMillis = [e])
    (hdifferent : l.samePersisted e.2.record r = false) :
    ∃ db', w.reconcile l r db = (.ok (.replaced e.1 (given + 1 : Nat)), db') ∧
      Kept l db' ((versions.closeOne e.1 w.time.toMillis w.time.toMillis).insert (given + 1 : Nat)
        ((w.openVersion r).stored l w.time)) (given + 1) := by
  have hmem : e ∈ versions.current l (r.valueOrNull l.key) w.time.toMillis := by
    rw [hcurrent]
    exact List.mem_cons_self ..
  have hold := (Versions.mem_current.1 hmem).1
  have hsound := h.sound e hold
  have hfound := (h.found_eq (Layout.key_fits hconforms) (Layout.key_isWholeMilli hwhole) _).trans hcurrent
  rw [← Layout.restored_eq_self hsound.stored hsound.isWholeMilli] at hdifferent
  obtain ⟨db', hrun, hrecorded⟩ := h.recorded.reconcile_different hplain w hroom hconforms hfound hdifferent
  rw [hsound.rewrittenAt, setOne_eq_closeOne hold] at hrecorded
  refine ⟨db', hrun, hrecorded.kept (isSound_insert (fun changed hchanged => ?_)
    (isSound_opened w hconforms hwhole) _)⟩
  obtain ⟨old, hmem, rfl⟩ := List.mem_map.1 hchanged
  dsimp only
  split
  · exact (h.sound old hmem).closedAt (Instant.inRange_toMillis w.isLeap_time) _
  · exact h.sound old hmem

end Kept

end Registry
