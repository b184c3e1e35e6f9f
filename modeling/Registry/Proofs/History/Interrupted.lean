import Registry.Proofs.Database.RowChange
import Registry.Proofs.History.Redelivery
import Registry.Proofs.History.Written

/-!
# Interrupted — what a reconciliation that fails has already done

A single statement that fails changes nothing, unless it finds the database full and undoes the open
transaction.  A reconciliation may do two, and the record is looked at only before the second: where that
one refuses the record, the version that held is closed already, and nothing takes its place.
-/

namespace Registry

/-! ## Statements that change no row -/

theorem Table.update_eq_self {t t' : Table} {names : List String} {values : Int → Cells → List Cell}
    {test : Int → Cells → Bool} (h : t.update names values test = .ok (0, t')) : t' = t := by
  unfold update at h
  dsimp only at h
  split at h
  · cases htouched : t.rows.entries.filter fun e => test e.1 e.2 with
    | nil =>
      rw [htouched] at h
      cases h
      rfl
    | cons e rest =>
      rw [htouched] at h
      cases hset : t.setAll names values (e :: rest) with
      | error fault =>
        rw [hset] at h
        cases h
      | ok new =>
        rw [hset] at h
        cases h
  · split at h
    · cases h
    · rw [Except.ok.injEq, Prod.mk.injEq, List.length_eq_zero_iff, List.filter_eq_nil_iff] at h
      obtain ⟨hnone, rfl⟩ := h
      -- every row is mapped to itself
      have hrows : (t.rows.map fun id cells =>
          if test id cells then t.assign (names.zip (values id cells)) cells else cells) = t.rows := by
        rw [SortedMap.mk.injEq]
        refine (List.map_congr_left fun e he => ?_).trans (List.map_id' _)
        dsimp only
        rw [if_neg (hnone e he)]
      rw [hrows]

theorem Database.table?_update_zero {db after : Database} {name : String} {assignments : Cells}
    {conditions : List Condition} (h : db.update name assignments conditions = .ok (0, after)) :
    after.table? name = db.table? name := by
  obtain ⟨t, t', htable, hupdate, hafter⟩ := update_eq_ok h
  rw [hafter, htable, Table.update_eq_self hupdate]

namespace Recorder

variable {w : Recorder} {l : Layout} {r : Record} {v : Version} {db after : Database}
  {fault : HistoryFault}

theorem table?_insertRow_error (h : w.insertRow l v db = (.error fault, after))
    (hlasts : db.Lasts (.error fault : Except HistoryFault Int)) (name : String) :
    after.table? name = db.table? name := by
  unfold insertRow at h
  split at h
  · cases h
    rfl
  · split at h
    · cases h
      rfl
    · split at h
      · cases h
        exact Database.table?_refused hlasts name
      · cases h

theorem table?_update_error (h : w.update l v db = (.error fault, after)) :
    after.table? l.table = db.table? l.table := by
  have hroom : fault ≠ .database .full := by
    rintro rfl
    exact w.update_ne_full l v db (congrArg Prod.fst h)
  unfold update at h
  split at h
  · cases h
    rfl
  · split at h
    · cases h
      rfl
    · split at h
      · cases h
        rfl
      · split at h
        · cases h
          exact Database.table?_refused (α := Version)
            (Database.lasts_of_ne fun hfull => hroom (Except.error.inj hfull)) l.table
        · -- no row has the number, which is known only once the statement is done
          rename_i hupdate
          cases h
          exact Database.table?_update_zero hupdate
        · cases h

/-! ## Reconciliations that fail -/

/-- The version that held was closed because a record says something else of its key, and then the
record was refused. -/
structure LeftClosed (w : Recorder) (l : Layout) (r : Record) (db : Database) (v : Version)
    (fault : HistoryFault) (after : Database) : Prop where
  found : w.fetchCurrent l (r.valueOrNull l.key) db = .ok (some v)
  different : l.samePersisted v.record r = false
  closed : ∃ now closed, w.update l { v with validTo := some w.time } db = (.ok now, closed) ∧
    w.insertRow l (w.openVersion r) closed = (.error fault, after) ∧
    after.table? l.table = closed.table? l.table

theorem add_eq_error {tell : Int → Reconciliation} (h : w.add l r tell db = (.error fault, after)) :
    w.insertRow l (w.openVersion r) db = (.error fault, after) := by
  rw [add_eq] at h
  split at h
  · rename_i hinsert
    cases h
    exact hinsert
  · cases h

-- A reconciliation that does not undo a transaction ends before its first statement, with it, or with
-- the one after the closing.
theorem reconcile_eq_error (h : w.reconcile l r db = (.error fault, after))
    (hlasts : db.Lasts (.error fault : Except HistoryFault Int)) :
    ((∀ v, w.fetchCurrent l (r.valueOrNull l.key) db ≠ .ok (some v)) ∧
        after.table? l.table = db.table? l.table) ∨
      (∃ v, w.fetchCurrent l (r.valueOrNull l.key) db = .ok (some v) ∧
        w.update l { v with validTo := some w.time } db = (.error fault, after)) ∨
      ∃ v, w.LeftClosed l r db v fault after := by
  rw [reconcile_eq] at h
  cases hfetch : w.fetchCurrent l (r.valueOrNull l.key) db with
  | error lookupFault =>
    rw [hfetch] at h
    cases h
    exact .inl ⟨(fun _ hfound => by cases hfound), rfl⟩
  | ok found =>
    rw [hfetch] at h
    cases found with
    | none =>
      exact .inl ⟨(fun _ hfound => by cases hfound), table?_insertRow_error (add_eq_error h) hlasts _⟩
    | some v =>
      right
      unfold settle at h
      dsimp only at h
      cases hpid : v.pid with
      | none =>
        rw [hpid] at h
        cases h
        refine .inl ⟨v, rfl, ?_⟩
        simp only [update, hpid]
      | some pid =>
        simp only [hpid] at h
        split at h
        · cases h
        · rename_i hdifferent
          have hbegun := w.begun_update l { v with validTo := some w.time } db
          rcases hclosing : w.update l { v with validTo := some w.time } db with ⟨closingFault | now, mid⟩
          · simp only [hpid] at hclosing
            rw [hclosing] at h
            cases h
            refine .inl ⟨v, rfl, ?_⟩
            simp only [hpid, hclosing]
          · rw [hclosing] at hbegun
            simp only [hpid] at hclosing
            rw [hclosing] at h
            have hinsert := add_eq_error h
            have hsame := table?_insertRow_error hinsert (fun hfull => hbegun.trans (hlasts hfull)) l.table
            refine .inr ⟨v, hfetch, by simpa using hdifferent, ⟨now, mid, ?_, hinsert, hsame⟩⟩
            simp only [hpid, hclosing]

end Recorder

/-! ## In a register -/

namespace Recorded

variable {l : Layout} {db after : Database} {versions : Versions} {given : Nat}

-- A record is refused for what its layout says of it, or because all numbers have been given.
theorem fault_of_insertRow (h : Recorded l db versions given) {w : Recorder} {v : Version}
    {fault : HistoryFault} (hinsert : w.insertRow l v db = (.error fault, after)) :
    fault = (l.fault? v.record).elim (.database .full) .record := by
  cases hfault : l.fault? v.record with
  | some recordFault =>
    rw [Recorder.insertRow, hfault] at hinsert
    cases hinsert
    rfl
  | none =>
    have hconforms : l.conforms v.record = true := by
      rw [Layout.conforms, hfault, Option.isNone_none]
    by_cases hroom : given + 1 < 2 ^ 63
    · obtain ⟨_, hok, -⟩ := h.insertRow_eq hroom w hconforms
      rw [hok] at hinsert
      cases hinsert
    · rw [h.insertRow_full hroom w hconforms] at hinsert
      cases hinsert
      rfl

-- Once the only version that holds is closed, a lookup of its key finds none.
theorem close (h : Recorded l db versions given) (hplain : l.NamesPlain) (w : Recorder) {key : Value}
    {v : Version} (hfound : w.fetchCurrent l key db = .ok (some v)) :
    ∃ now closed versions', w.update l { v with validTo := some w.time } db = (.ok now, closed) ∧
      Recorded l closed versions' given ∧ versions'.found l key w.time.toMillis = [] := by
  obtain ⟨e, hone, rfl⟩ := h.eq_of_fetchAt hplain hfound
  obtain ⟨hentry, -, -⟩ := Versions.mem_found.1 (hone ▸ List.mem_singleton_self e)
  obtain ⟨now, closed, hclose, hclosed⟩ := h.close_eq w hentry
  exact ⟨now, closed, _, hclose, hclosed, Versions.found_setOne hone rfl (Int.le_refl _)⟩

end Recorded

/-- A reconciliation that fails leaves the table as it was, or with the version that held closed and the
record refused, unless it finds the database full and undoes the open transaction.  In a register that
recorders have written and all columns of which are read as such, the table is as it was just when the
lookup of the key has found no version.  Where it has found one, nothing of the key holds any more, and
the fault is that of the record or says that all numbers have been given. -/
theorem table_reconcile_fault {w : Recorder} {l : Layout} {r : Record} {db after : Database}
    {fault : HistoryFault} (h : w.reconcile l r db = (.error fault, after)) :
    (after.table? l.table = db.table? l.table ∨ (∃ v, w.LeftClosed l r db v fault after) ∨
        fault = .database .full ∧ ∃ content, db.begun = some content ∧ Database.IsUndone content db after) ∧
      (l.NamesPlain → l.Written db → (fault = .database .full → db.begun = none) →
        (after.table? l.table = db.table? l.table ↔
          ∀ v, w.fetchCurrent l (r.valueOrNull l.key) db ≠ .ok (some v)) ∧
        ∀ v, w.fetchCurrent l (r.valueOrNull l.key) db = .ok (some v) →
          w.LeftClosed l r db v fault after ∧
            w.fetchCurrent l (r.valueOrNull l.key) after = .ok none ∧
            fault = (l.fault? r).elim (.database .full) .record) := by
  constructor
  · by_cases hlasts : db.Lasts (.error fault : Except HistoryFault Int)
    · rcases Recorder.reconcile_eq_error h hlasts with ⟨-, hsame⟩ | ⟨v, -, hupdate⟩ | hleft
      · exact .inl hsame
      · exact .inl (Recorder.table?_update_error hupdate)
      · exact .inr (.inl hleft)
    · -- the database was full, and a transaction was open
      have hfull : fault = .database .full := Classical.byContradiction fun hroom =>
        hlasts (Database.lasts_of_ne fun hfull => hroom (Except.error.inj hfull))
      cases hbegun : db.begun with
      | none => exact absurd (Database.lasts_of_begun hbegun) hlasts
      | some content =>
        have hundone := (w.isLocal_reconcile l r).undone db content hbegun (by rw [h, hfull])
        rw [h] at hundone
        exact .inr (.inr ⟨hfull, content, rfl, hundone⟩)
  · intro hplain hwritten hfull
    have hends := Recorder.reconcile_eq_error h fun heq => hfull (Except.error.inj heq)
    obtain ⟨versions, given, hrecorded⟩ := hwritten.isRecorded hplain.key
    -- The closing of a version that holds succeeds, so only the record can be refused.
    have hleft : ∀ v, w.fetchCurrent l (r.valueOrNull l.key) db = .ok (some v) →
        w.LeftClosed l r db v fault after ∧
          w.fetchCurrent l (r.valueOrNull l.key) after = .ok none ∧
          fault = (l.fault? r).elim (.database .full) .record := by
      intro v hfound
      have hfits := Recorder.fits_of_fetchAt hfound
      obtain ⟨now, closed, versions', hclose, hclosed, hnone⟩ := hrecorded.close hplain w hfound
      rcases hends with ⟨hnothing, -⟩ | ⟨v', hfound', hupdate⟩ | ⟨v', hleft⟩
      · exact absurd hfound (hnothing v)
      · rw [hfound] at hfound'
        cases hfound'
        rw [hclose] at hupdate
        cases hupdate
      · have hsame := hleft.found
        rw [hfound] at hsame
        cases hsame
        obtain ⟨now', closed', hclose', hrefused, hkept⟩ := hleft.closed
        rw [hclose] at hclose'
        cases hclose'
        exact ⟨hleft, (hclosed.congr hkept).fetchAt_none hplain.key hplain.queryFault? hfits hnone,
          hclosed.fault_of_insertRow hrefused⟩
    refine ⟨⟨fun hsame v hfound => ?_, fun hnothing => ?_⟩, hleft⟩
    · -- in the same table the same version would be found
      obtain ⟨-, hnone, -⟩ := hleft v hfound
      obtain ⟨e, hone, -⟩ := hrecorded.eq_of_fetchAt hplain hfound
      rw [Recorder.fetchCurrent, (hrecorded.congr hsame).fetchAt_some hplain
        (Recorder.fits_of_fetchAt hfound) hone] at hnone
      cases hnone
    · rcases hends with ⟨-, hsame⟩ | ⟨v, hfound, -⟩ | ⟨v, hleft⟩
      · exact hsame
      · exact absurd hfound (hnothing v)
      · exact absurd hleft.found (hnothing v)

/-! ### A small register -/

/-- The register of events, in which one was told a second after the epoch. -/
def bootTold : Database :=
  ((Recorder.pinnedAt (.ofMillis 1000)).reconcile eventLayout (event lastOf2016)
    (eventLayout.createTable .empty).2).2

/-- What is said of an event under a layout that does not know when events are. -/
def undated (name : String) : Record := .ofList [("name", .text name)]

-- An event that was never told is refused, and the table is as it was.
theorem table_reconcile_fault_halt :
    ∃ after, (Recorder.pinnedAt (.ofMillis 2000)).reconcile eventLayout (undated "halt") bootTold =
        (.error (.record (.missingField "at")), after) ∧
      after.table? "event" = bootTold.table? "event" := by
  have hwritten : eventLayout.Written bootTold :=
    .called (.pinnedAt (.ofMillis 1000)) (.reconcile (event lastOf2016)) (.created eventLayout_created)
      (Database.lasts_of_begun (by decide +kernel))
  have hrun : (Recorder.pinnedAt (.ofMillis 2000)).reconcile eventLayout (undated "halt") bootTold =
      (.error (.record (.missingField "at")), bootTold) := by decide +kernel
  have hnone : (Recorder.pinnedAt (.ofMillis 2000)).fetchCurrent eventLayout (.text "halt") bootTold =
      .ok none := by decide +kernel
  refine ⟨bootTold, hrun, ((table_reconcile_fault hrun).2 eventLayout_plain hwritten
    (fun _ => by decide +kernel)).1.2 fun v hfound => ?_⟩
  exact absurd (hnone.symm.trans hfound) (by simp)

-- An event that was told is closed before the record is refused.
theorem not_table_reconcile_fault_boot :
    ∃ v after, (Recorder.pinnedAt (.ofMillis 2000)).fetchCurrent eventLayout (.text "boot") bootTold =
        .ok (some v) ∧
      (Recorder.pinnedAt (.ofMillis 2000)).reconcile eventLayout (undated "boot") bootTold =
        (.error (.record (.missingField "at")), after) ∧
      after.table? "event" ≠ bootTold.table? "event" ∧
      (Recorder.pinnedAt (.ofMillis 2000)).fetchCurrent eventLayout (.text "boot") after = .ok none :=
  ⟨{ pid := some 1, record := event lastOf2016, validFrom := .ofMillis 1000, validTo := none
     modified := some (.ofMillis 1000) },
    ((Recorder.pinnedAt (.ofMillis 2000)).reconcile eventLayout (undated "boot") bootTold).2,
    by decide +kernel⟩

end Registry
