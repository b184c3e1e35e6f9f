import Registry.Proofs.History.Redelivery

/-!
# Permanence — what is written in a register stays

Calls that add versions or close them, on a table that its layout has created, take no row away and
change nothing of a row but its end and the time of its last change.  An end comes nearer and is not
taken back.  To close a version it is read and written again as a whole, which gives every column the
cell that it had, but for instants in leap seconds.
-/

namespace Registry

/-! ## Versions that last -/

namespace Value

-- A value outside of leap seconds comes back with the cell in which it was stored.
theorem cell_restored {v : Value} (h : ¬ v.IsLeap) : v.restored.cell = v.cell := by
  cases v with
  | datetime t =>
    rw [IsLeap, Bool.not_eq_true] at h
    have hmillis : t.truncated.toMillis = t.toMillis :=
      Instant.toMillis_ofMillis (Instant.inRange_toMillis h)
    rw [restored, cell, cell, Instant.cell, Instant.cell, hmillis]
  | _ => rfl

theorem not_isLeap_restored {v : Value} : ¬ v.restored.IsLeap := by
  cases v with
  | datetime t =>
    rw [restored, IsLeap, Instant.truncated, Instant.isLeap_ofMillis]
    exact Bool.false_ne_true
  | _ => exact id

end Value

namespace StoredVersion

/-- The version begins outside of leap seconds and no stored value of its record lies in one. -/
structure IsSteady (l : Layout) (v : StoredVersion) : Prop where
  validFrom : Instant.MillisInRange v.validFrom
  noLeap : ¬ l.HasLeap v.record

/-- Another version has the stored values and the beginning of this one, and ends no later. -/
structure Lasts (l : Layout) (v later : StoredVersion) : Prop where
  fields : ∀ f ∈ l.persisted,
    (later.record.valueOrNull f.name).cell = (v.record.valueOrNull f.name).cell
  validFrom : later.validFrom = v.validFrom
  validTo : ∀ stop ∈ v.validTo, ∃ stop' ∈ later.validTo, stop' ≤ stop

variable {l : Layout} {v later : StoredVersion}

theorem Lasts.refl (l : Layout) (v : StoredVersion) : v.Lasts l v :=
  ⟨fun _ _ => rfl, rfl, fun stop hstop => ⟨stop, hstop, Int.le_refl _⟩⟩

theorem Lasts.trans (h : v.Lasts l later) {last : StoredVersion} (h' : later.Lasts l last) :
    v.Lasts l last where
  fields f hf := (h'.fields f hf).trans (h.fields f hf)
  validFrom := h'.validFrom.trans h.validFrom
  validTo stop hstop := by
    obtain ⟨stop₁, hstop₁, hle₁⟩ := h.validTo stop hstop
    obtain ⟨stop₂, hstop₂, hle₂⟩ := h'.validTo stop₁ hstop₁
    exact ⟨stop₂, hstop₂, Int.le_trans hle₂ hle₁⟩

theorem lasts_closedAt {stop : Int} (hreaches : v.reaches stop = true) (modified : Int) :
    v.Lasts l (v.closedAt stop modified) where
  fields _ _ := rfl
  validFrom := rfl
  validTo s hs := ⟨stop, rfl, reaches_iff.1 hreaches s hs⟩

theorem IsSteady.closedAt (h : v.IsSteady l) (stop modified : Int) :
    (v.closedAt stop modified).IsSteady l :=
  ⟨h.validFrom, h.noLeap⟩

-- A version that is read while it holds and written again to close it is the same but for its end.
theorem IsSteady.lasts_rewrittenAt (h : v.IsSteady l) {stop : Instant}
    (hholds : v.holdsAt stop.toMillis = true) : v.Lasts l (v.rewrittenAt stop) where
  fields f hf := by
    show (v.record.restored.valueOrNull f.name).cell = _
    rw [Record.valueOrNull_restored]
    exact Value.cell_restored fun hleap => h.noLeap ⟨f, hf, hleap⟩
  validFrom := Instant.toMillis_ofMillis h.validFrom
  validTo s hs := ⟨stop.toMillis, rfl, Int.le_of_lt ((holdsAt_iff.1 hholds).2 s hs)⟩

theorem IsSteady.rewrittenAt (h : v.IsSteady l) (stop : Instant) :
    (v.rewrittenAt stop).IsSteady l where
  validFrom := by
    show Instant.MillisInRange (Instant.ofMillis v.validFrom).toMillis
    rw [Instant.toMillis_ofMillis h.validFrom]
    exact h.validFrom
  noLeap := by
    rintro ⟨f, -, hleap⟩
    have hvalue : (v.rewrittenAt stop).record.valueOrNull f.name =
      (v.record.valueOrNull f.name).restored := Record.valueOrNull_restored ..
    rw [hvalue] at hleap
    exact Value.not_isLeap_restored hleap

theorem isSteady_stored {v : Version} (hfrom : v.validFrom.isLeap = false)
    (hrecord : ¬ l.HasLeap v.record) (modified : Instant) : (v.stored l modified).IsSteady l where
  validFrom := Instant.inRange_toMillis hfrom
  noLeap := by
    rintro ⟨f, hf, hleap⟩
    have hvalue : (v.stored l modified).record.valueOrNull f.name = v.record.valueOrNull f.name :=
      Layout.valueOrNull_stored v.record hf
    rw [hvalue] at hleap
    exact hrecord ⟨f, hf, hleap⟩

-- Every column but two has the cell that it had.
theorem Lasts.cell_eq (h : v.Lasts l later) (hnames : l.NamesApart) {name : String}
    (hname : name ∈ l.columnNames) (hto : name ≠ validToColumn) (hmodified : name ≠ modifiedColumn) :
    later.cell name = v.cell name := by
  obtain ⟨c, hc, rfl⟩ := List.mem_map.1 hname
  rcases List.mem_append.1 hc with hc | hc
  · obtain ⟨f, hf, rfl⟩ := List.mem_map.1 hc
    show later.cell f.name = v.cell f.name
    rw [cell_field hnames later hf, cell_field hnames v hf, h.fields f hf]
  · simp only [timeColumns, List.mem_cons, List.not_mem_nil, or_false] at hc
    rcases hc with rfl | rfl | rfl
    · rw [cell_validFrom, cell_validFrom, h.validFrom]
    · exact absurd rfl hto
    · exact absurd rfl hmodified

end StoredVersion

namespace Versions

/-- The versions that were there are there still, and any others have later numbers. -/
structure GrowTo (l : Layout) (versions later : Versions) : Prop where
  kept : ∀ e ∈ versions.entries, ∃ v, (e.1, v) ∈ later.entries ∧ e.2.Lasts l v
  new : ∀ e' ∈ later.entries,
    (∃ e ∈ versions.entries, e.1 = e'.1) ∨ ∀ e ∈ versions.entries, e.1 < e'.1

variable {l : Layout} {versions later : Versions}

theorem GrowTo.refl (l : Layout) (versions : Versions) : versions.GrowTo l versions :=
  ⟨fun e he => ⟨e.2, he, .refl l _⟩, fun e he => .inl ⟨e, he, rfl⟩⟩

theorem GrowTo.trans (h : versions.GrowTo l later) {last : Versions} (h' : later.GrowTo l last) :
    versions.GrowTo l last where
  kept e he := by
    obtain ⟨v, hv, hlasts⟩ := h.kept e he
    obtain ⟨v', hv', hlasts'⟩ := h'.kept _ hv
    exact ⟨v', hv', hlasts.trans hlasts'⟩
  new e' he' := by
    rcases h'.new e' he' with ⟨mid, hmid, hid⟩ | hlater
    · rw [← hid]
      exact h.new mid hmid
    · -- later than all numbers in between, among which are those from before
      refine .inr fun e he => ?_
      obtain ⟨v, hv, -⟩ := h.kept e he
      exact hlater (e.1, v) hv

theorem growTo_map {change : Int → StoredVersion → StoredVersion}
    (h : ∀ e ∈ versions.entries, e.2.Lasts l (change e.1 e.2)) :
    versions.GrowTo l (versions.map change) where
  kept e he := ⟨change e.1 e.2, List.mem_map.2 ⟨e, he, rfl⟩, h e he⟩
  new e' he' := by
    obtain ⟨e, he, rfl⟩ := List.mem_map.1 he'
    exact .inl ⟨e, he, rfl⟩

theorem growTo_insert {pid : Int} (hnew : ∀ e ∈ versions.entries, e.1 < pid) (v : StoredVersion) :
    versions.GrowTo l (versions.insert pid v) where
  kept e he := by
    refine ⟨e.2, ?_, .refl l _⟩
    rw [entries_insert hnew]
    exact List.mem_append_left _ he
  new e' he' := by
    rcases SortedMap.mem_insertEntry he' with rfl | he
    · exact .inr hnew
    · exact .inl ⟨e', he, rfl⟩

end Versions

/-! ## What each call leaves -/

/-- The table of the layout keeps these versions, and all of them lie outside of leap seconds. -/
structure Steady (l : Layout) (db : Database) (versions : Versions) (given : Nat) : Prop where
  recorded : Recorded l db versions given
  steady : ∀ e ∈ versions.entries, e.2.IsSteady l

/-- The table of the layout keeps versions into which these have grown. -/
def Grown (l : Layout) (versions : Versions) (db : Database) : Prop :=
  ∃ later given, Steady l db later given ∧ versions.GrowTo l later

namespace Steady

variable {l : Layout} {db : Database} {versions : Versions} {given : Nat}

theorem grown (h : Steady l db versions given) : Grown l versions db :=
  ⟨versions, given, h, .refl l versions⟩

theorem insertRow (h : Steady l db versions given) (w : Recorder) {v : Version}
    (hfrom : v.validFrom.isLeap = false) (hrecord : ¬ l.HasLeap v.record)
    (hlasts : db.Lasts (w.insertRow l v db).1) : Grown l versions (w.insertRow l v db).2 := by
  cases hfault : l.fault? v.record with
  | some fault =>
    rw [Recorder.insertRow, hfault]
    exact h.grown
  | none =>
    have hconforms : l.conforms v.record = true := by
      rw [Layout.conforms, hfault, Option.isNone_none]
    by_cases hroom : given + 1 < 2 ^ 63
    · obtain ⟨after, hinsert, hafter⟩ := h.recorded.insertRow_eq hroom w hconforms
      rw [hinsert]
      refine ⟨_, _, ⟨hafter, fun e he => ?_⟩, Versions.growTo_insert h.recorded.lt_next _⟩
      rcases SortedMap.mem_insertEntry he with rfl | he
      · exact StoredVersion.isSteady_stored hfrom hrecord w.time
      · exact h.steady e he
    · rw [h.recorded.insertRow_full hroom w hconforms] at hlasts ⊢
      exact grown ⟨h.recorded.refused hlasts, h.steady⟩

theorem insertVersion (h : Steady l db versions given) (w : Recorder) {v : Version}
    (hfrom : v.validFrom.isLeap = false) (hrecord : ¬ l.HasLeap v.record)
    (hlasts : db.Lasts (w.insertVersion l v db).1) : Grown l versions (w.insertVersion l v db).2 := by
  rw [w.insertVersion_eq] at hlasts ⊢
  exact h.insertRow w hfrom hrecord (Database.lasts_of_told hlasts)

theorem add (h : Steady l db versions given) (w : Recorder) {r : Record} (hrecord : ¬ l.HasLeap r)
    {tell : Int → Recorder.Reconciliation} (hlasts : db.Lasts (w.add l r tell db).1) :
    Grown l versions (w.add l r tell db).2 :=
  h.insertRow w (v := w.openVersion r) w.isLeap_time hrecord (Database.lasts_of_told hlasts)

theorem terminateAt (h : Steady l db versions given) (hsense : senseOf l.key = .column) (w : Recorder)
    (r : Record) (stop : Instant) : Grown l versions (w.terminateAt l r stop db).2 := by
  by_cases hfits : (r.valueOrNull l.key).fits l.keyField.type = true
  · obtain ⟨after, hterminate, hafter⟩ := h.recorded.terminateAt_eq hsense w hfits stop
    rw [hterminate]
    refine ⟨_, _, ⟨hafter, fun e he => ?_⟩, Versions.growTo_map fun e he => ?_⟩
    · obtain ⟨old, hold, rfl⟩ := List.mem_map.1 he
      dsimp only
      split
      · exact (h.steady old hold).closedAt _ _
      · exact h.steady old hold
    · split
      · rename_i hclosed
        rw [Bool.and_eq_true] at hclosed
        exact StoredVersion.lasts_closedAt hclosed.2 _
      · exact .refl l _
  · simp only [Recorder.terminateAt, Field.cell, if_neg hfits]
    exact h.grown

-- To close a version that holds moves its end only.
theorem close (h : Steady l db versions given) (w : Recorder) {e : Int × StoredVersion}
    (hentry : e ∈ versions.entries) (hholds : e.2.holdsAt w.time.toMillis = true) :
    Grown l versions
      (w.update l { e.2.restored.version e.1 with validTo := some w.time } db).2 := by
  obtain ⟨_, after, hclose, hafter⟩ := h.recorded.close_eq w hentry
  rw [hclose]
  refine ⟨_, _, ⟨hafter, fun now hnow => ?_⟩, Versions.growTo_map fun other hother => ?_⟩
  · obtain ⟨old, hold, rfl⟩ := List.mem_map.1 hnow
    dsimp only
    split
    · exact (h.steady e hentry).rewrittenAt w.time
    · exact h.steady old hold
  · split
    · rename_i hid
      rw [SortedMap.entry_eq hother hentry (of_decide_eq_true hid)]
      exact (h.steady e hentry).lasts_rewrittenAt hholds
    · exact .refl l _

theorem reconcile (h : Steady l db versions given) (hplain : l.NamesPlain) (w : Recorder) {r : Record}
    (hrecord : ¬ l.HasLeap r) (hlasts : db.Lasts (w.reconcile l r db).1) :
    Grown l versions (w.reconcile l r db).2 := by
  rw [w.reconcile_eq] at hlasts ⊢
  cases hfetch : w.fetchCurrent l (r.valueOrNull l.key) db with
  | error fault => exact h.grown
  | ok answer =>
    rw [hfetch] at hlasts
    cases answer with
    | none => exact h.add w hrecord hlasts
    | some existing =>
      obtain ⟨e, hfound, rfl⟩ := h.recorded.eq_of_fetchAt hplain hfetch
      obtain ⟨hentry, -, hholds⟩ := Versions.mem_found.1 (hfound ▸ List.mem_singleton_self e)
      have hclosed := h.close w hentry hholds
      unfold Recorder.settle at hlasts ⊢
      dsimp only [StoredVersion.version] at hclosed hlasts ⊢
      split
      · exact h.grown
      · -- The record is added only where the version before it was closed.
        rename_i hdifferent
        rw [if_neg hdifferent] at hlasts
        unfold Recorder.succeed at hlasts ⊢
        have hbegun := w.begun_update l { e.2.restored.version e.1 with validTo := some w.time } db
        dsimp only [StoredVersion.version] at hbegun
        generalize w.update l _ db = closing at hclosed hbegun hlasts ⊢
        rcases closing with ⟨fault | v, mid⟩
        · exact hclosed
        · obtain ⟨between, given₁, h₁, hgrow₁⟩ := hclosed
          obtain ⟨later, given₂, h₂, hgrow₂⟩ :=
            h₁.add w hrecord fun hfull => hbegun.trans (hlasts hfull)
          exact ⟨later, given₂, h₂, hgrow₁.trans hgrow₂⟩

end Steady

/-! ## Any number of calls -/

/-- The request adds versions, closes versions or reads, and no instant that it gives to a version lies
in a leap second. -/
def EngineRequest.Appends (l : Layout) : EngineRequest → Prop
  | .fetch .. | .terminate _ | .terminateAt .. => True
  | .insert r | .reconcile r => ¬ l.HasLeap r
  | .insertVersion v => v.validFrom.isLeap = false ∧ ¬ l.HasLeap v.record
  | .update _ => False

instance (l : Layout) : (request : EngineRequest) → Decidable (request.Appends l)
  | .fetch .. | .terminate _ | .terminateAt .. => .isTrue trivial
  | .insert r | .reconcile r => inferInstanceAs (Decidable (¬ l.HasLeap r))
  | .insertVersion v => inferInstanceAs (Decidable (v.validFrom.isLeap = false ∧ ¬ l.HasLeap v.record))
  | .update _ => .isFalse id

/-- The database after calls of some recorders, one behind the other, whatever they answer. -/
def Layout.written (l : Layout) (calls : List (Recorder × EngineRequest)) (db : Database) : Database :=
  calls.foldl (fun db c => (EngineCall.run c.1 ⟨l, c.2⟩ db).2) db

/-- No call finds the database full while a transaction is open, which it would undo. -/
def Layout.Lasting (l : Layout) : List (Recorder × EngineRequest) → Database → Prop
  | [], _ => True
  | c :: rest, db => db.Lasts (EngineCall.run c.1 ⟨l, c.2⟩ db).1 ∧
      l.Lasting rest (EngineCall.run c.1 ⟨l, c.2⟩ db).2

-- Outside of transactions there is nothing to undo.
theorem Layout.lasting_of_begun {l : Layout} {db : Database} (h : db.begun = none)
    (calls : List (Recorder × EngineRequest)) : l.Lasting calls db := by
  induction calls generalizing db with
  | nil => trivial
  | cons c rest ih => exact ⟨Database.lasts_of_begun h, ih (EngineCall.begun_run h c.1 ⟨l, c.2⟩)⟩

theorem Layout.lasting_append {l : Layout} {calls more : List (Recorder × EngineRequest)} {db : Database} :
    l.Lasting (calls ++ more) db ↔ l.Lasting calls db ∧ l.Lasting more (l.written calls db) := by
  induction calls generalizing db with
  | nil => exact (and_iff_right trivial).symm
  | cons c rest ih => exact (and_congr_right' ih).trans and_assoc.symm

theorem Layout.Written.calls {l : Layout} {db : Database} (h : l.Written db)
    {calls : List (Recorder × EngineRequest)} (hlasting : l.Lasting calls db) :
    l.Written (l.written calls db) := by
  induction calls generalizing db with
  | nil => exact h
  | cons c rest ih => exact ih (h.called c.1 c.2 hlasting.1) hlasting.2

namespace Steady

variable {l : Layout} {db : Database} {versions : Versions} {given : Nat}

theorem run (h : Steady l db versions given) (hplain : l.NamesPlain) (w : Recorder)
    {request : EngineRequest} (happends : request.Appends l)
    (hlasts : db.Lasts (EngineCall.run w ⟨l, request⟩ db).1) :
    Grown l versions (EngineCall.run w ⟨l, request⟩ db).2 := by
  cases request with
  | fetch column key asOf => exact h.grown
  | insert r => exact h.insertVersion w w.isLeap_time happends (Database.lasts_of_told hlasts)
  | insertVersion v => exact h.insertVersion w happends.1 happends.2 (Database.lasts_of_told hlasts)
  | update v => exact happends.elim
  | terminate r => exact h.terminateAt hplain.key w r w.time
  | terminateAt r stop => exact h.terminateAt hplain.key w r stop
  | reconcile r => exact h.reconcile hplain w happends (Database.lasts_of_told hlasts)

theorem runAll {calls : List (Recorder × EngineRequest)} (h : Steady l db versions given)
    (hplain : l.NamesPlain) (happends : ∀ c ∈ calls, c.2.Appends l) (hlasting : l.Lasting calls db) :
    Grown l versions (l.written calls db) := by
  induction calls generalizing db versions given with
  | nil => exact h.grown
  | cons c rest ih =>
    obtain ⟨between, given₁, h₁, hgrow₁⟩ :=
      h.run hplain c.1 (happends c (List.mem_cons_self ..)) hlasting.1
    obtain ⟨later, given₂, h₂, hgrow₂⟩ :=
      ih h₁ (fun d hd => happends d (List.mem_cons_of_mem _ hd)) hlasting.2
    exact ⟨later, given₂, h₂, hgrow₁.trans hgrow₂⟩

end Steady

/-! ## Rows -/

/-- An end in a column is no later than another, of which null is later than any instant. -/
def Cell.EndsBy (stop : Cell) : Cell → Prop
  | .null => True
  | .integer latest => ∃ ms, stop = .integer ms ∧ ms ≤ latest
  | _ => False

/-- Each row of the table is there later, with what it had in all columns but two and an end that is no
later, and the rows that are new have later numbers. -/
structure Table.GrowsTo (l : Layout) (t later : Table) : Prop where
  kept : ∀ pid cells, (pid, cells) ∈ t.rows.entries → ∃ now, (pid, now) ∈ later.rows.entries ∧
    (∀ name ∈ l.columnNames, name ≠ validToColumn → name ≠ modifiedColumn →
      later.read pid now name = t.read pid cells name) ∧
    (later.read pid now validToColumn).EndsBy (t.read pid cells validToColumn)
  new : ∀ row ∈ later.rows.entries,
    (∃ cells, (row.1, cells) ∈ t.rows.entries) ∨ ∀ old ∈ t.rows.entries, old.1 < row.1

theorem Versions.GrowTo.table {l : Layout} {versions later : Versions} (h : versions.GrowTo l later)
    {t t' : Table} (ht : t.toTableDesign = l.design) (ht' : t'.toTableDesign = l.design)
    (hrows : t.rows = Table.rowsOf l versions) (hrows' : t'.rows = Table.rowsOf l later) :
    t.GrowsTo l t' where
  kept pid cells hrow := by
    rw [hrows] at hrow
    obtain ⟨e, he, heq⟩ := List.mem_map.1 hrow
    cases heq
    obtain ⟨v, hv, hlasts⟩ := h.kept e he
    refine ⟨v.cells l, ?_, fun name hname hto hmodified => ?_, ?_⟩
    · rw [hrows']
      exact List.mem_map.2 ⟨_, hv, rfl⟩
    · have hcell := hlasts.cell_eq (Table.namesApart_of_design ht) hname hto hmodified
      obtain ⟨c, hc, rfl⟩ := List.mem_map.1 hname
      rw [Table.read_column ht' e.1 v hc, Table.read_column ht e.1 e.2 hc, hcell]
    · rw [Table.read_validTo ht', Table.read_validTo ht]
      cases hstop : e.2.validTo with
      | none => trivial
      | some stop =>
        obtain ⟨stop', hstop', hle⟩ := hlasts.validTo stop hstop
        rw [hstop']
        exact ⟨stop', rfl, hle⟩
  new row hrow := by
    rw [hrows'] at hrow
    obtain ⟨e', he', rfl⟩ := List.mem_map.1 hrow
    rcases h.new e' he' with ⟨e, he, hid⟩ | hlater
    · refine .inl ⟨e.2.cells l, ?_⟩
      rw [hrows]
      exact List.mem_map.2 ⟨e, he, Prod.ext hid rfl⟩
    · refine .inr fun old hold => ?_
      rw [hrows] at hold
      obtain ⟨e, he, rfl⟩ := List.mem_map.1 hold
      exact hlater e he

/-- Whatever calls that append are made on a table that its layout has created and whose columns are all
read as such, and whether or not they succeed, as long as no transaction is undone: between any two points
of the sequence the table only grows. -/
theorem table_growsTo {l : Layout} (hplain : l.NamesPlain) {created : Database} (hcreated : l.Created created)
    {calls more : List (Recorder × EngineRequest)} (hcalls : ∀ c ∈ calls, c.2.Appends l)
    (hmore : ∀ c ∈ more, c.2.Appends l) (hlasting : l.Lasting (calls ++ more) created) :
    ∃ t t', (l.written calls created).table? l.table = some t ∧
      (l.written (calls ++ more) created).table? l.table = some t' ∧ t.GrowsTo l t' := by
  have hempty : Steady l created .empty 0 := ⟨hcreated.recorded, fun _ he => by cases he⟩
  obtain ⟨hfirst, hsecond⟩ := Layout.lasting_append.1 hlasting
  obtain ⟨versions, given, hsteady, -⟩ := hempty.runAll hplain hcalls hfirst
  obtain ⟨later, given', hsteady', hgrow⟩ := hsteady.runAll hplain hmore hsecond
  obtain ⟨t, htable, hdesign, hrows, -⟩ := hsteady.recorded.table
  obtain ⟨t', htable', hdesign', hrows', -⟩ := hsteady'.recorded.table
  refine ⟨t, t', htable, ?_, hgrow.table hdesign hdesign' hrows hrows'⟩
  rw [Layout.written, List.foldl_append]
  exact htable'

/-- An event is added and then corrected. -/
def eventCalls : List (Recorder × EngineRequest) :=
  [(.pinnedAt (.ofMillis 1000), .insert (event lastOf2016)),
    (.pinnedAt (.ofMillis 4000), .reconcile (event (.ofMillis 0)))]

/-- The event ends, is told again, and turns out to have ended before. -/
def laterEventCalls : List (Recorder × EngineRequest) :=
  [(.pinnedAt (.ofMillis 3000), .terminate (event (.ofMillis 0))),
    (.pinnedAt (.ofMillis 5000), .reconcile (event lastOf2016)),
    (.pinnedAt (.ofMillis 6000), .terminateAt (event lastOf2016) (.ofMillis 2000))]

theorem table_growsTo_event :
    ∃ t t', (eventLayout.written eventCalls (eventLayout.createTable .empty).2).table? "event" = some t ∧
      (eventLayout.written (eventCalls ++ laterEventCalls)
        (eventLayout.createTable .empty).2).table? "event" = some t' ∧
      t.GrowsTo eventLayout t' ∧ t.rows.entries.length = 2 ∧ t'.rows.entries.length = 3 := by
  have hcalls : ∀ c ∈ eventCalls, c.2.Appends eventLayout := by decide +kernel
  have hlater : ∀ c ∈ laterEventCalls, c.2.Appends eventLayout := by decide +kernel
  have hlasting : eventLayout.Lasting (eventCalls ++ laterEventCalls) (eventLayout.createTable .empty).2 :=
    Layout.lasting_of_begun (by decide +kernel) _
  obtain ⟨t, t', htable, htable', hgrows⟩ :=
    table_growsTo eventLayout_plain eventLayout_created hcalls hlater hlasting
  have hcount : ((eventLayout.written eventCalls (eventLayout.createTable .empty).2).table?
      "event").map (·.rows.entries.length) = some 2 := by decide +kernel
  have hcount' : ((eventLayout.written (eventCalls ++ laterEventCalls)
      (eventLayout.createTable .empty).2).table? "event").map (·.rows.entries.length) = some 3 := by
    decide +kernel
  have hname : eventLayout.table = "event" := rfl
  rw [hname] at htable htable'
  rw [htable] at hcount
  rw [htable'] at hcount'
  exact ⟨t, t', htable, htable', hgrows, Option.some.inj hcount, Option.some.inj hcount'⟩

/-! ### A word for the clock -/

/-- A register of devices with a remark under a word for the date. -/
def remarkLayout : Layout where
  table := "remark"
  key := "device"
  fields := [Field.required "device" 4, Field.required "Current_Date" 10]
  table_identifier := by decide
  names_identifier := by decide
  names_nodup := by decide
  key_persisted := ⟨_, List.mem_cons_self .., rfl, rfl⟩

def remark : Record := .ofList [("device", .text "gate"), ("Current_Date", .text "hello")]

/-- A remark is told twice, a second apart. -/
def remarkCalls : List (Recorder × EngineRequest) :=
  [(.pinnedAt (.ofMillis 1000), .reconcile remark), (.pinnedAt (.ofMillis 2000), .reconcile remark)]

theorem remarkLayout_created : remarkLayout.Created (remarkLayout.createTable .empty).2 :=
  Layout.created_of_isOk rfl (by decide +kernel)

-- The second time the date is read in the place of the remark, and stays there when the row is closed.
theorem not_table_growsTo_remark :
    remarkLayout.Created (remarkLayout.createTable .empty).2 ∧
      (∀ c ∈ remarkCalls, c.2.Appends remarkLayout) ∧
      remarkLayout.Lasting remarkCalls (remarkLayout.createTable .empty).2 ∧
      ∃ t t', (remarkLayout.written (remarkCalls.take 1)
          (remarkLayout.createTable .empty).2).table? "remark" = some t ∧
        (remarkLayout.written remarkCalls (remarkLayout.createTable .empty).2).table? "remark" = some t' ∧
        (t.rows.get? 1).map (t.read 1 · "Current_Date") = some (.text "hello") ∧
        (t'.rows.get? 1).map (t'.read 1 · "Current_Date") = some (.text "1970-01-01") ∧
        ¬ t.GrowsTo remarkLayout t' := by
  have hhello : ((remarkLayout.written (remarkCalls.take 1)
      (remarkLayout.createTable .empty).2).table? "remark").map (fun t =>
        (t.rows.get? 1).map (t.read 1 · "Current_Date")) = some (some (.text "hello")) := by
    decide +kernel
  have hdate : ((remarkLayout.written remarkCalls
      (remarkLayout.createTable .empty).2).table? "remark").map (fun t =>
        (t.rows.get? 1).map (t.read 1 · "Current_Date")) = some (some (.text "1970-01-01")) := by
    decide +kernel
  obtain ⟨t, htable, hhello⟩ := Option.map_eq_some_iff.1 hhello
  obtain ⟨t', htable', hdate⟩ := Option.map_eq_some_iff.1 hdate
  refine ⟨remarkLayout_created, by decide +kernel, Layout.lasting_of_begun (by decide +kernel) _, t, t',
    htable, htable', hhello, hdate, fun hgrows => ?_⟩
  obtain ⟨cells, hcells, hread⟩ := Option.map_eq_some_iff.1 hhello
  obtain ⟨now, hnow, hsame, -⟩ := hgrows.kept 1 cells (SortedMap.mem_entries_iff.2 hcells)
  rw [SortedMap.mem_entries_iff.1 hnow, Option.map_some,
    hsame "Current_Date" (by decide) (by decide) (by decide), hread] at hdate
  revert hdate
  decide

end Registry
