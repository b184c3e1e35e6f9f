import Registry.Proofs.History.Engine
import Registry.Proofs.History.Redelivery
import Registry.Proofs.History.Stamp

/-!
# StampedRun — what a run leaves in a table

The calls of a run have one recorder, so they all write with one stamp.  After any of them, failed ones
among them, a row of the table is as it was before the run or it has the stamp, and a row that the run
has added begins with the stamp unless its caller dated it.  A call that finds the database full may undo
all that the run did so far, which leaves the rows as they were before the run.
-/

namespace Registry

open Registry.Text

/-- No transaction is open, or one that began with just what is there. -/
def Database.IsFresh (db : Database) : Prop := ∀ content ∈ db.begun, content = db.toContent

theorem Database.isFresh_of_begun {db : Database} (h : db.begun = none) : db.IsFresh := by
  intro content hbegun
  rw [h] at hbegun
  cases hbegun

namespace EngineCall

/-- The call adds the row of a number to the table of a name, for a record that holds from now on. -/
def AddsRow (w : Recorder) (c : EngineCall) (name : String) (pid : Int) (db : Database) : Prop :=
  (∃ r, c.request = .insert r ∨ c.request = .reconcile r) ∧ db.row? name pid = none ∧
    (c.run w db).2.row? name pid ≠ none

/-- The call rewrites the row of a number in the table of a name, as its caller says. -/
def RewritesRow (w : Recorder) (c : EngineCall) (name : String) (pid : Int) (db : Database) : Prop :=
  foldAscii c.layout.table = foldAscii name ∧
    ∃ v answer, c.request = .update v ∧ v.pid = some pid ∧ (c.run w db).1 = .ok answer

section

variable {l : Layout} {db : Database} {t : Table} (w : Recorder)

theorem run_writes (htable : db.table? l.table = some t) (hdesign : t.toTableDesign = l.design)
    (hfull : t.IsFull) (c : EngineCall)
    (hcolumns : foldAscii c.layout.table = foldAscii l.table → c.layout.WritesColumns t)
    (hlasts : db.Lasts (c.run w db).1) :
    ∃ t', (c.run w db).2.table? l.table = some t' ∧ t.Writes w.time.toMillis
      (fun pid => ((∃ v, c.request = .insertVersion v) ∧ t.rows.get? pid = none) ∨
        c.RewritesRow w l.table pid db) t' := by
  by_cases hname : foldAscii c.layout.table = foldAscii l.table
  · have hwrites := hcolumns hname
    obtain ⟨other, request⟩ := c
    cases request with
    | fetch column key asOf => exact ⟨t, htable, .refl hfull⟩
    | insert r =>
      obtain ⟨t', hafter, hwritten⟩ := w.writes_insertVersion htable hdesign hfull hname hwrites
        (w.openVersion r) (Database.lasts_of_told hlasts)
      exact ⟨t', hafter, hwritten.mono fun pid h => absurd rfl h.2⟩
    | insertVersion v =>
      obtain ⟨t', hafter, hwritten⟩ := w.writes_insertVersion htable hdesign hfull hname hwrites v
        (Database.lasts_of_told hlasts)
      exact ⟨t', hafter, hwritten.mono fun pid h => .inl ⟨⟨v, rfl⟩, h.1⟩⟩
    | update v =>
      obtain ⟨t', hafter, hwritten⟩ := w.writes_update htable hdesign hfull hname hwrites v
      refine ⟨t', hafter, hwritten.mono fun pid h => .inr ⟨hname, v, ?_⟩⟩
      obtain ⟨hpid, ⟨new, hnew⟩, -⟩ := h
      refine ⟨.version new, rfl, hpid, ?_⟩
      show (w.update other v db).1.map EngineAnswer.version = _
      rw [hnew]
      rfl
    | terminate r =>
      obtain ⟨t', hafter, hwritten⟩ := w.writes_terminateAt htable hdesign hfull hname r w.time
        (Database.lasts_of_told hlasts)
      exact ⟨t', hafter, hwritten.mono fun pid h => absurd h id⟩
    | terminateAt r stop =>
      obtain ⟨t', hafter, hwritten⟩ := w.writes_terminateAt htable hdesign hfull hname r stop
        (Database.lasts_of_told hlasts)
      exact ⟨t', hafter, hwritten.mono fun pid h => absurd h id⟩
    | reconcile r =>
      obtain ⟨t', hafter, hwritten⟩ := w.writes_reconcile htable hdesign hfull hname hwrites r
        (Database.lasts_of_told hlasts)
      exact ⟨t', hafter, hwritten.mono fun pid h => absurd h id⟩
  · have hsame := ((c.isLocal_run w).frame db hlasts).1.table?_eq (Ne.symm hname)
    exact ⟨t, hsame ▸ htable, .refl hfull⟩

/-- The layouts of the calls on the table write into its columns. -/
def WriteColumns (calls : List EngineCall) (t : Table) (name : String) : Prop :=
  ∀ c ∈ calls, foldAscii c.layout.table = foldAscii name → c.layout.WritesColumns t

theorem WriteColumns.congr {calls : List EngineCall} {t' : Table} {name : String}
    (h : WriteColumns calls t name) (hdesign : t'.toTableDesign = t.toTableDesign) :
    WriteColumns calls t' name :=
  fun c hc hname => (h c hc hname).congr hdesign

/-- What a run has made of a table since it began in a database: writes with its stamp, and what its
transaction would take back, if that is still open, is what was there then. -/
structure HasWritten (w : Recorder) (l : Layout) (base : Database) (t : Table) (db : Database) : Prop where
  table : ∃ t', db.table? l.table = some t' ∧ t.Writes w.time.toMillis (fun _ => True) t'
  begun : ∀ content ∈ db.begun, content = base.toContent

-- A call that undoes the transaction leaves the table as it was when the run began.
theorem HasWritten.undone {base : Database} (h : HasWritten w l base t db)
    (htable : base.table? l.table = some t) {c : EngineCall} (hundoes : ¬ db.Lasts (c.run w db).1) :
    (c.run w db).2.table? l.table = some t ∧ (c.run w db).2.begun = none := by
  obtain ⟨hanswer, hbegun⟩ := Classical.not_imp.1 hundoes
  obtain ⟨content, hbegun⟩ := Option.ne_none_iff_exists'.1 hbegun
  have hundone := (c.isLocal_run w).undone db content hbegun hanswer
  have hcontent := hundone.content.trans (h.begun content hbegun)
  exact ⟨(congrArg (fun c : Content => c.tables.get? (foldAscii l.table)) hcontent).trans htable,
    hundone.begun⟩

-- A call goes on writing with the stamp, or it takes back all of it.
theorem HasWritten.run {base : Database} (h : HasWritten w l base t db)
    (htable : base.table? l.table = some t)
    (hdesign : t.toTableDesign = l.design) (hfull : t.IsFull) {c : EngineCall}
    (hcolumns : foldAscii c.layout.table = foldAscii l.table → c.layout.WritesColumns t) :
    HasWritten w l base t (c.run w db).2 := by
  obtain ⟨t₁, htable₁, hwritten⟩ := h.table
  by_cases hlasts : db.Lasts (c.run w db).1
  · obtain ⟨t', hafter, hmore⟩ := run_writes w htable₁ (hwritten.design.trans hdesign) hwritten.full c
      (fun hname => (hcolumns hname).congr hwritten.design) hlasts
    refine ⟨⟨t', hafter, hwritten.trans (hmore.mono fun _ _ => trivial)⟩, ?_⟩
    rw [((c.isLocal_run w).frame db hlasts).2]
    exact h.begun
  · obtain ⟨hafter, hbegun⟩ := h.undone w htable hlasts
    refine ⟨⟨t, hafter, .refl hfull⟩, fun left hleft => ?_⟩
    rw [hbegun] at hleft
    cases hleft

theorem hasWritten_replay {base : Database} (htable : base.table? l.table = some t)
    (hdesign : t.toTableDesign = l.design) (hfull : t.IsFull) {calls : List EngineCall}
    (hcalls : WriteColumns calls t l.table) (h : HasWritten w l base t db) :
    HasWritten w l base t (replay w calls db) := by
  induction calls generalizing db with
  | nil => exact h
  | cons c rest ih =>
    exact ih (fun d hd => hcalls d (List.mem_cons_of_mem _ hd))
      (h.run w htable hdesign hfull (hcalls c (List.mem_cons_self ..)))

-- A row that begins with the stamp does so after all calls that do not rewrite it or take it back.
theorem replay_begins {calls : List EngineCall} (htable : db.table? l.table = some t)
    (hdesign : t.toTableDesign = l.design) (hfull : t.IsFull) (hcalls : WriteColumns calls t l.table)
    {pid : Int} {cells : Cells} (hrow : t.rows.get? pid = some cells)
    (hbegins : cells.read validFromColumn = .integer w.time.toMillis)
    (hleft : ∀ before d behind, calls = before ++ d :: behind →
      ¬ d.RewritesRow w l.table pid (replay w before db) ∧
        (replay w before db).Lasts (d.run w (replay w before db)).1) :
    ∃ cells', (replay w calls db).row? l.table pid = some cells' ∧
      cells'.read validFromColumn = .integer w.time.toMillis := by
  induction calls generalizing db t cells with
  | nil =>
    refine ⟨cells, ?_, hbegins⟩
    rw [replay, List.foldl_nil, Database.row?_of_table htable, hrow]
  | cons c rest ih =>
    obtain ⟨hrewrites, hlasts⟩ := hleft [] c rest rfl
    obtain ⟨t₁, htable₁, hwritten⟩ :=
      run_writes w htable hdesign hfull c (hcalls c (List.mem_cons_self ..)) hlasts
    obtain ⟨cells₁, hrow₁, -, hfrom⟩ := hwritten.kept pid cells hrow
    have hbegins₁ : cells₁.read validFromColumn = .integer w.time.toMillis := by
      rcases hfrom with (⟨-, hnone⟩ | hrewritten) | hkeeps
      · rw [hrow] at hnone
        cases hnone
      · exact absurd hrewritten hrewrites
      · exact hkeeps hbegins
    apply ih htable₁ (hwritten.design.trans hdesign) hwritten.full
      (WriteColumns.congr (fun d hd => hcalls d (List.mem_cons_of_mem _ hd)) hwritten.design) hrow₁ hbegins₁
    intro before d behind hsplit
    exact hleft (c :: before) d behind (by rw [hsplit, List.cons_append])

-- A row that is added for a record begins with the stamp.
theorem HasWritten.begins_of_addsRow {base : Database} (h : HasWritten w l base t db)
    (htable : base.table? l.table = some t) (hdesign : t.toTableDesign = l.design) {c : EngineCall}
    (hcolumns : foldAscii c.layout.table = foldAscii l.table → c.layout.WritesColumns t) {pid : Int}
    (hadds : c.AddsRow w l.table pid db) :
    ∃ t' cells, (c.run w db).2.table? l.table = some t' ∧ t'.toTableDesign = t.toTableDesign ∧ t'.IsFull ∧
      t'.rows.get? pid = some cells ∧ cells.read validFromColumn = .integer w.time.toMillis := by
  obtain ⟨t₁, htable₁, hwritten⟩ := h.table
  obtain ⟨⟨r, hrequest⟩, hnone, hadded⟩ := hadds
  rw [Database.row?_of_table htable₁] at hnone
  by_cases hlasts : db.Lasts (c.run w db).1
  · obtain ⟨t', hafter, hmore⟩ := run_writes w htable₁ (hwritten.design.trans hdesign) hwritten.full c
      (fun hname => (hcolumns hname).congr hwritten.design) hlasts
    rw [Database.row?_of_table hafter] at hadded
    obtain ⟨cells, hrow⟩ := Option.ne_none_iff_exists'.1 hadded
    refine ⟨t', cells, hafter, hmore.design.trans hwritten.design, hmore.full, hrow, ?_⟩
    rcases (hmore.added pid cells hnone hrow).2 with (⟨⟨v, hinsert⟩, -⟩ | ⟨-, v, -, hupdate, -⟩) | hstamp
    · rcases hrequest with h | h <;> rw [h] at hinsert <;> cases hinsert
    · rcases hrequest with h | h <;> rw [h] at hupdate <;> cases hupdate
    · exact hstamp
  · -- what a transaction takes back leaves no row that was not there just before
    rw [Database.row?_of_table (h.undone w htable hlasts).1] at hadded
    obtain ⟨cells, hrow⟩ := Option.ne_none_iff_exists'.1 hadded
    obtain ⟨now, hnow, -⟩ := hwritten.kept pid cells hrow
    rw [hnone] at hnow
    cases hnow

end

/-- Whatever calls a run makes in a transaction that has just begun, or in none, failed ones among them,
and whatever times they are given: after the run each row of the table is there, and as it was before or
with the instant of the run as the time of its last change, and a row that is new has this instant as
well.  A row that was added for a record that holds from then on begins with the instant, if no call since
has rewritten it by an update or undone the transaction. -/
theorem replay_stamps {l : Layout} {db : Database} (hfresh : db.IsFresh) {t : Table}
    (htable : db.table? l.table = some t) (hdesign : t.toTableDesign = l.design) (hfull : t.IsFull)
    (start : Instant) {calls : List EngineCall} (hcalls : WriteColumns calls t l.table) :
    (∀ pid cells, db.row? l.table pid = some cells →
      ∃ cells', (replay (.pinnedAt start) calls db).row? l.table pid = some cells' ∧
        (cells' = cells ∨ cells'.read modifiedColumn = .integer start.truncated.toMillis)) ∧
    (∀ pid cells', db.row? l.table pid = none →
      (replay (.pinnedAt start) calls db).row? l.table pid = some cells' →
        cells'.read modifiedColumn = .integer start.truncated.toMillis) ∧
    ∀ earlier c later pid, calls = earlier ++ c :: later →
      c.AddsRow (.pinnedAt start) l.table pid (replay (.pinnedAt start) earlier db) →
      (∀ before d behind, later = before ++ d :: behind →
        ¬ d.RewritesRow (.pinnedAt start) l.table pid
            (replay (.pinnedAt start) (earlier ++ c :: before) db) ∧
          (replay (.pinnedAt start) (earlier ++ c :: before) db).Lasts
            (d.run (.pinnedAt start) (replay (.pinnedAt start) (earlier ++ c :: before) db)).1) →
      ∃ cells, (replay (.pinnedAt start) calls db).row? l.table pid = some cells ∧
        cells.read validFromColumn = .integer start.truncated.toMillis := by
  let w := Recorder.pinnedAt start
  have hbefore : HasWritten w l db t db := ⟨⟨t, htable, .refl hfull⟩, hfresh⟩
  obtain ⟨t', hafter, hwritten⟩ := (hasWritten_replay w htable hdesign hfull hcalls hbefore).table
  refine ⟨fun pid cells hrow => ?_, fun pid cells' hnone hrow => ?_,
    fun earlier c later pid hsplit hadds hleft => ?_⟩
  · rw [Database.row?_of_table htable] at hrow
    obtain ⟨cells', hrow', hmodified, -⟩ := hwritten.kept pid cells hrow
    exact ⟨cells', by rwa [Database.row?_of_table hafter], hmodified⟩
  · rw [Database.row?_of_table htable] at hnone
    rw [Database.row?_of_table hafter] at hrow
    exact (hwritten.added pid cells' hnone hrow).1
  · subst hsplit
    have hcolumns : WriteColumns (c :: later) t l.table :=
      fun d hd => hcalls d (List.mem_append_right _ hd)
    have hearlier := hasWritten_replay w htable hdesign hfull
      (fun d hd => hcalls d (List.mem_append_left _ hd)) hbefore
    obtain ⟨t₂, cells, htable₂, hdesign₂, hfull₂, hrow, hbegins⟩ :=
      hearlier.begins_of_addsRow w htable hdesign (hcolumns c (List.mem_cons_self ..)) hadds
    have hreplay : ∀ before, replay w (earlier ++ c :: before) db =
        replay w before (c.run w (replay w earlier db)).2 := fun before => replay_append w earlier _ db
    simp only [w, hreplay] at hleft ⊢
    exact replay_begins w htable₂ (hdesign₂.trans hdesign) hfull₂
      (WriteColumns.congr (fun d hd => hcolumns d (List.mem_cons_of_mem _ hd)) hdesign₂) hrow hbegins hleft

/-- An event is added, ended, and told again without its number, which is refused. -/
def stampedCalls : List EngineCall :=
  [⟨eventLayout, .insert (event lastOf2016)⟩,
    ⟨eventLayout, .terminateAt (event lastOf2016) (.ofMillis 5000)⟩,
    ⟨eventLayout, .update (.unstored (event lastOf2016) (.ofMillis 0) none)⟩]

theorem replay_stamps_event :
    ∃ cells, (replay (.pinnedAt (.ofMillis 1000)) stampedCalls
        (eventLayout.createTable .empty).2).row? "event" 1 = some cells ∧
      cells.read modifiedColumn = .integer 1000 ∧ cells.read validFromColumn = .integer 1000 := by
  obtain ⟨t, htable, hdesign, hrows, -⟩ := eventLayout_created.exists_table
  have hfull : t.IsFull := by
    intro pid cells hrow
    rw [hrows] at hrow
    cases hrow
  have hcalls : WriteColumns stampedCalls t eventLayout.table := by
    intro c hc _
    have hlayout : ∀ c ∈ stampedCalls, c.layout = eventLayout := by simp [stampedCalls]
    rw [hlayout c hc]
    exact Layout.writesColumns_of_design hdesign
  have hbegun : (eventLayout.createTable .empty).2.begun = none := by decide +kernel
  have hfresh := Database.isFresh_of_begun hbegun
  obtain ⟨-, hadded, hbegins⟩ := replay_stamps hfresh htable hdesign hfull (.ofMillis 1000) hcalls
  have hadds : AddsRow (.pinnedAt (.ofMillis 1000)) ⟨eventLayout, .insert (event lastOf2016)⟩
      eventLayout.table 1 (eventLayout.createTable .empty).2 :=
    ⟨⟨_, .inl rfl⟩, by decide +kernel, by decide +kernel⟩
  obtain ⟨cells, hrow, hfrom⟩ := hbegins [] _ _ 1 rfl hadds fun before d behind hsplit => by
    refine ⟨?_, Database.lasts_of_begun (begun_replay hbegun _ _)⟩
    rintro ⟨-, v, answer, hupdate, hpid, -⟩
    have hd : d ∈ before ++ d :: behind := List.mem_append_right _ (List.mem_cons_self ..)
    rw [← hsplit] at hd
    simp only [List.mem_cons, List.not_mem_nil, or_false] at hd
    rcases hd with rfl | rfl
    · cases hupdate
    · cases hupdate
      cases hpid
  exact ⟨cells, hrow, hadded 1 cells (by decide +kernel) hrow, hfrom⟩

/-- A layout for the table of the events whose fields also stand for the number of the row and for the
time of its last change. -/
def numberedEventLayout : Layout where
  table := eventLayout.table
  key := eventLayout.key
  fields := eventLayout.fields ++
    [(Field.required "PID" 4).withType .integer, (Field.required "ModifiedDate" 4).withType .integer]
  table_identifier := eventLayout.table_identifier
  names_identifier := by decide
  names_nodup := by decide
  key_persisted := ⟨_, List.mem_cons_self .., rfl, rfl⟩

def numberedEvent (pid modified : Int) : Record :=
  .ofList [("name", .text "boot"), ("at", .datetime lastOf2016), ("PID", .integer pid),
    ("ModifiedDate", .integer modified)]

/-- A table with one event. -/
def oneEvent : Database :=
  ((Recorder.pinnedAt (.ofMillis 1000)).insert eventLayout (event lastOf2016)
    (eventLayout.createTable .empty).2).2

/-- An event is added, and the first one rewritten, through the other layout. -/
def numberedCalls : List EngineCall :=
  [⟨numberedEventLayout, .insert (numberedEvent 5 8)⟩,
    ⟨numberedEventLayout, .update
      { Version.unstored (numberedEvent 7 8) (.ofMillis 1000) none with pid := some 1 }⟩]

/-- Such calls do not write the stamp: the row that they add has the time from the record, and the row
that they rewrite goes to another number. -/
theorem not_replay_stamps_numbered :
    let after := replay (.pinnedAt (.ofMillis 2000)) numberedCalls oneEvent
    (oneEvent.row? "event" 5 = none ∧
      (after.row? "event" 5).map (Cells.read · modifiedColumn) = some (.integer 8)) ∧
    ((oneEvent.row? "event" 1).isSome ∧ after.row? "event" 1 = none) := by
  decide +kernel

end EngineCall

end Registry
