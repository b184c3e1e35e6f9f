import Registry.Proofs.Database.Besides
import Registry.Proofs.History.Reconciliation

/-!
# Engine — calls on the registers, and the one table that each of them touches

A call reads and changes the table of its layout only, whether it succeeds or fails, unless it finds the
database full and undoes a transaction.  So calls answer the same and leave the same registers in
databases that agree besides a table of another name.
-/

namespace Registry

open Registry.Text
open Database (SameBesides)

variable {α β : Type} {table : String}

/-! ## A full database -/

/-- Where an edit answers so, an open transaction is not undone. -/
def Database.Lasts (db : Database) (answer : Except HistoryFault α) : Prop :=
  answer = .error (.database .full) → db.begun = none

/-- A transaction that began with some content is undone. -/
structure Database.IsUndone (content : Content) (before after : Database) : Prop where
  content : after.toContent = content
  begun : after.begun = none
  clock : after.clock = before.clock

namespace Database

variable {db : Database}

theorem lasts_of_ne {answer : Except HistoryFault α} (h : answer ≠ .error (.database .full)) :
    db.Lasts answer := fun hfull => absurd hfull h

theorem lasts_of_begun {answer : Except HistoryFault α} (h : db.begun = none) : db.Lasts answer :=
  fun _ => h

theorem lasts_of_told {tell : α → β} {e : Edit α} (h : db.Lasts (Edit.told tell e).1) : db.Lasts e.1 := by
  intro hfull
  apply h
  rw [Edit.told, hfull]
  rfl

-- A statement that is refused has changed nothing, unless it undoes the transaction.
theorem refused_of_ne (db : Database) {fault : DatabaseFault} (h : fault ≠ .full) :
    (db.refused fault).toContent = db.toContent ∧ (db.refused fault).begun = db.begun ∧
      (db.refused fault).clock = db.clock := by
  unfold refused
  rw [if_neg h]
  dsimp only
  split <;> exact ⟨rfl, rfl, rfl⟩

theorem refused_of_begun (h : db.begun = none) (fault : DatabaseFault) :
    (db.refused fault).toContent = db.toContent ∧ (db.refused fault).begun = none ∧
      (db.refused fault).clock = db.clock := by
  have hundone : db.undone = db := by rw [undone, h]
  unfold refused
  rw [hundone, ite_self]
  dsimp only
  split <;> exact ⟨rfl, h, rfl⟩

theorem isUndone_refused {content : Content} (h : db.begun = some content) :
    IsUndone content db (db.refused .full) := by
  have hrefused : db.refused .full = { db.undone with changed := 0 } := rfl
  rw [hrefused, undone, h]
  exact ⟨rfl, rfl, rfl⟩

end Database

/-! ## Edits of one table -/

/-- The edit changes one table only, and what it does there rests on no more of the others than their
designs.  But where it finds the database full, it undoes the transaction. -/
structure IsLocal (table : String) (edit : Database → Edit α) : Prop where
  frame : ∀ db, db.Lasts (edit db).1 →
    SameBesides table db (edit db).2 ∧ (edit db).2.begun = db.begun
  undone : ∀ db content, db.begun = some content → (edit db).1 = .error (.database .full) →
    Database.IsUndone content db (edit db).2
  same : ∀ {name : String} {a b : Database}, foldAscii table ≠ foldAscii name → SameBesides name a b →
    (edit a).1 = (edit b).1 ∧
      (a.Lasts (edit a).1 → b.Lasts (edit b).1 → SameBesides name (edit a).2 (edit b).2)

/-- What is read rests on one table only. -/
def IsReadOf (table : String) (read : Database → β) : Prop :=
  ∀ {name : String} {a b : Database}, foldAscii table ≠ foldAscii name → SameBesides name a b →
    read a = read b

namespace IsLocal

theorem congr {edit other : Database → Edit α} (h : IsLocal table edit) (heq : ∀ db, other db = edit db) :
    IsLocal table other := by
  rw [funext heq]
  exact h

theorem answer (table : String) {answer : Except HistoryFault α}
    (hroom : answer ≠ .error (.database .full)) : IsLocal table fun db => (answer, db) where
  frame db _ := ⟨SameBesides.refl table db, rfl⟩
  undone _ _ _ hfull := absurd hfull hroom
  same _ h := ⟨rfl, fun _ _ => h⟩

-- What fails before any statement, and not for a full database, changes nothing.
theorem failed (table : String) {answer : Except HistoryFault β} {fault : HistoryFault}
    (hfault : answer = .error fault) (hroom : answer ≠ .error (.database .full)) :
    IsLocal table fun db => ((.error fault, db) : Edit α) :=
  .answer table fun h => hroom (hfault.trans (congrArg _ (Except.error.inj h)))

/-- One edit behind another, which is not made where the first finds the database full. -/
theorem andThen {first : Database → Edit α} (hfirst : IsLocal table first)
    (next : Except HistoryFault α → Database → Edit β)
    (hfull : ∀ db, next (.error (.database .full)) db = (.error (.database .full), db))
    (hnext : ∀ answer, answer ≠ .error (.database .full) → IsLocal table (next answer)) :
    IsLocal table fun db => next (first db).1 (first db).2 where
  frame db hlasts := by
    by_cases hroom : (first db).1 = .error (.database .full)
    · rw [hroom, hfull] at hlasts ⊢
      exact hfirst.frame db fun _ => hlasts rfl
    · obtain ⟨hsame, hbegun⟩ := hfirst.frame db (Database.lasts_of_ne hroom)
      obtain ⟨hsame', hbegun'⟩ := (hnext _ hroom).frame (first db).2 fun h => hbegun.trans (hlasts h)
      exact ⟨hsame.trans hsame', hbegun'.trans hbegun⟩
  undone db content hbegun hanswer := by
    by_cases hroom : (first db).1 = .error (.database .full)
    · rw [hroom, hfull]
      exact hfirst.undone db content hbegun hroom
    · obtain ⟨hsame, hbegun'⟩ := hfirst.frame db (Database.lasts_of_ne hroom)
      have hundone := (hnext _ hroom).undone (first db).2 content (hbegun'.trans hbegun) hanswer
      exact ⟨hundone.content, hundone.begun, hundone.clock.trans hsame.clock.symm⟩
  same hother h := by
    rename_i a b
    obtain ⟨hanswer, hsame⟩ := hfirst.same hother h
    rw [← hanswer] at hsame ⊢
    by_cases hroom : (first a).1 = .error (.database .full)
    · rw [hroom] at hsame ⊢
      simp only [hfull]
      exact ⟨trivial, fun ha hb => hsame (fun _ => ha rfl) fun _ => hb rfl⟩
    · have hlasts : ∀ db : Database, db.Lasts (first a).1 := fun db => Database.lasts_of_ne hroom
      have hafter := hsame (hlasts a) (hlasts b)
      obtain ⟨hanswer', hsame'⟩ := (hnext _ hroom).same hother hafter
      have hbegun := (hfirst.frame a (hlasts a)).2
      have hbegun' := (hfirst.frame b (hanswer ▸ hlasts b)).2
      exact ⟨hanswer', fun ha hb =>
        hsame' (fun hfull => hbegun.trans (ha hfull)) fun hfull => hbegun'.trans (hb hfull)⟩

theorem afterRead {read : Database → β} (hread : IsReadOf table read) (next : β → Database → Edit α)
    (hnext : ∀ db, IsLocal table (next (read db))) : IsLocal table fun db => next (read db) db where
  frame db := (hnext db).frame db
  undone db := (hnext db).undone db
  same hother h := by
    rename_i a b
    rw [hread hother h]
    exact (hnext b).same hother h

theorem told {edit : Database → Edit α} (h : IsLocal table edit) (tell : α → β) :
    IsLocal table fun db => Edit.told tell (edit db) := by
  refine h.andThen (fun answer db => (answer.map tell, db)) (fun _ => rfl) fun answer hroom => ?_
  cases answer with
  | error fault => exact .failed _ rfl hroom
  | ok a => exact .answer _ fun hfull => by cases hfull

end IsLocal

/-! ## Single statements -/

def insertEdit (table : String) (cells : Cells) (db : Database) : Edit Int :=
  match db.insert table cells with
  | .error fault => (.error (.database fault), db.refused fault)
  | .ok (pid, db) => (.ok pid, db)

def updateEdit (table : String) (assignments : Cells) (conditions : List Condition) (db : Database) :
    Edit Nat :=
  match db.update table assignments conditions with
  | .error fault => (.error (.database fault), db.refused fault)
  | .ok (count, db) => (.ok count, db)

namespace Database

variable {db db' : Database}

theorem begun_insert {values : Cells} {id : Int} (h : db.insert table values = .ok (id, db')) :
    db'.begun = db.begun := by
  unfold insert at h
  split at h
  · cases h
  split at h
  · cases h
  · cases h
  split at h
  · cases h
  · cases h
    rfl

theorem begun_update {assignments : Cells} {conditions : List Condition} {count : Nat}
    (h : db.update table assignments conditions = .ok (count, db')) : db'.begun = db.begun := by
  unfold update at h
  split at h
  · cases h
  · cases h
  split at h
  · cases h
  · cases h
  split at h
  · cases h
  · cases h
    rfl

-- What a statement leaves that was refused.
theorem frame_refused (table : String) {fault : DatabaseFault}
    (h : db.Lasts (.error (.database fault) : Except HistoryFault α)) :
    SameBesides table db (db.refused fault) ∧ (db.refused fault).begun = db.begun := by
  by_cases hroom : fault = .full
  · have hbegun := h (by rw [hroom])
    obtain ⟨hcontent, hnone, hclock⟩ := refused_of_begun hbegun fault
    exact ⟨.of_tables (congrArg Content.tables hcontent.symm) hclock.symm, hnone.trans hbegun.symm⟩
  · obtain ⟨hcontent, hbegun, hclock⟩ := refused_of_ne db hroom
    exact ⟨.of_tables (congrArg Content.tables hcontent.symm) hclock.symm, hbegun⟩

theorem table?_refused {fault : DatabaseFault} (h : db.Lasts (.error (.database fault) : Except HistoryFault α))
    (name : String) : (db.refused fault).table? name = db.table? name := by
  have hcontent : (db.refused fault).toContent = db.toContent := by
    by_cases hroom : fault = .full
    · exact (refused_of_begun (h (by rw [hroom])) fault).1
    · exact (refused_of_ne db hroom).1
  exact congrArg (fun c : Content => c.tables.get? (foldAscii name)) hcontent

theorem sameBesides_refused {name : String} {a b : Database} (h : SameBesides name a b)
    {fault : DatabaseFault} (ha : a.Lasts (.error (.database fault) : Except HistoryFault α))
    (hb : b.Lasts (.error (.database fault) : Except HistoryFault α)) :
    SameBesides name (a.refused fault) (b.refused fault) :=
  ((frame_refused name ha).1.symm.trans h).trans (frame_refused name hb).1

end Database

theorem isLocal_insertEdit (table : String) (cells : Cells) : IsLocal table (insertEdit table cells) where
  frame db := by
    unfold insertEdit
    split
    · exact Database.frame_refused table
    · rename_i hinsert
      exact fun _ => ⟨Database.sameBesides_insert hinsert, Database.begun_insert hinsert⟩
  undone db content hbegun := by
    unfold insertEdit
    split
    · intro hfull
      cases hfull
      exact Database.isUndone_refused hbegun
    · exact fun hfull => by cases hfull
  same hother h := by
    unfold insertEdit
    rcases h.insert_same hother cells with ⟨fault, ha, hb⟩ | ⟨pid, a', b', ha, hb, hsame⟩
    · rw [ha, hb]
      exact ⟨rfl, Database.sameBesides_refused h⟩
    · rw [ha, hb]
      exact ⟨rfl, fun _ _ => hsame⟩

theorem isLocal_updateEdit (table : String) (assignments : Cells) (conditions : List Condition) :
    IsLocal table (updateEdit table assignments conditions) where
  frame db := by
    unfold updateEdit
    split
    · exact Database.frame_refused table
    · rename_i hupdate
      exact fun _ => ⟨Database.sameBesides_update hupdate, Database.begun_update hupdate⟩
  undone db content hbegun := by
    unfold updateEdit
    split
    · intro hfull
      cases hfull
      exact Database.isUndone_refused hbegun
    · exact fun hfull => by cases hfull
  same hother h := by
    unfold updateEdit
    rcases h.update_same hother assignments conditions with ⟨fault, ha, hb⟩ | ⟨count, a', b', ha, hb, hsame⟩
    · rw [ha, hb]
      exact ⟨rfl, Database.sameBesides_refused h⟩
    · rw [ha, hb]
      exact ⟨rfl, fun _ _ => hsame⟩

/-! ## Faults of other kinds -/

theorem Field.cell_ne_full (f : Field) (v : Value) : f.cell v ≠ .error (.database .full) := by
  unfold cell
  split <;> exact fun h => by cases h

theorem Version.cells_ne_full (v : Version) (l : Layout) (modified : Instant) :
    v.cells l modified ≠ .error (.database .full) := by
  have hfields : ∀ fields, fieldCells v.record fields ≠ .error (.database .full) := by
    intro fields
    induction fields with
    | nil => exact fun h => by cases h
    | cons f rest ih =>
      unfold fieldCells
      intro h
      split at h
      · rename_i hcell
        cases h
        exact f.cell_ne_full _ hcell
      · split at h
        · rename_i hrest
          cases h
          exact ih hrest
        · cases h
  unfold cells
  intro h
  split at h
  · rename_i hcells
    cases h
    exact hfields _ hcells
  · cases h

/-- A fault in reading a cell of a row. -/
inductive HistoryFault.IsUnreadable : HistoryFault → Prop where
  | noResult (column : String) : IsUnreadable (.database (.noResult column))
  | unexpectedNull (column : String) : IsUnreadable (.database (.unexpectedNull column))
  | mismatch (column : String) (optional : Bool) (expected actual : Affinity) :
    IsUnreadable (.database (.mismatch column optional expected actual))
  | doesNotFit (column : String) (x : Binary64) : IsUnreadable (.doesNotFit column x)

section Read

open HistoryFault (IsUnreadable)

variable {row : Cells} {fault : HistoryFault}

theorem isUnreadable_of_readColumn {column : String} (h : readColumn row column = .error fault) :
    fault.IsUnreadable := by
  unfold readColumn at h
  split at h
  · cases h
  · cases h
    exact .noResult column

theorem isUnreadable_of_readInteger {column : String} (h : readInteger row column = .error fault) :
    fault.IsUnreadable := by
  unfold readInteger at h
  split at h
  · rename_i hread
    cases h
    exact isUnreadable_of_readColumn hread
  · cases h
  · cases h
    exact .unexpectedNull column
  · cases h
    exact .mismatch ..

theorem isUnreadable_of_readOptionalTime {column : String}
    (h : readOptionalTime row column = .error fault) : fault.IsUnreadable := by
  unfold readOptionalTime at h
  split at h
  · rename_i hread
    cases h
    exact isUnreadable_of_readColumn hread
  · cases h
  · cases h
  · cases h
    exact .mismatch ..

theorem isUnreadable_of_readCell {f : Field} {cell : Cell} (h : f.readCell cell = .error fault) :
    fault.IsUnreadable := by
  unfold Field.readCell at h
  split at h
  · cases h
  · cases h
  · cases h
  · split at h
    · cases h
    · cases h
      exact .doesNotFit ..
  · cases h
  · cases h
    exact .mismatch ..

theorem isUnreadable_of_readFields {fields : List Field} (h : readFields row fields = .error fault) :
    fault.IsUnreadable := by
  induction fields with
  | nil => cases h
  | cons f rest ih =>
    unfold readFields at h
    split at h
    · rename_i hread
      cases h
      cases hcolumn : readColumn row f.name with
      | error fault =>
        rw [hcolumn] at hread
        cases hread
        exact isUnreadable_of_readColumn hcolumn
      | ok cell =>
        rw [hcolumn] at hread
        exact isUnreadable_of_readCell hread
    · split at h
      · rename_i hrest
        cases h
        exact ih hrest
      · cases h

theorem isUnreadable_of_readVersion {l : Layout} (h : l.readVersion row = .error fault) :
    fault.IsUnreadable := by
  unfold Layout.readVersion at h
  cases hfields : readFields row l.persisted with
  | error fault =>
    rw [hfields] at h
    cases h
    exact isUnreadable_of_readFields hfields
  | ok record =>
    cases hpid : readInteger row pidColumn with
    | error fault =>
      rw [hfields, hpid] at h
      cases h
      exact isUnreadable_of_readInteger hpid
    | ok pid =>
      cases hfrom : readInteger row validFromColumn with
      | error fault =>
        rw [hfields, hpid, hfrom] at h
        cases h
        exact isUnreadable_of_readInteger hfrom
      | ok validFrom =>
        cases hto : readOptionalTime row validToColumn with
        | error fault =>
          rw [hfields, hpid, hfrom, hto] at h
          cases h
          exact isUnreadable_of_readOptionalTime hto
        | ok validTo =>
          cases hmodified : readInteger row modifiedColumn with
          | error fault =>
            rw [hfields, hpid, hfrom, hto, hmodified] at h
            cases h
            exact isUnreadable_of_readInteger hmodified
          | ok modified =>
            rw [hfields, hpid, hfrom, hto, hmodified] at h
            cases h

end Read

/-! ## Functions of a recorder -/

namespace Recorder

variable (w : Recorder) (l : Layout)

theorem fetchBy_ne_full (column : String) (key : Value) (asOf : Instant) (db : Database) :
    fetchBy l column key asOf db ≠ .error (.database .full) := by
  unfold fetchBy
  intro h
  split at h
  · cases h
  rename_i f _
  split at h
  · rename_i hcell
    cases h
    exact f.cell_ne_full key hcell
  split at h
  · rename_i hrows
    cases h
    exact db.select_ne_full _ _ _ hrows
  · cases h
  · rename_i row _
    cases hread : l.readVersion row with
    | error fault =>
      rw [hread] at h
      cases h
      cases isUnreadable_of_readVersion hread
    | ok v =>
      rw [hread] at h
      cases h
  · cases h

theorem isReadOf_fetchBy (column : String) (key : Value) (asOf : Instant) :
    IsReadOf l.table (fetchBy l column key asOf) := by
  intro name a b hother h
  unfold fetchBy validRows
  rw [h.select_eq hother]

theorem isLocal_insertRow (v : Version) : IsLocal l.table (w.insertRow l v) := by
  unfold insertRow
  cases l.fault? v.record with
  | some fault => exact .answer _ fun h => by cases h
  | none =>
    cases hcells : v.cells l w.time with
    | error fault => exact .failed _ hcells (v.cells_ne_full l w.time)
    | ok cells => exact isLocal_insertEdit l.table cells

theorem isLocal_insertVersion (v : Version) : IsLocal l.table (w.insertVersion l v) :=
  ((w.isLocal_insertRow l v).told _).congr (w.insertVersion_eq l v)

theorem isLocal_terminateAt (record : Record) (stop : Instant) :
    IsLocal l.table (w.terminateAt l record stop) := by
  unfold terminateAt
  dsimp only
  cases hcell : l.keyField.cell (record.valueOrNull l.key) with
  | error fault => exact .failed _ hcell (l.keyField.cell_ne_full _)
  | ok cell => exact isLocal_updateEdit l.table _ _

/-- What an update answers, by the number of rows of its version. -/
def updated (v : Version) (pid : Int) : Except HistoryFault Nat → Except HistoryFault Version
  | .error fault => .error fault
  | .ok 0 => .error (.noRow l.table pid)
  | .ok _ => .ok { v with pid := some pid, modified := some w.time }

theorem isLocal_update (v : Version) : IsLocal l.table (w.update l v) := by
  unfold update
  cases v.pid with
  | none => exact .answer _ fun h => by cases h
  | some pid =>
    dsimp only
    cases l.fault? v.record with
    | some fault => exact .answer _ fun h => by cases h
    | none =>
      cases hcells : v.cells l w.time with
      | error fault => exact .failed _ hcells (v.cells_ne_full l w.time)
      | ok cells =>
        -- an update that meets no row answers with a fault, but is the same edit of the table
        have htold : ∀ answer, answer ≠ .error (.database .full) →
            IsLocal l.table fun db => (w.updated l v pid answer, db) := by
          intro answer hroom
          rcases answer with fault | _ | count
          · exact .failed _ rfl hroom
          · exact .answer _ fun h => by cases h
          · exact .answer _ fun h => by cases h
        have hedit := (isLocal_updateEdit l.table cells [.equals pidColumn (.integer pid)]).andThen
          (fun answer db => (w.updated l v pid answer, db)) (fun _ => rfl) htold
        refine hedit.congr fun db => ?_
        unfold updateEdit
        dsimp only
        rcases db.update l.table cells [.equals pidColumn (.integer pid)] with fault | ⟨count, db'⟩
        · rfl
        · cases count <;> rfl

theorem update_ne_full (v : Version) (db : Database) :
    (w.update l v db).1 ≠ .error (.database .full) := by
  unfold update
  intro h
  split at h
  · cases h
  split at h
  · cases h
  split at h
  · rename_i hcells
    cases h
    exact v.cells_ne_full l w.time hcells
  split at h
  · rename_i hupdate
    cases h
    exact db.update_ne_full _ _ _ hupdate
  all_goals cases h

-- An update neither begins a transaction nor ends one.
theorem begun_update (v : Version) (db : Database) : (w.update l v db).2.begun = db.begun :=
  ((w.isLocal_update l v).frame db (Database.lasts_of_ne (w.update_ne_full l v db))).2

theorem isLocal_add (record : Record) (tell : Int → Reconciliation) :
    IsLocal l.table (w.add l record tell) :=
  (w.isLocal_insertRow l (w.openVersion record)).told tell

theorem isLocal_settle (record : Record) {found : Except HistoryFault (Option Version)}
    (hroom : found ≠ .error (.database .full)) : IsLocal l.table (w.settle l record found) := by
  rcases found with fault | _ | existing
  · exact .failed _ rfl hroom
  · exact w.isLocal_add l record .inserted
  · unfold settle
    dsimp only
    cases existing.pid with
    | none => exact .answer _ fun h => by cases h
    | some terminated =>
      dsimp only
      by_cases hsame : l.samePersisted existing.record record = true
      · simp only [if_pos hsame]
        exact .answer _ fun h => by cases h
      · simp only [if_neg hsame]
        refine (w.isLocal_update l _).andThen (w.succeed l record terminated) (fun _ => rfl)
          fun answer hroom => ?_
        cases answer with
        | error fault => exact .failed _ rfl hroom
        | ok v => exact w.isLocal_add l record (.replaced terminated)

theorem isLocal_reconcile (record : Record) : IsLocal l.table (w.reconcile l record) :=
  (IsLocal.afterRead (isReadOf_fetchBy l l.key (record.valueOrNull l.key) w.time)
    (w.settle l record) fun db => w.isLocal_settle l record (fetchBy_ne_full l _ _ _ db)).congr
      (w.reconcile_eq l record)

end Recorder

/-! ## Calls -/

/-- What may be asked of a register.  The version that holds now is fetched by the key and the
recorder's instant. -/
inductive EngineRequest where
  | fetch (column : String) (key : Value) (asOf : Instant)
  | insert (record : Record)
  | insertVersion (v : Version)
  | update (v : Version)
  | terminate (record : Record)
  | terminateAt (record : Record) (stop : Instant)
  | reconcile (record : Record)

structure EngineCall where
  layout : Layout
  request : EngineRequest

inductive EngineAnswer where
  | found (v : Option Version)
  | version (v : Version)
  | count (n : Nat)
  | reconciled (r : Recorder.Reconciliation)
  deriving DecidableEq

namespace EngineCall

def run (w : Recorder) (c : EngineCall) (db : Database) : Edit EngineAnswer :=
  match c.request with
  | .fetch column key asOf => ((Recorder.fetchBy c.layout column key asOf db).map .found, db)
  | .insert r => Edit.told .version (w.insert c.layout r db)
  | .insertVersion v => Edit.told .version (w.insertVersion c.layout v db)
  | .update v => Edit.told .version (w.update c.layout v db)
  | .terminate r => Edit.told .count (w.terminate c.layout r db)
  | .terminateAt r stop => Edit.told .count (w.terminateAt c.layout r stop db)
  | .reconcile r => Edit.told .reconciled (w.reconcile c.layout r db)

-- A call reads and changes the table of its layout only, unless it finds the database full.
theorem isLocal_run (w : Recorder) (c : EngineCall) : IsLocal c.layout.table (c.run w) := by
  obtain ⟨l, request⟩ := c
  cases request with
  | fetch column key asOf =>
    refine IsLocal.afterRead (Recorder.isReadOf_fetchBy l column key asOf)
      (fun found db => (found.map EngineAnswer.found, db)) fun db => .answer _ fun h => ?_
    cases hfetch : Recorder.fetchBy l column key asOf db with
    | error fault =>
      rw [hfetch] at h
      cases h
      exact Recorder.fetchBy_ne_full l column key asOf db hfetch
    | ok found =>
      rw [hfetch] at h
      cases h
  | insert r => exact (w.isLocal_insertVersion l (w.openVersion r)).told EngineAnswer.version
  | insertVersion v => exact (w.isLocal_insertVersion l v).told EngineAnswer.version
  | update v => exact (w.isLocal_update l v).told EngineAnswer.version
  | terminate r => exact (w.isLocal_terminateAt l r w.time).told EngineAnswer.count
  | terminateAt r stop => exact (w.isLocal_terminateAt l r stop).told EngineAnswer.count
  | reconcile r => exact (w.isLocal_reconcile l r).told EngineAnswer.reconciled

-- A call leaves databases that agree besides a table as such, also where it is on that table, unless it
-- undoes the transaction of one.
theorem sameBesides_run {name : String} {a b : Database} (h : SameBesides name a b) (w : Recorder)
    (c : EngineCall) (ha : a.Lasts (c.run w a).1) (hb : b.Lasts (c.run w b).1) :
    SameBesides name (c.run w a).2 (c.run w b).2 := by
  by_cases hother : foldAscii c.layout.table = foldAscii name
  -- On the table itself the two runs may differ, but both stay within it.
  · have hframe : ∀ db : Database, db.Lasts (c.run w db).1 → SameBesides name db (c.run w db).2 := by
      intro db hlasts
      have hown := ((c.isLocal_run w).frame db hlasts).1
      exact ⟨hother ▸ hown.others, hother ▸ hown.design, hown.clock⟩
    exact (hframe a ha).symm.trans (h.trans (hframe b hb))
  · exact ((c.isLocal_run w).same hother h).2 ha hb

-- No call begins a transaction.
theorem begun_run {db : Database} (h : db.begun = none) (w : Recorder) (c : EngineCall) :
    (c.run w db).2.begun = none :=
  ((c.isLocal_run w).frame db (Database.lasts_of_begun h)).2.trans h

/-- The database after some calls one behind the other, whatever they answer. -/
def replay (w : Recorder) (calls : List EngineCall) (db : Database) : Database :=
  calls.foldl (fun db c => (c.run w db).2) db

theorem replay_append (w : Recorder) (before behind : List EngineCall) (db : Database) :
    replay w (before ++ behind) db = replay w behind (replay w before db) := by
  rw [replay, List.foldl_append]
  rfl

theorem begun_replay {db : Database} (h : db.begun = none) (w : Recorder) (calls : List EngineCall) :
    (replay w calls db).begun = none := by
  induction calls generalizing db with
  | nil => exact h
  | cons c rest ih => exact ih (begun_run h w c)

-- Calls outside of a transaction leave databases that agree besides a table as such.
theorem sameBesides_replay {name : String} {a b : Database} (h : SameBesides name a b)
    (ha : a.begun = none) (hb : b.begun = none) (w : Recorder) (calls : List EngineCall) :
    SameBesides name (replay w calls a) (replay w calls b) := by
  induction calls generalizing a b with
  | nil => exact h
  | cons c rest ih =>
    have hrun := sameBesides_run h w c (Database.lasts_of_begun ha) (Database.lasts_of_begun hb)
    exact ih hrun (begun_run ha w c) (begun_run hb w c)

/-! ## Calls in a transaction -/

/-- A call finds the database full while a transaction is open, which it undoes. -/
def Undoes (w : Recorder) (c : EngineCall) (db : Database) : Prop :=
  db.begun.isSome ∧ (c.run w db).1 = .error (.database .full)

/-- Calls that leave a transaction open come to the same as outside of one. -/
structure KeepOpen (w : Recorder) (content : Content) (db : Database) (calls : List EngineCall) : Prop where
  begun : (replay w calls db).begun = some content
  same : ∀ {name : String} {other : Database}, SameBesides name db other → other.begun = none →
    SameBesides name (replay w calls db) (replay w calls other)

-- The calls in a transaction leave it open, or one of them undoes it.
theorem keepOpen_or_undoes {db : Database} {content : Content} (h : db.begun = some content) (w : Recorder)
    (calls : List EngineCall) : KeepOpen w content db calls ∨
      ∃ front c back, calls = front ++ c :: back ∧ c.Undoes w (replay w front db) ∧
        Database.IsUndone content db (c.run w (replay w front db)).2 := by
  -- On the calls: each is made in the transaction, until one has undone it.
  induction calls generalizing db with
  | nil => exact .inl ⟨h, fun hsame _ => hsame⟩
  | cons c rest ih =>
    by_cases hfull : (c.run w db).1 = .error (.database .full)
    · have hundone := (c.isLocal_run w).undone db content h hfull
      exact .inr ⟨[], c, rest, rfl, ⟨by rw [replay, List.foldl_nil, h]; rfl, hfull⟩, hundone⟩
    · have hlasts : db.Lasts (c.run w db).1 := Database.lasts_of_ne hfull
      obtain ⟨hframe, hbegun⟩ := (c.isLocal_run w).frame db hlasts
      rcases ih (hbegun.trans h) with hrest | ⟨front, d, back, rfl, hundoes, hundone⟩
      · refine .inl ⟨hrest.begun, fun hsame hother => ?_⟩
        exact hrest.same (sameBesides_run hsame w c hlasts (Database.lasts_of_begun hother))
          (begun_run hother w c)
      · exact .inr ⟨c :: front, d, back, rfl, hundoes, hundone.content, hundone.begun,
          hundone.clock.trans hframe.clock.symm⟩

end EngineCall

end Registry
