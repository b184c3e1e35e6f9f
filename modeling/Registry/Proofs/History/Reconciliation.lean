import Registry.History.Recorder

/-!
# Reconciliation — edits one after the other

A reconciliation looks up the version that holds and then takes the steps that are due: none, adding
the record, or closing the version and adding the record.
-/

namespace Registry

/-- An edit that answers something else. -/
def Edit.told {α β : Type} (tell : α → β) (e : Edit α) : Edit β := (e.1.map tell, e.2)

namespace Recorder

variable (w : Recorder) (l : Layout)

def add (record : Record) (tell : Int → Reconciliation) (db : Database) : Edit Reconciliation :=
  Edit.told tell (w.insertRow l (w.openVersion record) db)

/-- What follows once the version that held is closed. -/
def succeed (record : Record) (terminated : Int) :
    Except HistoryFault Version → Database → Edit Reconciliation
  | .error fault, db => (.error fault, db)
  | .ok _, db => w.add l record (.replaced terminated) db

/-- What follows once it is known which version holds. -/
def settle (record : Record) : Except HistoryFault (Option Version) → Database → Edit Reconciliation
  | .error fault, db => (.error fault, db)
  | .ok none, db => w.add l record .inserted db
  | .ok (some existing), db =>
    match existing.pid with
    | none => (.error (.unnumbered l.table), db)
    | some terminated =>
      if l.samePersisted existing.record record then (.ok (.unchanged terminated), db)
      else
        let closing := w.update l { existing with validTo := some w.time } db
        w.succeed l record terminated closing.1 closing.2

theorem insertVersion_eq (v : Version) (db : Database) : w.insertVersion l v db =
    Edit.told (fun pid => { v with pid := some pid, modified := some w.time }) (w.insertRow l v db) := by
  unfold insertVersion
  rcases w.insertRow l v db with ⟨fault | pid, after⟩ <;> rfl

theorem add_eq (record : Record) (tell : Int → Reconciliation) (db : Database) :
    w.add l record tell db =
      match w.insertRow l (w.openVersion record) db with
      | (.error fault, db) => (.error fault, db)
      | (.ok pid, db) => (.ok (tell pid), db) := by
  unfold add
  rcases w.insertRow l (w.openVersion record) db with ⟨fault | pid, db'⟩ <;> rfl

theorem reconcile_eq (record : Record) (db : Database) : w.reconcile l record db =
    w.settle l record (w.fetchCurrent l (record.valueOrNull l.key) db) db := by
  unfold reconcile
  rcases w.fetchCurrent l (record.valueOrNull l.key) db with fault | _ | existing
  · rfl
  · exact (w.add_eq l record .inserted db).symm
  · unfold settle
    dsimp only
    cases existing.pid with
    | none => rfl
    | some terminated =>
      dsimp only
      split
      · rfl
      · unfold succeed
        rcases w.update l _ db with ⟨fault | v, db'⟩
        · rfl
        · exact (w.add_eq l record (.replaced terminated) db').symm

end Recorder

end Registry
