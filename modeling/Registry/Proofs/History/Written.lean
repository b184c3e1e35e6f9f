import Registry.Proofs.History.Engine
import Registry.Proofs.History.Recorded

/-!
# Written — the registers that recorders can have left

A register starts with the table that its layout creates, and each call of a recorder goes on from the
register that the last one has left, whatever the call asks for and whether or not it succeeds.  In
every such register the table keeps versions: those that a call gives, and those from before as they
were, closed, or read and written again.
-/

namespace Registry

open Registry.Text

namespace Layout

/-- A database whose table of the layout was created and then written by calls of recorders, if it was
written at all.  What is done besides leaves the table as it is, or takes it back to how it was, and the
same goes for a call that undoes an open transaction. -/
inductive Written (l : Layout) : Database → Prop
  | created {db : Database} : l.Created db → Written l db
  | called {db : Database} (w : Recorder) (request : EngineRequest) :
      Written l db → db.Lasts (EngineCall.run w ⟨l, request⟩ db).1 →
        Written l (EngineCall.run w ⟨l, request⟩ db).2
  | elsewhere {db after : Database} :
      Written l db → after.table? l.table = db.table? l.table → Written l after

/-- The table of the layout keeps versions. -/
def IsRecorded (l : Layout) (db : Database) : Prop := ∃ versions given, Recorded l db versions given

end Layout

namespace EngineRequest

/-- The versions that a request adds or puts in the place of others. -/
def versions (w : Recorder) : EngineRequest → List Version
  | insert r | reconcile r => [w.openVersion r]
  | insertVersion v | update v => [v]
  | fetch .. | terminate _ | terminateAt .. => []

/-- The instants at which a request closes the versions of a key. -/
def stops (w : Recorder) : EngineRequest → List Instant
  | terminate _ => [w.time]
  | terminateAt _ stop => [stop]
  | fetch .. | insert _ | insertVersion _ | update _ | reconcile _ => []

end EngineRequest

/-- A version that a call can have left, by the versions before it, those that it was given and the
instants at which it closes. -/
inductive Versions.Leave (l : Layout) (w : Recorder) (before : Versions) (given : List Version)
    (stops : List Instant) : StoredVersion → Prop
  | kept {e : Int × StoredVersion} : e ∈ before.entries → Leave l w before given stops e.2
  | closed {e : Int × StoredVersion} {stop : Instant} : e ∈ before.entries → stop ∈ stops →
      Leave l w before given stops (e.2.closedAt stop.toMillis w.time.toMillis)
  | rewritten {e : Int × StoredVersion} {now : Instant} {read : Version} : e ∈ before.entries →
      l.readVersion (StoredVersion.answerOf l e.1 (e.2.shownCell now)) = .ok read →
        Leave l w before given stops ({ read with validTo := some w.time }.stored l w.time)
  | given {v : Version} : v ∈ given → l.conforms v.record = true →
      Leave l w before given stops (v.stored l w.time)

/-- The table of the layout keeps versions that a call can have left. -/
def Layout.LeftBy (l : Layout) (w : Recorder) (before : Versions) (given : List Version)
    (stops : List Instant) (after : Database) : Prop :=
  ∃ versions last, Recorded l after versions last ∧
    ∀ e ∈ versions.entries, before.Leave l w given stops e.2

/-! ## What each call leaves -/

namespace Recorded

variable {l : Layout} {db : Database} {versions : Versions} {last : Nat}

theorem congr (h : Recorded l db versions last) {after : Database}
    (hsame : after.table? l.table = db.table? l.table) : Recorded l after versions last where
  table := by
    rw [hsame]
    exact h.table
  written := h.written
  numbered := h.numbered

theorem leftBy (h : Recorded l db versions last) (w : Recorder) (given : List Version)
    (stops : List Instant) : l.LeftBy w versions given stops db :=
  ⟨versions, last, h, fun _ he => .kept he⟩

-- Where no transaction is undone, a statement that is refused leaves the table.
theorem refused (h : Recorded l db versions last) {α : Type} {fault : DatabaseFault}
    (hlasts : db.Lasts (.error (.database fault) : Except HistoryFault α)) :
    Recorded l (db.refused fault) versions last :=
  h.congr (Database.table?_refused hlasts l.table)

-- A row that is added is that of the version, and leaves the others.
theorem exists_insertRow (h : Recorded l db versions last) (w : Recorder) (v : Version)
    (hlasts : db.Lasts (w.insertRow l v db).1) :
    ∃ versions' last', Recorded l (w.insertRow l v db).2 versions' last' ∧
      ∀ e ∈ versions'.entries,
        e ∈ versions.entries ∨ e.2 = v.stored l w.time ∧ l.conforms v.record = true := by
  cases hfault : l.fault? v.record with
  | some fault =>
    rw [Recorder.insertRow, hfault]
    exact ⟨versions, last, h, fun _ => .inl⟩
  | none =>
    have hconforms : l.conforms v.record = true := by
      rw [Layout.conforms, hfault, Option.isNone_none]
    by_cases hroom : last + 1 < 2 ^ 63
    · obtain ⟨after, hinsert, hafter⟩ := h.insertRow_eq hroom w hconforms
      rw [hinsert]
      refine ⟨_, _, hafter, fun e he => ?_⟩
      rcases SortedMap.mem_insertEntry he with rfl | he
      · exact .inr ⟨rfl, hconforms⟩
      · exact .inl he
    · rw [h.insertRow_full hroom w hconforms] at hlasts ⊢
      exact ⟨versions, last, h.refused hlasts, fun _ => .inl⟩

theorem leftBy_insertRow (h : Recorded l db versions last) (w : Recorder) (v : Version)
    (hlasts : db.Lasts (w.insertRow l v db).1) :
    l.LeftBy w versions [v] [] (w.insertRow l v db).2 := by
  obtain ⟨versions', last', hafter, horigin⟩ := h.exists_insertRow w v hlasts
  refine ⟨versions', last', hafter, fun e he => ?_⟩
  rcases horigin e he with hkept | ⟨hgiven, hconforms⟩
  · exact .kept hkept
  · rw [hgiven]
    exact .given (List.mem_singleton_self v) hconforms

theorem leftBy_insertVersion (h : Recorded l db versions last) (w : Recorder) (v : Version)
    (hlasts : db.Lasts (w.insertVersion l v db).1) :
    l.LeftBy w versions [v] [] (w.insertVersion l v db).2 := by
  rw [w.insertVersion_eq] at hlasts ⊢
  exact h.leftBy_insertRow w v (Database.lasts_of_told hlasts)

-- A version that is written again takes the place of one under its number, if there is one.
theorem exists_update (h : Recorded l db versions last) (w : Recorder) (v : Version) :
    ∃ versions', Recorded l (w.update l v db).2 versions' last ∧ ∀ e ∈ versions'.entries,
      e ∈ versions.entries ∨ e.2 = v.stored l w.time ∧ l.conforms v.record = true := by
  cases hpid : v.pid with
  | none =>
    rw [Recorder.update, hpid]
    exact ⟨versions, h, fun _ => .inl⟩
  | some pid =>
    cases hfault : l.fault? v.record with
    | some fault =>
      simp only [Recorder.update, hpid, hfault]
      exact ⟨versions, h, fun _ => .inl⟩
    | none =>
      have hconforms : l.conforms v.record = true := by
        rw [Layout.conforms, hfault, Option.isNone_none]
      obtain ⟨after, hafter, hupdate⟩ := h.update_version_eq w hpid hconforms
      rw [hupdate]
      refine ⟨_, hafter, fun now hnow => ?_⟩
      obtain ⟨old, hold, rfl⟩ := List.mem_map.1 hnow
      dsimp only
      split
      · exact .inr ⟨rfl, hconforms⟩
      · exact .inl hold

theorem leftBy_update (h : Recorded l db versions last) (w : Recorder) (v : Version) :
    l.LeftBy w versions [v] [] (w.update l v db).2 := by
  obtain ⟨versions', hafter, horigin⟩ := h.exists_update w v
  refine ⟨versions', last, hafter, fun e he => ?_⟩
  rcases horigin e he with hkept | ⟨hgiven, hconforms⟩
  · exact .kept hkept
  · rw [hgiven]
    exact .given (List.mem_singleton_self v) hconforms

theorem leftBy_terminateAt (h : Recorded l db versions last) (hsense : senseOf l.key = .column)
    (w : Recorder) (r : Record) (stop : Instant) :
    l.LeftBy w versions [] [stop] (w.terminateAt l r stop db).2 := by
  by_cases hfits : (r.valueOrNull l.key).fits l.keyField.type = true
  · obtain ⟨after, hterminate, hafter⟩ := h.terminateAt_eq hsense w hfits stop
    rw [hterminate]
    refine ⟨_, _, hafter, fun now hnow => ?_⟩
    obtain ⟨old, hold, rfl⟩ := List.mem_map.1 hnow
    dsimp only
    split
    · exact .closed hold (List.mem_singleton_self stop)
    · exact .kept hold
  · simp only [Recorder.terminateAt, Field.cell, if_neg hfits]
    exact h.leftBy w _ _

theorem leftBy_reconcile (h : Recorded l db versions last) (hsense : senseOf l.key = .column)
    (w : Recorder) (r : Record) (hlasts : db.Lasts (w.reconcile l r db).1) :
    l.LeftBy w versions [w.openVersion r] [] (w.reconcile l r db).2 := by
  rw [w.reconcile_eq] at hlasts ⊢
  cases hfetch : w.fetchCurrent l (r.valueOrNull l.key) db with
  | error fault => exact h.leftBy w _ _
  | ok found =>
    rw [hfetch] at hlasts
    cases found with
    | none =>
      show l.LeftBy w versions _ _ (w.add l r .inserted db).2
      refine h.leftBy_insertRow w (w.openVersion r) fun hfull => hlasts ?_
      show (w.add l r .inserted db).1 = _
      rw [Recorder.add, Edit.told, hfull]
      rfl
    | some existing =>
      obtain ⟨e, hone, hread⟩ := h.exists_of_fetchAt hsense hfetch
      obtain ⟨hentry, -, -⟩ := Versions.mem_found.1 (hone ▸ List.mem_singleton_self e)
      unfold Recorder.settle at hlasts ⊢
      dsimp only at hlasts ⊢
      cases hpid : existing.pid with
      | none => exact h.leftBy w _ _
      | some terminated =>
        simp only [hpid] at hlasts ⊢
        split
        · exact h.leftBy w _ _
        · rename_i hdifferent
          rw [if_neg hdifferent] at hlasts
          obtain ⟨closed, hclosed, horigin⟩ :=
            h.exists_update w { existing with validTo := some w.time }
          have hrewritten : ∀ e ∈ closed.entries, versions.Leave l w [w.openVersion r] [] e.2 := by
            intro e' he'
            rcases horigin e' he' with hkept | ⟨hgiven, -⟩
            · exact .kept hkept
            · rw [hgiven]
              exact .rewritten hentry hread
          have hbegun := w.begun_update l { existing with validTo := some w.time } db
          simp only [hpid] at hclosed hbegun
          rcases hclose : w.update l { existing with pid := some terminated, validTo := some w.time } db with
            ⟨fault | now, after⟩ <;> rw [hclose] at hclosed hlasts hbegun
          · exact ⟨closed, last, hclosed, hrewritten⟩
          · have hlasts' : after.Lasts (w.insertRow l (w.openVersion r) after).1 := by
              refine fun hfull => hbegun.trans (hlasts ?_)
              show (w.add l r (.replaced terminated) after).1 = _
              rw [Recorder.add, Edit.told, hfull]
              rfl
            obtain ⟨versions', last', hafter, hadded⟩ :=
              hclosed.exists_insertRow w (w.openVersion r) hlasts'
            refine ⟨versions', last', hafter, fun e' he' => ?_⟩
            rcases hadded e' he' with hmem | ⟨hgiven, hconforms⟩
            · exact hrewritten e' hmem
            · rw [hgiven]
              exact .given (List.mem_singleton_self _) hconforms

/-- Whatever is asked of a recorder, each version of the register is afterwards as it was, closed at an
instant of the request or written again, or is one of those in the request. -/
theorem leftBy_run (h : Recorded l db versions last) (hsense : senseOf l.key = .column) (w : Recorder)
    (request : EngineRequest) (hlasts : db.Lasts (EngineCall.run w ⟨l, request⟩ db).1) :
    l.LeftBy w versions (request.versions w) (request.stops w)
      (EngineCall.run w ⟨l, request⟩ db).2 := by
  cases request with
  | fetch column key asOf => exact h.leftBy w _ _
  | insert r => exact h.leftBy_insertVersion w (w.openVersion r) (Database.lasts_of_told hlasts)
  | insertVersion v => exact h.leftBy_insertVersion w v (Database.lasts_of_told hlasts)
  | update v => exact h.leftBy_update w v
  | terminate r => exact h.leftBy_terminateAt hsense w r w.time
  | terminateAt r stop => exact h.leftBy_terminateAt hsense w r stop
  | reconcile r => exact h.leftBy_reconcile hsense w r (Database.lasts_of_told hlasts)

end Recorded

/-- In every register that recorders can have left the table keeps versions. -/
theorem Layout.Written.isRecorded {l : Layout} {db : Database} (h : l.Written db)
    (hsense : senseOf l.key = .column) : l.IsRecorded db := by
  induction h with
  | created hcreated => exact ⟨_, _, hcreated.recorded⟩
  | called w request _ hlasts ih =>
    obtain ⟨versions, last, hrecorded⟩ := ih
    obtain ⟨versions', last', hafter, -⟩ := hrecorded.leftBy_run hsense w request hlasts
    exact ⟨versions', last', hafter⟩
  | elsewhere _ hsame ih =>
    obtain ⟨versions, last, hrecorded⟩ := ih
    exact ⟨versions, last, hrecorded.congr hsame⟩

end Registry
