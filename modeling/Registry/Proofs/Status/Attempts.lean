import Mathlib.Control.Monad.Basic
import Registry.Proofs.Status.Newest

/-!
# Attempts — the attempt that is told is the one that is ended

The table of a ledger has a row for each attempt that has begun, in the order in which they began.  What
tells of the latest attempt and what ends it are separate statements, and each of them looks for the row
by itself.  Both find the one with the greatest start, of equals the last, however the starts go up and
down.
-/

namespace Registry

open Database (SameBesides)

/-! ## Calls -/

/-- A call that writes into a ledger. -/
inductive LedgerCall where
  | begin (start : Instant)
  | finish (stop : Instant) (outcome : Outcome)
  deriving DecidableEq

namespace LedgerCall

def run (g : Ledger) (db : Database) : LedgerCall → Except StatusFault Database
  | begin start => g.begin start db
  | finish stop outcome => g.finish stop outcome db

/-- The database after a call; one that is refused leaves it as it was. -/
def after (g : Ledger) (db : Database) (call : LedgerCall) : Database :=
  match call.run g db with
  | .ok db => db
  | .error _ => db

theorem after_of_ok {g : Ledger} {db db' : Database} (call : LedgerCall) (h : call.run g db = .ok db') :
    call.after g db = db' := by
  rw [after, h]

theorem after_of_error {g : Ledger} {db : Database} (call : LedgerCall) {fault : StatusFault}
    (h : call.run g db = .error fault) : call.after g db = db := by
  rw [after, h]

def start? : LedgerCall → Option Instant
  | begin start => some start
  | finish _ _ => none

/-- The milliseconds of the starts that some calls tell, in their order. -/
def starts (calls : List LedgerCall) : List Int := (calls.filterMap start?).map Instant.toMillis

theorem starts_concat_begin (calls : List LedgerCall) (start : Instant) :
    starts (calls ++ [.begin start]) = starts calls ++ [start.toMillis] := by
  rw [starts, List.filterMap_append, List.map_append]
  rfl

theorem starts_concat_finish (calls : List LedgerCall) (stop : Instant) (outcome : Outcome) :
    starts (calls ++ [.finish stop outcome]) = starts calls := by
  rw [starts, List.filterMap_append, List.map_append]
  exact List.append_nil _

end LedgerCall

namespace Ledger

/-- The table of the ledger has just been made, where none was. -/
def Created (g : Ledger) (db : Database) : Prop :=
  ∃ before, before.table? g.table = none ∧ g.ensureTable before = .ok db

/-- Calls one behind the other, and the database before and after them.  Between two calls anything may
change but the table of the ledger. -/
inductive Calls (g : Ledger) (before : Database) : List LedgerCall → Database → Prop where
  | nil : Calls g before [] before
  | next {calls : List LedgerCall} {db other : Database} (h : Calls g before calls db)
      (hsame : other.table? g.table = db.table? g.table) (call : LedgerCall) :
      Calls g before (calls ++ [call]) (call.after g other)

/-! ## The attempts in a table -/

/-- What the row of an attempt keeps: the milliseconds of its start and, once it is over, those of its
end, and how it ended. -/
structure Entry where
  start : Int
  ending : Option (Int × Outcome)
  deriving DecidableEq

namespace Entry

def row (e : Entry) : Cells := Ledger.row e.start e.ending

def ended (e : Entry) (stop : Instant) (outcome : Outcome) : Entry :=
  { e with ending := some (stop.toMillis, outcome) }

def attempt (e : Entry) : Attempt where
  start := .ofMillis e.start
  stop := e.ending.map fun ending => .ofMillis ending.1
  outcome := e.ending.map (·.2)

end Entry

/-- The rows of some attempts, under the numbers from one on. -/
def rowsOf (log : List Entry) : List (Int × Cells) := log.mapIdx fun i e => ((i + 1 : Nat), e.row)

theorem rowsOf_concat (log : List Entry) (e : Entry) :
    rowsOf (log ++ [e]) = rowsOf log ++ [(((log.length + 1 : Nat) : Int), e.row)] := by
  rw [rowsOf, rowsOf, List.mapIdx_concat]

theorem mem_rowsOf {log : List Entry} {row : Int × Cells} (h : row ∈ rowsOf log) :
    row.1 ≤ log.length ∧ ∃ e ∈ log, row.2 = e.row := by
  rw [rowsOf, List.mem_mapIdx] at h
  obtain ⟨i, hi, rfl⟩ := h
  exact ⟨by simp only; omega, log[i], List.getElem_mem hi, rfl⟩

-- One attempt may be exchanged without a change in the rows of the others.
theorem rowsOf_split (earlier later : List Entry) : ∃ back : List (Int × Cells),
    (∀ row ∈ back, ∃ e ∈ later, row.2 = e.row) ∧
      ∀ e : Entry, rowsOf (earlier ++ e :: later) =
        rowsOf earlier ++ (((earlier.length + 1 : Nat) : Int), e.row) :: back := by
  refine ⟨later.mapIdx fun i e => ((i + 1 + earlier.length + 1 : Nat), e.row), fun row hrow => ?_,
    fun e => ?_⟩
  · obtain ⟨i, hi, rfl⟩ := List.mem_mapIdx.1 hrow
    exact ⟨later[i], List.getElem_mem hi, rfl⟩
  · rw [rowsOf, List.mapIdx_append, List.mapIdx_cons, Nat.zero_add]
    rfl

/-- The table of the ledger has the rows of these attempts and no others. -/
def Holds (g : Ledger) (db : Database) (log : List Entry) : Prop :=
  ∃ t, db.table? g.table = some t ∧ t.toTableDesign = g.design ∧ t.rows.entries = rowsOf log ∧
    t.lastId = log.length

/-- The attempt started no earlier than any before it, and later than any behind it. -/
def IsNewest (earlier : List Entry) (e : Entry) (later : List Entry) : Prop :=
  (∀ other ∈ earlier, other.start ≤ e.start) ∧ ∀ other ∈ later, other.start < e.start

theorem exists_newest {log : List Entry} (h : log ≠ []) :
    ∃ earlier e later, log = earlier ++ e :: later ∧ IsNewest earlier e later := by
  induction log with
  | nil => exact absurd rfl h
  | cons first rest ih =>
    by_cases hnone : rest = []
    · exact ⟨[], first, [], by rw [hnone]; rfl, nofun, nofun⟩
    obtain ⟨earlier, e, later, rfl, hearlier, hlater⟩ := ih hnone
    by_cases hfirst : first.start ≤ e.start
    · exact ⟨first :: earlier, e, later, rfl, List.forall_mem_cons.2 ⟨hfirst, hearlier⟩, hlater⟩
    · -- the first attempt started after all others
      have hlast : e.start < first.start := Int.not_le.1 hfirst
      refine ⟨[], first, earlier ++ e :: later, rfl, nofun, fun other hother => ?_⟩
      rcases List.mem_append.1 hother with hbefore | hbehind
      · exact Int.lt_of_le_of_lt (hearlier other hbefore) hlast
      rcases List.mem_cons.1 hbehind with rfl | hbehind
      · exact hlast
      · exact Int.lt_trans (hlater other hbehind) hlast

/-! ## A single call -/

variable {g : Ledger} {db db' before : Database} {log earlier later : List Entry} {e : Entry}

theorem Created.holds (h : g.Created db) : g.Holds db [] := by
  obtain ⟨before, hnone, hensure⟩ := h
  change (before.createTable true g.design).mapError _ = _ at hensure
  cases hcreate : before.createTable true g.design with
  | error fault =>
    rw [hcreate] at hensure
    cases hensure
  | ok created =>
    rw [hcreate] at hensure
    cases hensure
    obtain ⟨t, rfl, ht, hrows, hlast⟩ := Database.createTable_eq_ok (d := g.design) hnone hcreate
    exact ⟨t, Database.table?_put_self _ _ _, ht, by rw [hrows]; rfl, hlast⟩

theorem cellOf_row (id : Int) (e : Entry) :
    cellOf (id, e.row) startColumn = .integer e.start ∧
      cellOf (id, e.row) stopColumn = Cell.ofOption (fun ending => .integer ending.1) e.ending ∧
      cellOf (id, e.row) outcomeColumn = Cell.ofOption (fun ending => .text ending.2.word) e.ending := by
  refine ⟨?_, ?_, ?_⟩ <;> rw [cellOf, if_neg (by decide)] <;>
    simp only [Entry.row, row, Cells.read_cons] <;> rfl

theorem readAttempt_told {names : List String} (hstart : startColumn ∈ names) (hstop : stopColumn ∈ names)
    (houtcome : outcomeColumn ∈ names) (id : Int) (e : Entry) :
    readAttempt (told names (id, e.row)) = .ok e.attempt := by
  obtain ⟨hcell, hcell', hcell''⟩ := cellOf_row id e
  simp only [readAttempt, readOutcome, readTime, readColumn, lookup_told hstart, lookup_told hstop,
    lookup_told houtcome, hcell, hcell', hcell'', Entry.attempt]
  cases e.ending with
  | none => rfl
  | some ending =>
    simp only [Cell.ofOption, Outcome.ofWord_word]
    rfl

namespace Holds

theorem of_table? (h : g.Holds db log) (hsame : db'.table? g.table = db.table? g.table) :
    g.Holds db' log := by
  obtain ⟨t, htable, hrest⟩ := h
  exact ⟨t, hsame.trans htable, hrest⟩

/-- An attempt that begins is one more, as long as there are numbers. -/
theorem begin_spec (h : g.Holds db log) (start : Instant) :
    if log.length + 1 < 2 ^ 63 then
      ∃ begun, g.begin start db = .ok begun ∧ g.Holds begun (log ++ [⟨start.toMillis, none⟩])
    else g.begin start db = .error (.database .full) := by
  obtain ⟨t, htable, ht, hentries, hlast⟩ := h
  have hcount : t.keepsCount = true := congrArg TableDesign.keepsCount ht
  have hnext : t.nextId = (log.length + 1 : Nat) :=
    Table.nextId_of_lastId hcount hlast fun row hrow => (mem_rowsOf (hentries ▸ hrow)).1
  have hbegin := begin_eq htable ht start
  rw [hnext] at hbegin
  split
  · rename_i hroom
    rw [if_pos ((Table.isInteger_next _).2 hroom)] at hbegin
    refine ⟨_, hbegin, _, Database.table?_put_self _ _ _, ht, ?_, ?_⟩
    · rw [Table.entries_appending, hentries, hnext, rowsOf_concat]
      rfl
    · show max t.nextId t.lastId = _
      rw [hnext, hlast, List.length_append, List.length_singleton]
      omega
  · rename_i hfull
    rw [hbegin, if_neg fun hinteger => hfull ((Table.isInteger_next _).1 hinteger)]

-- How the rows before and behind the newest attempt start.
theorem exists_rows (h : g.Holds db (earlier ++ e :: later)) (hnewest : IsNewest earlier e later) :
    ∃ t back, db.table? g.table = some t ∧ t.toTableDesign = g.design ∧
      t.rows.entries = rowsOf earlier ++ (((earlier.length + 1 : Nat) : Int), e.row) :: back ∧
      t.lastId = (earlier ++ e :: later).length ∧
      (∀ row ∈ rowsOf earlier, (row.2.read startColumn).atMost (.integer e.start) = true) ∧
      (∀ row ∈ back, (Cell.integer e.start).atMost (row.2.read startColumn) = false) ∧
      ∀ e' : Entry, rowsOf (earlier ++ e' :: later) =
        rowsOf earlier ++ (((earlier.length + 1 : Nat) : Int), e'.row) :: back := by
  obtain ⟨t, htable, ht, hentries, hlast⟩ := h
  obtain ⟨back, hback, hrows⟩ := rowsOf_split earlier later
  refine ⟨t, back, htable, ht, by rw [hentries, hrows], hlast, fun row hrow => ?_, fun row hrow => ?_, hrows⟩
  · obtain ⟨-, other, hother, heq⟩ := mem_rowsOf hrow
    rw [heq, Entry.row, read_row, Cell.atMost_integer, decide_eq_true_eq]
    exact hnewest.1 other hother
  · obtain ⟨other, hother, heq⟩ := hback row hrow
    rw [heq, Entry.row, read_row, Cell.atMost_integer, decide_eq_false_iff_not, Int.not_le]
    exact hnewest.2 other hother

/-- The end of an attempt is written into the row of the newest. -/
theorem finish_spec (h : g.Holds db (earlier ++ e :: later)) (hnewest : IsNewest earlier e later)
    (stop : Instant) (outcome : Outcome) :
    ∃ ended, g.finish stop outcome db = .ok ended ∧
      g.Holds ended (earlier ++ e.ended stop outcome :: later) := by
  obtain ⟨t, back, htable, ht, hentries, hlast, hfront, hback, hrows⟩ := h.exists_rows hnewest
  obtain ⟨t', ended, hfinish, htable', ht', hlast', hentries'⟩ :=
    Ledger.finish_spec htable ht hentries hfront hback stop outcome
  refine ⟨ended, hfinish, t', htable', ht', by rw [hentries', hrows]; rfl, ?_⟩
  rw [hlast', hlast, List.length_append, List.length_append, List.length_cons, List.length_cons]

-- Without attempts no row is changed.
theorem finish_none (h : g.Holds db []) (stop : Instant) (outcome : Outcome) :
    g.finish stop outcome db = .ok { db with changed := 0 } := by
  obtain ⟨t, htable, ht, hentries, -⟩ := h
  have hselect : db.select g.table [stopColumn, outcomeColumn, idColumn, startColumn] [] = .ok [] := by
    rw [select_told htable ht (by decide), hentries]
    rfl
  have hknown : t.unknown? ([Condition.equals idColumn .null].map Condition.column) = none := by
    refine Table.unknown?_eq_none fun name hname => .inl ?_
    rw [List.mem_singleton.1 hname]
    exact idColumn_of_design ht
  have hnone : ∀ row ∈ t.rows.entries, Condition.allHold t [.equals idColumn .null] row.1 row.2 = false :=
    fun row hrow => by
      rw [hentries] at hrow
      cases hrow
  have hplain : ∀ c ∈ [Condition.equals idColumn .null], senseOf c.column = .column := by decide +kernel
  have hupdate := Database.update_none htable (isPlain_of_design ht)
    (names_ending ht (.integer stop.toMillis) (.text outcome.word)) hplain hknown hnone
  unfold finish
  rw [hselect]
  dsimp only [newest?]
  rw [hupdate]

/-- The latest attempt is told as its row keeps it. -/
theorem latest_eq (h : g.Holds db (earlier ++ e :: later)) (hnewest : IsNewest earlier e later) :
    g.latest db = .ok (some e.attempt) := by
  obtain ⟨t, back, htable, ht, hentries, -, hfront, hback, -⟩ := h.exists_rows hnewest
  have hshown : ∀ name ∈ [startColumn, stopColumn, outcomeColumn, idColumn], name ∈ shown := by decide
  obtain ⟨rows, hselect, hfirst⟩ := select_newest htable ht hshown (by decide) hentries
    (by rwa [Entry.row, read_row]) (by rwa [Entry.row, read_row])
  unfold latest
  rw [hselect]
  dsimp only
  rw [hfirst]
  dsimp only
  rw [readAttempt_told (by decide) (by decide) (by decide)]
  rfl

-- The latest attempt is told with the greatest of all starts.
theorem latest_start (h : g.Holds db log) (hlog : log ≠ []) :
    ∃ attempt ms, g.latest db = .ok (some attempt) ∧ attempt.start = .ofMillis ms ∧
      ms ∈ log.map Entry.start ∧ ∀ other ∈ log.map Entry.start, other ≤ ms := by
  obtain ⟨earlier, e, later, rfl, hnewest⟩ := exists_newest hlog
  refine ⟨e.attempt, e.start, h.latest_eq hnewest, rfl, by simp, fun other hother => ?_⟩
  rw [List.map_append, List.map_cons, List.mem_append, List.mem_cons] at hother
  rcases hother with hearlier | rfl | hlater
  · obtain ⟨entry, hentry, rfl⟩ := List.mem_map.1 hearlier
    exact hnewest.1 entry hentry
  · exact Int.le_refl _
  · obtain ⟨entry, hentry, rfl⟩ := List.mem_map.1 hlater
    exact Int.le_of_lt (hnewest.2 entry hentry)

theorem latest_none (h : g.Holds db []) : g.latest db = .ok none := by
  obtain ⟨t, htable, ht, hentries, -⟩ := h
  unfold latest
  rw [select_told htable ht (by decide), hentries]
  rfl

end Holds

/-! ## All calls -/

namespace Holds

-- What one call does to the attempts in the table.
theorem after_begin (h : g.Holds db log) (start : Instant) :
    g.Holds ((LedgerCall.begin start).after g db)
      (if log.length + 1 < 2 ^ 63 then log ++ [⟨start.toMillis, none⟩] else log) := by
  have hbegin := h.begin_spec start
  split at hbegin
  · rename_i hroom
    obtain ⟨begun, hbegin, hholds⟩ := hbegin
    rwa [LedgerCall.after_of_ok (.begin start) hbegin, if_pos hroom]
  · rename_i hfull
    rwa [LedgerCall.after_of_error (.begin start) hbegin, if_neg hfull]

theorem after_finish (h : g.Holds db log) (stop : Instant) (outcome : Outcome) :
    ∃ log' : List Entry, g.Holds ((LedgerCall.finish stop outcome).after g db) log' ∧
      log'.map Entry.start = log.map Entry.start := by
  by_cases hnone : log = []
  · subst hnone
    rw [LedgerCall.after_of_ok (.finish stop outcome) (h.finish_none stop outcome)]
    exact ⟨[], h.of_table? rfl, rfl⟩
  · obtain ⟨earlier, e, later, rfl, hnewest⟩ := exists_newest hnone
    obtain ⟨ended, hfinish, hholds⟩ := h.finish_spec hnewest stop outcome
    rw [LedgerCall.after_of_ok (.finish stop outcome) hfinish]
    refine ⟨_, hholds, ?_⟩
    rw [List.map_append, List.map_append]
    rfl

end Holds

-- The table gains an attempt with each start, as long as there are numbers.
theorem Calls.holds {calls : List LedgerCall} (h : g.Calls before calls db) (hbefore : g.Holds before log)
    (hroom : log.length < 2 ^ 63) : ∃ log', g.Holds db log' ∧
      log'.map Entry.start = (log.map Entry.start ++ LedgerCall.starts calls).take (2 ^ 63 - 1) := by
  induction h with
  | nil =>
    refine ⟨log, hbefore, ?_⟩
    rw [LedgerCall.starts, List.filterMap_nil, List.map_nil, List.append_nil,
      List.take_of_length_le (by rw [List.length_map]; omega)]
  | @next calls db other h hsame call ih =>
    obtain ⟨log', hholds, hstarts⟩ := ih
    replace hholds := hholds.of_table? hsame
    cases call with
    | begin start =>
      refine ⟨_, hholds.after_begin start, ?_⟩
      have hlength := congrArg List.length hstarts
      rw [List.length_map, List.length_take] at hlength
      rw [LedgerCall.starts_concat_begin, ← List.append_assoc, List.take_append]
      generalize List.map Entry.start log ++ LedgerCall.starts calls = all at hstarts hlength ⊢
      split
      · rename_i hmore
        rw [List.map_append, hstarts, List.take_of_length_le (l := [start.toMillis]) (by simp; omega)]
        rfl
      · rename_i hfull
        rw [hstarts, Nat.sub_eq_zero_of_le (n := 2 ^ 63 - 1) (by omega), List.take_zero, List.append_nil]
    | finish stop outcome =>
      obtain ⟨log'', hholds', hstarts'⟩ := hholds.after_finish stop outcome
      refine ⟨log'', hholds', ?_⟩
      rw [hstarts', hstarts, LedgerCall.starts_concat_finish]

/-- The attempt that is told is the one that is ended.  After any calls the table has one row for each
start, in their order, as far as the numbers go.  Before the first start no attempt is told, and an end
changes no row.  After it the attempt is told that has the greatest start, of equals the last.  An end is
written into its row and changes nothing else, and then the same attempt is told, with its start, the
given end without what is less than a millisecond, and the given outcome. -/
theorem Calls.finish_latest {calls : List LedgerCall} (hcreated : g.Created before)
    (h : g.Calls before calls db) : ∃ log, g.Holds db log ∧
      log.map Entry.start = (LedgerCall.starts calls).take (2 ^ 63 - 1) ∧
      (LedgerCall.starts calls = [] → g.latest db = .ok none ∧
        ∀ stop outcome, g.finish stop outcome db = .ok { db with changed := 0 }) ∧
      (LedgerCall.starts calls ≠ [] → ∃ earlier e later, log = earlier ++ e :: later ∧
        IsNewest earlier e later ∧ g.latest db = .ok (some e.attempt) ∧
        ∀ stop outcome, ∃ ended, g.finish stop outcome db = .ok ended ∧ SameBesides g.table db ended ∧
          g.Holds ended (earlier ++ { e with ending := some (stop.toMillis, outcome) } :: later) ∧
          g.latest ended = .ok (some
            { start := e.attempt.start, stop := some stop.truncated, outcome := some outcome })) := by
  obtain ⟨log, hholds, hstarts⟩ := h.holds hcreated.holds (by decide)
  rw [List.map_nil, List.nil_append] at hstarts
  refine ⟨log, hholds, hstarts, fun hnone => ?_, fun hsome => ?_⟩
  · rw [hnone, List.take_nil, List.map_eq_nil_iff] at hstarts
    subst hstarts
    exact ⟨hholds.latest_none, hholds.finish_none⟩
  · have hlog : log ≠ [] := by
      rintro rfl
      obtain hnone | hnone := List.take_eq_nil_iff.1 hstarts.symm
      · exact absurd hnone (by omega)
      · exact hsome hnone
    obtain ⟨earlier, e, later, rfl, hnewest⟩ := exists_newest hlog
    refine ⟨earlier, e, later, rfl, hnewest, hholds.latest_eq hnewest, fun stop outcome => ?_⟩
    obtain ⟨ended, hfinish, hended⟩ := hholds.finish_spec hnewest stop outcome
    exact ⟨ended, hfinish, sameBesides_finish hfinish, hended, hended.latest_eq hnewest⟩

/-! ### A ledger of persons -/

def persons : Ledger := { home := "person", home_identifier := rfl, maxDays := 1 }

def personsCreated : Database := (persons.ensureTable .empty).toOption.getD .empty

/-- Two attempts that start at once, and one that is told to have started before them. -/
def personsCalls : List LedgerCall :=
  [.begin (.ofMillis 9000), .begin (.ofMillis 9000), .begin (.ofMillis 2000)]

def personsBegun : Database := personsCalls.foldl (LedgerCall.after persons) personsCreated

theorem personsCreated_created : persons.Created personsCreated := ⟨.empty, rfl, by decide +kernel⟩

theorem personsBegun_calls : persons.Calls personsCreated personsCalls personsBegun :=
  .next (.next (.next .nil rfl _) rfl _) rfl _

-- The second of the two attempts is told and ended.
theorem Calls.finish_latest_persons : ∃ ended,
    persons.finish (.ofMillis 9500) .failure personsBegun = .ok ended ∧
      SameBesides persons.table personsBegun ended ∧
      persons.latest ended = .ok (some
        { start := .ofMillis 9000, stop := some (.ofMillis 9500), outcome := some .failure }) ∧
      (ended.table? persons.table).map (·.rows.entries) =
        some [(1, row 9000 none), (2, row 9000 (some (9500, .failure))), (3, row 2000 none)] := by
  obtain ⟨_, -, -, -, hsome⟩ := Calls.finish_latest personsCreated_created personsBegun_calls
  obtain ⟨_, e, _, -, -, hlatest, hfinish⟩ := hsome (by decide +kernel)
  obtain ⟨ended, hended, hothers, -, hafter⟩ := hfinish (.ofMillis 9500) .failure
  have hbefore : persons.latest personsBegun =
      .ok (some { start := .ofMillis 9000, stop := none, outcome := none }) := by decide +kernel
  rw [hbefore, Except.ok.injEq, Option.some.injEq] at hlatest
  rw [← hlatest] at hafter
  have hrows : (persons.finish (.ofMillis 9500) .failure personsBegun).toOption.map
      (fun ended => (ended.table? persons.table).map (·.rows.entries)) =
        some (some [(1, row 9000 none), (2, row 9000 (some (9500, .failure))), (3, row 2000 none)]) := by
    decide +kernel
  rw [hended] at hrows
  exact ⟨ended, hended, hothers, hafter, Option.some.inj hrows⟩

end Ledger

end Registry
