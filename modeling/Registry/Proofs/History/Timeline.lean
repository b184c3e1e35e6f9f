import Mathlib.Control.Monad.Basic
import Registry.Proofs.History.ClockWord
import Registry.Proofs.History.Holding

/-!
# Timeline — what a register says of each key at each time

A timeline tells for each key and each millisecond the record that holds, if one does.  A record that
is reconciled holds from the instant of its recorder on, and a termination ends what holds from an
instant on.  The versions in the table tell the same timeline, whatever the order of future and past
terminations, so that every lookup answers as the timeline does.
-/

namespace Registry

/-! ## Calls -/

/-- What is asked of a register. -/
inductive Amendment where
  | reconcile (record : Record)
  | terminate (record : Record)
  | terminateAt (record : Record) (stop : Instant)
  deriving DecidableEq

namespace Amendment

def record : Amendment → Record
  | reconcile r | terminate r | terminateAt r _ => r

/-- The record conforms and has whole milliseconds, and the end is in no leap second. -/
def IsAdmissible (l : Layout) (c : Amendment) : Prop :=
  l.conforms c.record = true ∧ l.IsWholeMilli c.record ∧
    match c with
    | terminateAt _ stop => stop.isLeap = false
    | _ => True

instance (l : Layout) (c : Amendment) : Decidable (c.IsAdmissible l) := by
  unfold IsAdmissible
  cases c <;> infer_instance

def run (w : Recorder) (l : Layout) (c : Amendment) (db : Database) : Edit Unit :=
  match c with
  | reconcile r => ((w.reconcile l r db).1.map fun _ => (), (w.reconcile l r db).2)
  | terminate r => ((w.terminate l r db).1.map fun _ => (), (w.terminate l r db).2)
  | terminateAt r stop => ((w.terminateAt l r stop db).1.map fun _ => (), (w.terminateAt l r stop db).2)

/-- Calls of recorders one after the other, up to the first that fails. -/
def runAll (l : Layout) : List (Recorder × Amendment) → Database → Edit Unit
  | [], db => (.ok (), db)
  | (w, c) :: rest, db =>
    match c.run w l db with
    | (.error fault, db) => (.error fault, db)
    | (.ok (), db) => runAll l rest db

end Amendment

/-! ## Timelines -/

/-- The record that holds for a key at a millisecond. -/
abbrev Timeline := Value → Int → Option Record

namespace Timeline

def empty : Timeline := fun _ _ => none

/-- The timeline with something else for a key from a time on. -/
def setFrom (A : Timeline) (key : Value) (ms : Int) (r : Option Record) : Timeline :=
  fun k s => if k = key ∧ ms ≤ s then r else A k s

theorem setFrom_setFrom (A : Timeline) (key : Value) (ms : Int) (r s : Option Record) :
    (A.setFrom key ms r).setFrom key ms s = A.setFrom key ms s := by
  funext k t
  simp only [setFrom]
  by_cases hlater : k = key ∧ ms ≤ t
  · rw [if_pos hlater, if_pos hlater]
  · rw [if_neg hlater, if_neg hlater, if_neg hlater]

def after (l : Layout) (A : Timeline) (w : Recorder) (c : Amendment) : Timeline :=
  let key := c.record.valueOrNull l.key
  match c with
  | .reconcile r =>
    if (A key w.time.toMillis).any fun known => l.samePersisted known r then A
    else A.setFrom key w.time.toMillis (some r)
  | .terminate _ => A.setFrom key w.time.toMillis none
  | .terminateAt _ stop => A.setFrom key stop.toMillis none

def afterAll (l : Layout) (A : Timeline) (calls : List (Recorder × Amendment)) : Timeline :=
  calls.foldl (fun A c => A.after l c.1 c.2) A

end Timeline

/-! ## Versions and timelines -/

/-- The versions say what the timeline says, and none has begun behind the latest call. -/
structure Tells (l : Layout) (versions : Versions) (A : Timeline) (latest : Int) : Prop where
  records : ∀ key ms, versions.records l key ms = (A key ms).toList.map l.stored
  begun : ∀ e ∈ versions.entries, e.2.validFrom ≤ latest

namespace Tells

variable {l : Layout} {versions : Versions} {A : Timeline} {latest : Int}

theorem empty (l : Layout) (latest : Int) : Tells l .empty .empty latest :=
  ⟨fun _ _ => rfl, fun _ he => by cases he⟩

theorem current_eq_nil (h : Tells l versions A latest) {key : Value} {ms : Int}
    (hnone : A key ms = none) : versions.current l key ms = [] := by
  have hrecords := h.records key ms
  rw [hnone] at hrecords
  exact List.map_eq_nil_iff.1 hrecords

theorem exists_current (h : Tells l versions A latest) {key : Value} {ms : Int} {r : Record}
    (hsome : A key ms = some r) :
    ∃ e, versions.current l key ms = [e] ∧ e.2.record = l.stored r := by
  have hrecords := h.records key ms
  rw [hsome] at hrecords
  obtain ⟨e, hcurrent, hrecord⟩ := List.map_eq_singleton_iff.1 hrecords
  exact ⟨e, hcurrent, hrecord⟩

-- What ends the versions of a key at a time ends the timeline of the key there.
theorem setFrom_none (h : Tells l versions A latest)
    {change : Int → StoredVersion → StoredVersion} {key : Value} {stop : Int}
    (hended : ∀ k ms, Versions.records (versions.map change) l k ms =
      if k = key ∧ stop ≤ ms then [] else versions.records l k ms)
    (hfrom : ∀ pid v, (change pid v).validFrom = v.validFrom) :
    Tells l (versions.map change) (A.setFrom key stop none) latest := by
  refine ⟨fun k ms => ?_, fun e he => ?_⟩
  · rw [hended, Timeline.setFrom]
    by_cases hgone : k = key ∧ stop ≤ ms
    · rw [if_pos hgone, if_pos hgone]
      rfl
    · rw [if_neg hgone, if_neg hgone, h.records]
  · obtain ⟨old, hold, rfl⟩ := List.mem_map.1 he
    show (change old.1 old.2).validFrom ≤ latest
    rw [hfrom]
    exact h.begun old hold

-- A new version without end continues the timeline where it says nothing any more.
theorem setFrom_some (h : Tells l versions A latest) {pid : Int} {v : StoredVersion} {r : Record}
    (hnew : ∀ e ∈ versions.entries, e.1 < pid) (hrecord : v.record = l.stored r)
    (hto : v.validTo = none) (hfrom : v.validFrom = latest)
    (hnone : ∀ ms, latest ≤ ms → A (v.key l) ms = none) :
    Tells l (versions.insert pid v) (A.setFrom (v.key l) latest (some r)) latest := by
  refine ⟨fun k ms => ?_, fun e he => ?_⟩
  · have hholds : v.holdsAt ms = true ↔ latest ≤ ms := by
      rw [StoredVersion.holdsAt_iff, hto, hfrom]
      simp
    rw [Versions.records_insert hnew, Timeline.setFrom, h.records]
    by_cases hlater : k = v.key l ∧ latest ≤ ms
    · rw [if_pos hlater, if_pos ⟨hlater.1.symm, hholds.2 hlater.2⟩, hlater.1, hnone ms hlater.2,
        hrecord]
      rfl
    · rw [if_neg hlater, if_neg fun hv => hlater ⟨hv.1.symm, hholds.1 hv.2⟩, List.append_nil]
  · rcases SortedMap.mem_insertEntry he with rfl | he
    · exact Int.le_of_eq hfrom
    · exact h.begun e he

theorem mono (h : Tells l versions A latest) {later : Int} (hle : latest ≤ later) :
    Tells l versions A later :=
  ⟨h.records, fun e he => Int.le_trans (h.begun e he) hle⟩

-- A record that is added now holds from now on, where nothing else does.
theorem opened {w : Recorder} (h : Tells l versions A w.time.toMillis) {pid : Int} {r : Record}
    (hnew : ∀ e ∈ versions.entries, e.1 < pid)
    (hnone : ∀ ms, w.time.toMillis ≤ ms → A (r.valueOrNull l.key) ms = none) :
    Tells l (versions.insert pid ((w.openVersion r).stored l w.time))
      (A.setFrom (r.valueOrNull l.key) w.time.toMillis (some r)) w.time.toMillis := by
  have hkey : ((w.openVersion r).stored l w.time).key l = r.valueOrNull l.key :=
    (w.openVersion r).key_stored w.time
  rw [← hkey] at hnone ⊢
  exact h.setFrom_some hnew rfl rfl rfl hnone

-- What the timeline says later than all begins is what it says when the last has begun.
theorem eq_none_of_le (h : Tells l versions A latest) {key : Value} (hnone : A key latest = none)
    {ms : Int} (hle : latest ≤ ms) : A key ms = none := by
  cases hsome : A key ms with
  | none => rfl
  | some r =>
    obtain ⟨e, hcurrent, -⟩ := h.exists_current hsome
    have hmem : e ∈ versions.current l key ms := by
      rw [hcurrent]
      exact List.mem_cons_self ..
    have hearlier := Versions.mem_current_of_le hle hmem (h.begun e (Versions.mem_current.1 hmem).1)
    rw [h.current_eq_nil hnone] at hearlier
    cases hearlier

end Tells

/-! ## What one call preserves -/

/-- The register in the database tells the timeline. -/
def Mirrors (l : Layout) (db : Database) (A : Timeline) (given : Nat) (latest : Int) : Prop :=
  ∃ versions, Kept l db versions given ∧ Tells l versions A latest

namespace Mirrors

variable {l : Layout} {db : Database} {A : Timeline} {given : Nat}

-- A termination ends what its key has from an instant on.
theorem terminateAt (hsense : senseOf l.key = .column) {w : Recorder}
    (h : Mirrors l db A given w.time.toMillis) {r : Record}
    (hconforms : l.conforms r = true) (hwhole : l.IsWholeMilli r) {stop : Instant}
    (hstop : stop.isLeap = false) :
    ∃ count db', w.terminateAt l r stop db = (.ok count, db') ∧
      Mirrors l db' (A.setFrom (r.valueOrNull l.key) stop.toMillis none) given w.time.toMillis := by
  obtain ⟨versions, hkept, htells⟩ := h
  obtain ⟨count, db', hrun, hkept'⟩ := hkept.terminateAt_eq hsense w (Layout.key_fits hconforms)
    (Layout.key_isWholeMilli hwhole) hstop
  refine ⟨count, db', hrun, _, hkept', htells.setFrom_none (Versions.records_closeKey _ _ _) ?_⟩
  intro _ v
  split <;> rfl

-- A reconciliation makes its record hold from the instant of the recorder on.
theorem reconcile (hplain : l.NamesPlain) {w : Recorder} (h : Mirrors l db A given w.time.toMillis)
    {r : Record}
    (hconforms : l.conforms r = true) (hwhole : l.IsWholeMilli r)
    (hroom : given + 1 < 2 ^ 63 ∨ ∃ answer, (w.reconcile l r db).1 = .ok answer) :
    ∃ answer db' given', w.reconcile l r db = (.ok answer, db') ∧ given' ≤ given + 1 ∧
      Mirrors l db' (A.after l w (.reconcile r)) given' w.time.toMillis := by
  obtain ⟨versions, hkept, htells⟩ := h
  have hnew := hkept.recorded.lt_next
  cases hknown : A (r.valueOrNull l.key) w.time.toMillis with
  | none =>
    -- Nothing holds now, so nothing holds later either: a version ahead would have begun ahead.
    obtain ⟨db', hrun, hkept'⟩ := hkept.reconcile_absent hplain w hroom hconforms hwhole
      (htells.current_eq_nil hknown)
    refine ⟨_, db', given + 1, hrun, Nat.le_refl _, _, hkept', ?_⟩
    have htold := htells.opened hnew fun ms hle => htells.eq_none_of_le hknown hle
    simpa only [Timeline.after, Amendment.record, hknown, Option.any_none, Bool.false_eq_true,
      if_false] using htold
  | some known =>
    obtain ⟨e, hcurrent, hrecord⟩ := htells.exists_current hknown
    have hsame : l.samePersisted e.2.record r = l.samePersisted known r := by
      rw [hrecord, Layout.samePersisted_stored]
    cases hequal : l.samePersisted known r with
    | true =>
      have hrun := hkept.reconcile_same hplain w hconforms hwhole hcurrent (hsame.trans hequal)
      refine ⟨_, db, given, hrun, Nat.le_succ _, versions, hkept, ?_⟩
      simpa only [Timeline.after, Amendment.record, hknown, Option.any_some, hequal, if_true]
        using htells
    | false =>
      obtain ⟨db', hrun, hkept'⟩ := hkept.reconcile_different hplain w hroom hconforms hwhole hcurrent
        (hsame.trans hequal)
      refine ⟨_, db', given + 1, hrun, Nat.le_refl _, _, hkept', ?_⟩
      -- Closing and adding are a termination at the instant of the call and then the first case.
      have hclosed : Tells l (versions.closeOne e.1 w.time.toMillis w.time.toMillis)
          (A.setFrom (r.valueOrNull l.key) w.time.toMillis none) w.time.toMillis := by
        apply htells.setFrom_none (Versions.records_closeOne hcurrent htells.begun _)
        intro _ v
        split <;> rfl
      have hnew' : ∀ c ∈ (versions.closeOne e.1 w.time.toMillis w.time.toMillis).entries,
          c.1 < (given + 1 : Nat) := by
        intro c hc
        obtain ⟨old, hold, rfl⟩ := List.mem_map.1 hc
        exact hnew old hold
      have hnone : ∀ ms, w.time.toMillis ≤ ms →
          A.setFrom (r.valueOrNull l.key) w.time.toMillis none (r.valueOrNull l.key) ms = none := by
        intro ms hle
        rw [Timeline.setFrom, if_pos ⟨rfl, hle⟩]
      have htold := hclosed.opened hnew' hnone
      rw [Timeline.setFrom_setFrom] at htold
      simpa only [Timeline.after, Amendment.record, hknown, Option.any_some, hequal,
        Bool.false_eq_true, if_false] using htold

-- One call succeeds while numbers are left, and the register tells the timeline after it.
theorem run (hplain : l.NamesPlain) {latest : Int} (h : Mirrors l db A given latest) {w : Recorder}
    {c : Amendment}
    (hle : latest ≤ w.time.toMillis) (hadmissible : c.IsAdmissible l)
    (hroom : given + 1 < 2 ^ 63 ∨ (c.run w l db).1 = .ok ()) :
    ∃ db' given', c.run w l db = (.ok (), db') ∧ given' ≤ given + 1 ∧
      Mirrors l db' (A.after l w c) given' w.time.toMillis := by
  obtain ⟨versions, hkept, htells⟩ := h
  have hnow : Mirrors l db A given w.time.toMillis := ⟨versions, hkept, htells.mono hle⟩
  obtain ⟨hconforms, hwhole, hstop⟩ := hadmissible
  cases c with
  | reconcile r =>
    have hroom' : given + 1 < 2 ^ 63 ∨ ∃ answer, (w.reconcile l r db).1 = .ok answer := by
      refine hroom.imp_right fun hok => ?_
      rw [Amendment.run] at hok
      cases hrun : (w.reconcile l r db).1 with
      | ok answer => exact ⟨answer, rfl⟩
      | error fault =>
        rw [hrun] at hok
        cases hok
    obtain ⟨answer, db', given', hrun, hgiven, hafter⟩ := hnow.reconcile hplain (r := r) hconforms hwhole hroom'
    refine ⟨db', given', ?_, hgiven, hafter⟩
    rw [Amendment.run, hrun]
    rfl
  | terminate r =>
    obtain ⟨count, db', hrun, hafter⟩ := hnow.terminateAt hplain.key (r := r) hconforms hwhole
      w.isLeap_time
    refine ⟨db', given, ?_, Nat.le_succ _, hafter⟩
    rw [Amendment.run, Recorder.terminate, hrun]
    rfl
  | terminateAt r stop =>
    obtain ⟨count, db', hrun, hafter⟩ := hnow.terminateAt hplain.key (r := r) hconforms hwhole hstop
    refine ⟨db', given, ?_, Nat.le_succ _, hafter⟩
    rw [Amendment.run, hrun]
    rfl

/-! ## What a sequence of calls preserves -/

-- Calls in the order of time succeed while numbers are left, and the register tells the timeline
-- after them.
theorem runAll (hplain : l.NamesPlain) {calls : List (Recorder × Amendment)} {latest : Int}
    (h : Mirrors l db A given latest) (hlater : ∀ c ∈ calls, latest ≤ c.1.time.toMillis)
    (hordered : calls.Pairwise fun a b => a.1.time ≤ b.1.time)
    (hadmissible : ∀ c ∈ calls, c.2.IsAdmissible l)
    (hroom : given + calls.length < 2 ^ 63 ∨ (Amendment.runAll l calls db).1 = .ok ()) :
    ∃ db' given' latest', Amendment.runAll l calls db = (.ok (), db') ∧
      Mirrors l db' (A.afterAll l calls) given' latest' := by
  -- On the calls that are left, each from the register and the timeline that the last one has left.
  induction calls generalizing db A given latest with
  | nil => exact ⟨db, given, latest, rfl, h⟩
  | cons call rest ih =>
    obtain ⟨w, c⟩ := call
    have hroom' : given + 1 < 2 ^ 63 ∨ (c.run w l db).1 = .ok () := by
      refine hroom.imp (fun hlt => ?_) fun hok => ?_
      · rw [List.length_cons] at hlt
        omega
      · rw [Amendment.runAll] at hok
        rcases hrun : c.run w l db with ⟨fault | _, db'⟩
        · rw [hrun] at hok
          cases hok
        · rfl
    obtain ⟨db₁, given₁, hrun, hgiven, hmirrors⟩ :=
      h.run hplain (hlater _ (List.mem_cons_self ..)) (hadmissible _ (List.mem_cons_self ..)) hroom'
    have hrunAll : Amendment.runAll l ((w, c) :: rest) db = Amendment.runAll l rest db₁ := by
      rw [Amendment.runAll, hrun]
    rw [hrunAll] at hroom ⊢
    have hnext : ∀ d ∈ rest, w.time.toMillis ≤ d.1.time.toMillis := fun d hd =>
      Instant.toMillis_le_toMillis w.isLeap_time (List.rel_of_pairwise_cons hordered hd)
    refine ih hmirrors hnext (List.Pairwise.of_cons hordered)
      (fun d hd => hadmissible d (List.mem_cons_of_mem _ hd)) ?_
    refine hroom.imp_left fun hlt => ?_
    rw [List.length_cons] at hlt
    omega

end Mirrors

theorem Layout.Created.mirrors {l : Layout} {db : Database} (h : l.Created db) (latest : Int) :
    Mirrors l db .empty 0 latest :=
  ⟨.empty, h.kept, .empty l latest⟩

/-- Calls on a register that has just been created, in the order of their instants, succeed as long
as there are numbers for versions, where all columns are read as such; and every lookup after them
answers with the stored values of the record that the timeline says, or with nothing where the timeline
says nothing. -/
theorem fetchAt_runAll {l : Layout} (hplain : l.NamesPlain) {db : Database} (hcreated : l.Created db)
    {calls : List (Recorder × Amendment)} (hadmissible : ∀ c ∈ calls, c.2.IsAdmissible l)
    (hordered : calls.Pairwise fun a b => a.1.time ≤ b.1.time) :
    (calls.length < 2 ^ 63 → (Amendment.runAll l calls db).1 = .ok ()) ∧
      ((Amendment.runAll l calls db).1 = .ok () →
        ∀ key : Value, key.fits l.keyField.type = true → key.IsWholeMilli → ∀ asOf : Instant,
          match Timeline.empty.afterAll l calls key asOf.toMillis with
          | none => Recorder.fetchAt l key asOf (Amendment.runAll l calls db).2 = .ok none
          | some r => ∃ v, Recorder.fetchAt l key asOf (Amendment.runAll l calls db).2 = .ok (some v) ∧
              l.samePersisted v.record r = true) := by
  -- No instant lies before the first second, so the empty register may have that as its latest call.
  have hlater : ∀ c ∈ calls, firstSecond * 1000 ≤ c.1.time.toMillis :=
    fun c _ => (Instant.inRange_toMillis c.1.isLeap_time).1
  have hstart := hcreated.mirrors (firstSecond * 1000)
  constructor
  · intro hroom
    obtain ⟨db', _, _, hrun, -⟩ := hstart.runAll hplain hlater hordered hadmissible (.inl (by omega))
    rw [hrun]
  · intro hok key hfits hwhole asOf
    obtain ⟨db', _, _, hrun, versions, hkept, htells⟩ :=
      hstart.runAll hplain hlater hordered hadmissible (.inr hok)
    rw [hrun]
    cases htimeline : Timeline.empty.afterAll l calls key asOf.toMillis with
    | none => exact hkept.fetchAt_none hplain hfits hwhole (htells.current_eq_nil htimeline)
    | some r =>
      obtain ⟨e, hcurrent, hrecord⟩ := htells.exists_current htimeline
      refine ⟨_, hkept.fetchAt_some hplain hfits hwhole hcurrent, ?_⟩
      show l.samePersisted e.2.record r = true
      rw [hrecord, Layout.samePersisted_stored, Layout.samePersisted_iff]
      exact fun _ _ => rfl

/-! ### A small register -/

/-- A register of the ages of persons. -/
def ageLayout : Layout where
  table := "age"
  key := "person"
  fields := [Field.required "person" 10, (Field.required "years" 3).withType .integer]
  table_identifier := by decide
  names_identifier := by decide
  names_nodup := by decide
  key_persisted := ⟨_, List.mem_cons_self .., rfl, rfl⟩

def ageRecord (years : Int) : Record := .ofList [("person", .text "ann"), ("years", .integer years)]

/-- Two ages that follow each other, and an end in the future that the second age overrules. -/
def ageCalls : List (Recorder × Amendment) :=
  [(.pinnedAt (.ofMillis 1000), .reconcile (ageRecord 41)),
   (.pinnedAt (.ofMillis 1000), .terminateAt (ageRecord 41) (.ofMillis 5000)),
   (.pinnedAt (.ofMillis 2000), .reconcile (ageRecord 42))]

theorem ageLayout_created : ageLayout.Created (ageLayout.createTable .empty).2 :=
  Layout.created_of_isOk rfl (by decide +kernel)

theorem ageLayout_plain : ageLayout.NamesPlain := by decide +kernel

theorem fetchAt_runAll_ages :
    (∀ c ∈ ageCalls, c.2.IsAdmissible ageLayout) ∧
      ∃ v, Recorder.fetchAt ageLayout (.text "ann") (.ofMillis 6000)
          (Amendment.runAll ageLayout ageCalls (ageLayout.createTable .empty).2).2 = .ok (some v) ∧
        ageLayout.samePersisted v.record (ageRecord 42) = true := by
  have hadmissible : ∀ c ∈ ageCalls, c.2.IsAdmissible ageLayout := by decide +kernel
  have hordered : ageCalls.Pairwise fun a b => a.1.time ≤ b.1.time := by decide +kernel
  obtain ⟨hsucceeds, hanswers⟩ := fetchAt_runAll ageLayout_plain ageLayout_created hadmissible hordered
  have hanswer := hanswers (hsucceeds (by decide)) (.text "ann") (by decide) trivial (.ofMillis 6000)
  have htimeline : Timeline.empty.afterAll ageLayout ageCalls (.text "ann")
      (Instant.ofMillis 6000).toMillis = some (ageRecord 42) := by decide +kernel
  rw [htimeline] at hanswer
  exact ⟨hadmissible, hanswer⟩

/-! ### A word for the clock -/

/-- The moments at a device are corrected after a second. -/
def momentCalls : List (Recorder × Amendment) :=
  [(.pinnedAt (.ofMillis 1000), .reconcile (moments "gate" (some 7))),
   (.pinnedAt (.ofMillis 2000), .reconcile (moments "gate" (some 8)))]

-- The timeline has the moments from the first call on, but no lookup reads them, and the second fails.
theorem not_fetchAt_runAll_moment :
    momentLayout.Created (momentLayout.createTable .empty).2 ∧
      (∀ c ∈ momentCalls, c.2.IsAdmissible momentLayout) ∧
      (momentCalls.Pairwise fun a b => a.1.time ≤ b.1.time) ∧
      Timeline.empty.afterAll momentLayout (momentCalls.take 1) (.text "gate") 1000 =
        some (moments "gate" (some 7)) ∧
      Recorder.fetchAt momentLayout (.text "gate") (.ofMillis 1000)
        (Amendment.runAll momentLayout (momentCalls.take 1) (momentLayout.createTable .empty).2).2 =
          .error clockFault ∧
      (Amendment.runAll momentLayout momentCalls (momentLayout.createTable .empty).2).1 =
        .error clockFault :=
  ⟨momentLayout_created, by decide +kernel, by decide +kernel, by decide +kernel, by decide +kernel,
    by decide +kernel⟩

end Registry
