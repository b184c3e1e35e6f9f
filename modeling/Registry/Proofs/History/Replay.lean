import Registry.Proofs.History.Batch
import Registry.Proofs.History.RoundTrip
import Registry.Proofs.History.Written

/-!
# Replay — a delivery that is reconciled again changes nothing

After a list of records was reconciled, each under a key of its own, every one of them is what the
register says of its key from that instant on.  So reconciling the records again, as often and in
whatever order and at whatever later instant, finds each of them unchanged.
-/

namespace Registry

/-! ## Versions of one key -/

/-- The versions have begun and those that end have ended by a time, and at most one holds then. -/
structure SettledBy (list : List (Int × StoredVersion)) (latest : Int) : Prop where
  begun : ∀ e ∈ list, e.2.validFrom ≤ latest
  ended : ∀ e ∈ list, ∀ stop ∈ e.2.validTo, stop ≤ latest
  single : (list.filter fun e => e.2.holdsAt latest).length ≤ 1

-- What holds when all is settled goes on to hold, and nothing else ever does.
theorem SettledBy.filter_holdsAt {list : List (Int × StoredVersion)} {latest ms : Int}
    (h : SettledBy list latest) (hle : latest ≤ ms) :
    (list.filter fun e => e.2.holdsAt ms) = list.filter fun e => e.2.holdsAt latest := by
  apply List.filter_congr
  intro e he
  have hbegun := h.begun e he
  have hended := h.ended e he
  rw [Bool.eq_iff_iff, StoredVersion.holdsAt_iff, StoredVersion.holdsAt_iff]
  constructor
  · rintro ⟨-, hgoes⟩
    refine ⟨hbegun, fun stop hstop => ?_⟩
    have := hgoes stop hstop
    omega
  · rintro ⟨-, hgoes⟩
    refine ⟨by omega, fun stop hstop => ?_⟩
    have := hgoes stop hstop
    have := hended stop hstop
    omega

-- Once what holds is closed, nothing holds any more.
theorem SettledBy.filter_settledAt {list : List (Int × StoredVersion)} {stop : Instant} {ms : Int}
    (h : SettledBy list stop.toMillis) (hle : stop.toMillis ≤ ms) :
    ((list.map fun e => (e.1, e.2.settledAt stop)).filter fun e => e.2.holdsAt ms) = [] := by
  rw [List.filter_eq_nil_iff]
  intro now hnow hholds
  obtain ⟨e, he, rfl⟩ := List.mem_map.1 hnow
  dsimp only at hholds
  cases hheld : e.2.holdsAt stop.toMillis with
  | true =>
    rw [StoredVersion.settledAt_of_holdsAt hheld] at hholds
    have hlt : ms < stop.toMillis := (StoredVersion.holdsAt_iff.1 hholds).2 _ rfl
    omega
  | false =>
    rw [StoredVersion.settledAt_of_not hheld] at hholds
    have hmem : e ∈ list.filter fun e => e.2.holdsAt ms := List.mem_filter.2 ⟨he, hholds⟩
    rw [h.filter_holdsAt hle, List.mem_filter, hheld] at hmem
    cases hmem.2

namespace Versions

variable {versions : Versions} {l : Layout} {key : Value}

theorem found_of_settled {latest ms : Int} (h : SettledBy (versions.ofKey l key) latest)
    (hle : latest ≤ ms) : versions.found l key ms = versions.found l key latest := by
  rw [found_eq_filter, found_eq_filter, h.filter_holdsAt hle]

/-- The version of a number is what the register says of the key of a record from a time on, and it
says the stored values of the record. -/
structure Stands (versions : Versions) (l : Layout) (r : Record) (latest : Int)
    (e : Int × StoredVersion) : Prop where
  found : ∀ ms, latest ≤ ms → versions.found l (r.valueOrNull l.key) ms = [e]
  same : l.samePersisted e.2.record.restored r = true

-- A record that is reconciled where its key is settled stands from then on.
theorem exists_stands {later : Versions} {w : Recorder} {r : Record} (hwhole : l.IsWholeMilli r)
    (hsettled : SettledBy (versions.ofKey l (r.valueOrNull l.key)) w.time.toMillis) {pid : Int}
    (hown : later.ofKey l (r.valueOrNull l.key) = versions.ofKeyAfter l w r pid) :
    ∃ e, later.Stands l r w.time.toMillis e := by
  rw [ofKeyAfter] at hown
  cases hadds : versions.adds l w r with
  | false =>
    rw [hadds, if_neg Bool.false_ne_true] at hown
    obtain ⟨e, rest, hfound, hsame⟩ := exists_of_not_adds hadds
    have hsingle := hsettled.single
    rw [← found_eq_filter, hfound, List.length_cons] at hsingle
    rw [List.length_eq_zero_iff.1 (by omega : rest.length = 0)] at hfound
    refine ⟨e, fun ms hle => ?_, hsame⟩
    rw [found_eq_filter, hown, ← found_eq_filter, found_of_settled hsettled hle, hfound]
  | true =>
    rw [hadds, if_pos rfl] at hown
    refine ⟨(pid, (w.openVersion r).stored l w.time), fun ms hle => ?_,
      Layout.samePersisted_stored_restored_iff.2 hwhole⟩
    have hholds : ((w.openVersion r).stored l w.time).holdsAt ms = true :=
      Version.holdsAt_stored hle (fun _ hstop => by cases hstop) w.time
    rw [found_eq_filter, hown, List.filter_append, hsettled.filter_settledAt hle, List.nil_append,
      List.filter_cons, hholds]
    rfl

end Versions

/-! ## Reconciliations -/

namespace Recorded

variable {l : Layout} {db : Database} {versions : Versions} {given : Nat} {key : Value}

-- A record that stands is found unchanged from then on.
theorem reconcile_again (h : Recorded l db versions given) (hplain : l.NamesPlain) {r : Record}
    (hconforms : l.conforms r = true)
    {latest : Int} {e : Int × StoredVersion} (hstands : versions.Stands l r latest e) {w : Recorder}
    (hle : latest ≤ w.time.toMillis) :
    w.reconcile l r db = (.ok (.unchanged e.1), db) ∧
      w.fetchCurrent l (r.valueOrNull l.key) db = .ok (some (e.2.restored.version e.1)) :=
  ⟨h.reconcile_same hplain w hconforms (hstands.found _ hle) hstands.same,
    h.fetchAt_some hplain (Layout.key_fits hconforms) (hstands.found _ hle)⟩

-- Reconciliations of records of different keys make all of them stand.
theorem reconcileAll_stands {w : Recorder} {records : List Record} (h : Recorded l db versions given)
    (hplain : l.NamesPlain) (hconforms : ∀ r ∈ records, l.conforms r = true)
    (hwhole : ∀ r ∈ records, l.IsWholeMilli r)
    (hkeys : (records.map fun r => r.valueOrNull l.key).Nodup)
    (hsettled : ∀ r ∈ records,
      SettledBy (versions.ofKey l (r.valueOrNull l.key)) w.time.toMillis)
    (hroom : given + records.length < 2 ^ 63 ∨
      ∃ answers, (w.reconcileAll l records db).1 = .ok answers) :
    ∃ answers after versions' given', w.reconcileAll l records db = (.ok answers, after) ∧
      Recorded l after versions' given' ∧
      ∀ r ∈ records, ∃ e, versions'.Stands l r w.time.toMillis e := by
  have hback : ∀ r ∈ records,
      (r.valueOrNull l.key).restored.cell = (r.valueOrNull l.key).cell := by
    intro r hr
    rw [Value.restored_eq_self_iff.2 (Layout.key_isWholeMilli (hwhole r hr))]
  have hcells : (records.map fun r => (r.valueOrNull l.key).cell).Nodup := by
    rw [List.Nodup, List.pairwise_map] at hkeys ⊢
    refine hkeys.imp_of_mem fun {a b} ha hb hne hcell => hne ?_
    exact (Value.cell_inj (Layout.key_fits (hconforms a ha)) (Layout.key_fits (hconforms b hb))
      (Layout.key_isWholeMilli (hwhole a ha)) (Layout.key_isWholeMilli (hwhole b hb))).1 hcell
  have hsingle : ∀ r ∈ records,
      (versions.found l (r.valueOrNull l.key) w.time.toMillis).length ≤ 1 := by
    intro r hr
    rw [Versions.found_eq_filter]
    exact (hsettled r hr).single
  obtain ⟨after, later, hrun, hafter, hbecomes, -⟩ := h.reconcileAll_answered hplain hconforms hback
    hcells hsingle (hroom.imp_left Versions.hasRoom_of_length)
  refine ⟨_, after, later, _, hrun, hafter, fun r hr => ?_⟩
  obtain ⟨pid, hown⟩ := hbecomes.own r hr
  exact Versions.exists_stands (hwhole r hr) (hsettled r hr) hown

-- Records that stand are all found unchanged, and reconciling them leaves the database as it is.
theorem reconcileAll_again (h : Recorded l db versions given) (hplain : l.NamesPlain) {latest : Int}
    {w : Recorder} (hle : latest ≤ w.time.toMillis) {records : List Record}
    (hconforms : ∀ r ∈ records, l.conforms r = true) (pid : Record → Int)
    (hstands : ∀ r ∈ records, ∃ e, e.1 = pid r ∧ versions.Stands l r latest e) :
    w.reconcileAll l records db = (.ok (records.map fun r => .unchanged (pid r)), db) := by
  induction records with
  | nil => rfl
  | cons r rest ih =>
    obtain ⟨e, hpid, hstand⟩ := hstands r (List.mem_cons_self ..)
    have hrun := (h.reconcile_again hplain (hconforms r (List.mem_cons_self ..)) hstand hle).1
    have hrest := ih (fun other hother => hconforms other (List.mem_cons_of_mem _ hother))
      fun other hother => hstands other (List.mem_cons_of_mem _ hother)
    rw [Recorder.reconcileAll_cons hrun, hrest, hpid]
    rfl

/-! ## What a table shows of a key -/

-- The times of the versions of a key, as a query shows them.
theorem select_times (h : Recorded l db versions given) (hsense : senseOf l.key = .column)
    (hfits : key.fits l.keyField.type = true) :
    db.select l.table [validFromColumn, validToColumn] [Recorder.keyCondition l.key key] =
      .ok ((versions.ofKey l key).map fun e => [(validFromColumn, .integer e.2.validFrom),
        (validToColumn, Cell.ofOption Cell.integer e.2.validTo)]) := by
  obtain ⟨t, htable, hdesign, hrows, -⟩ := h.table
  have hknown : t.unknown? ([validFromColumn, validToColumn] ++
      [Recorder.keyCondition l.key key].map Condition.column) = none := by
    apply Table.unknown?_of_design hdesign
    intro name hname
    simp only [List.map_cons, List.map_nil, List.cons_append, List.nil_append, List.mem_cons,
      List.not_mem_nil, or_false, Recorder.keyCondition_column] at hname
    rcases hname with hfrom | hto | hkey
    · exact .inr (hfrom ▸ List.mem_map_of_mem l.validFrom_mem)
    · exact .inr (hto ▸ List.mem_map_of_mem l.validTo_mem)
    · exact .inr (hkey ▸ l.key_mem_columnNames)
  have hnames : ∀ name ∈ [validFromColumn, validToColumn], senseOf name = .column := by
    intro name hname
    simp only [List.mem_cons, List.not_mem_nil, or_false] at hname
    rcases hname with rfl | rfl
    · exact Layout.sense_validFrom
    · exact Layout.sense_validTo
  have hcolumns : ∀ c ∈ [Recorder.keyCondition l.key key], senseOf c.column = .column := by
    intro c hc
    rwa [List.mem_singleton.1 hc, Recorder.keyCondition_column]
  let test (_ : Int) (v : StoredVersion) : Bool := v.hasKey l key
  have htest : ∀ e ∈ versions.entries,
      Condition.allHold t [Recorder.keyCondition l.key key] e.1 (e.2.cells l) = test e.1 e.2 := by
    intro e he
    simp only [test, Condition.allHold, List.all_cons, List.all_nil, Bool.and_true,
      Table.holds_key hdesign (h.written e he).conforms hfits]
  rw [Database.select_of_names htable hnames hcolumns hknown, Table.rowsWhere_rowsOf hrows htest,
    List.map_map, Versions.ofKey]
  congr 1
  apply List.map_congr_left
  intro e _
  have hfrom := Table.resultName_of_mem (Table.mem_columns_of_design hdesign l.validFrom_mem)
  have hto := Table.resultName_of_mem (Table.mem_columns_of_design hdesign l.validTo_mem)
  have hreadFrom := Table.read_column hdesign e.1 e.2 l.validFrom_mem
  simp only [Function.comp_def, List.map_cons, List.map_nil]
  simp only at hfrom hto hreadFrom
  rw [hfrom, hto, hreadFrom, Table.read_validTo hdesign]
  rfl

end Recorded

/-- No version of a key begins or ends behind an instant, and at most one holds at it. -/
structure Layout.IsSettled (l : Layout) (db : Database) (key : Value) (time : Instant) : Prop where
  times : ∀ rows, db.select l.table [validFromColumn, validToColumn]
    [Recorder.keyCondition l.key key] = .ok rows →
      ∀ row ∈ rows, ∀ column ms, (column, Cell.integer ms) ∈ row → ms ≤ time.toMillis
  single : ∀ rows, Recorder.validRows l l.key key time db = .ok rows → rows.length ≤ 1

-- The cell holds no time behind an instant.
def Cell.isBy (time : Instant) : Cell → Bool
  | .integer ms => ms ≤ time.toMillis
  | _ => true

theorem Layout.isSettled_iff {l : Layout} {db : Database} {key : Value} {time : Instant} :
    l.IsSettled db key time ↔
      ((db.select l.table [validFromColumn, validToColumn]
        [Recorder.keyCondition l.key key]).toOption.all fun rows =>
          rows.all fun row => row.all fun e => e.2.isBy time) = true ∧
      ((Recorder.validRows l l.key key time db).toOption.all fun rows => rows.length ≤ 1) = true := by
  constructor
  · rintro ⟨htimes, hsingle⟩
    constructor
    · cases hselect : db.select l.table [validFromColumn, validToColumn]
          [Recorder.keyCondition l.key key] with
      | error fault => rfl
      | ok rows =>
        simp only [Except.toOption, Option.all_some, List.all_eq_true]
        rintro row hrow ⟨column, cell⟩ he
        cases cell with
        | integer ms => exact decide_eq_true (htimes rows hselect row hrow column ms he)
        | _ => rfl
    · cases hvalid : Recorder.validRows l l.key key time db with
      | error fault => rfl
      | ok rows => exact decide_eq_true (hsingle rows hvalid)
  · rintro ⟨htimes, hsingle⟩
    constructor
    · intro rows hselect row hrow column ms he
      rw [hselect] at htimes
      simp only [Except.toOption, Option.all_some, List.all_eq_true] at htimes
      exact of_decide_eq_true (htimes row hrow _ he)
    · intro rows hvalid
      rw [hvalid] at hsingle
      exact of_decide_eq_true hsingle

instance (l : Layout) (db : Database) (key : Value) (time : Instant) :
    Decidable (l.IsSettled db key time) :=
  decidable_of_iff _ Layout.isSettled_iff.symm

theorem Layout.IsSettled.settledBy {l : Layout} {db : Database} {key : Value} {time : Instant}
    (h : l.IsSettled db key time) {versions : Versions} {given : Nat}
    (hrecorded : Recorded l db versions given) (hplain : l.NamesPlain)
    (hfits : key.fits l.keyField.type = true) : SettledBy (versions.ofKey l key) time.toMillis where
  begun e he :=
    h.times _ (hrecorded.select_times hplain.key hfits) _ (List.mem_map_of_mem he) _ _ (List.mem_cons_self ..)
  ended e he stop hstop := by
    apply h.times _ (hrecorded.select_times hplain.key hfits) _ (List.mem_map_of_mem he) validToColumn
    rw [Option.mem_def.1 hstop]
    exact List.mem_cons_of_mem _ (List.mem_cons_self ..)
  single := by
    have hvalid := hrecorded.validRows_eq hplain.key hfits time
    rw [hplain.queryFault?] at hvalid
    have hrows := h.single _ hvalid
    rwa [List.length_map, Versions.found_eq_filter] at hrows

/-- A register that recorders have left, all columns of which are read as such, and records of different
keys that conform and are of whole milliseconds, where no row of these keys begins or ends behind the
instant of a recorder and at most one of each holds at it.  The recorder reconciles all of the records
while there are numbers left.  After that, records of the list that are reconciled again, in whatever
order and by whatever later recorder, are all unchanged: each answer has the number of the version that
holds, and the database is left as it was. -/
theorem reconcileAll_unchanged {l : Layout} (hplain : l.NamesPlain) {db : Database}
    (hwritten : l.Written db) {w : Recorder} {records : List Record}
    (hconforms : ∀ r ∈ records, l.conforms r = true)
    (hwhole : ∀ r ∈ records, l.IsWholeMilli r)
    (hkeys : (records.map fun r => r.valueOrNull l.key).Nodup)
    (hsettled : ∀ r ∈ records, l.IsSettled db (r.valueOrNull l.key) w.time) :
    ((∀ t, db.table? l.table = some t → t.lastId + records.length < 2 ^ 63) →
        ∃ answers after, w.reconcileAll l records db = (.ok answers, after)) ∧
      ∀ answers after, w.reconcileAll l records db = (.ok answers, after) →
        ∃ pid : Record → Int, ∀ w' : Recorder, w.time ≤ w'.time →
          (∀ r ∈ records, ∃ v, v.pid = some (pid r) ∧
            w'.fetchCurrent l (r.valueOrNull l.key) after = .ok (some v)) ∧
          ∀ again : List Record, again ⊆ records →
            w'.reconcileAll l again after =
              (.ok (again.map fun r => .unchanged (pid r)), after) := by
  obtain ⟨versions, given, hrecorded⟩ := hwritten.isRecorded hplain.key
  have hsettledBy : ∀ r ∈ records,
      SettledBy (versions.ofKey l (r.valueOrNull l.key)) w.time.toMillis :=
    fun r hr => (hsettled r hr).settledBy hrecorded hplain (Layout.key_fits (hconforms r hr))
  constructor
  · intro hroom
    obtain ⟨t, htable, -, -, hlast⟩ := hrecorded.table
    have hlt := hroom t htable
    rw [hlast] at hlt
    obtain ⟨answers, after, -, -, hrun, -⟩ :=
      hrecorded.reconcileAll_stands hplain hconforms hwhole hkeys hsettledBy (.inl (by omega))
    exact ⟨answers, after, hrun⟩
  · intro answers after hrun
    obtain ⟨answers', after', versions', given', hrun', hrecorded', hstands⟩ :=
      hrecorded.reconcileAll_stands hplain hconforms hwhole hkeys hsettledBy
        (.inr ⟨answers, congrArg Prod.fst hrun⟩)
    rw [hrun] at hrun'
    cases hrun'
    -- The number of a record is that of the one version that is found from now on.
    let pid (r : Record) : Int :=
      ((versions'.found l (r.valueOrNull l.key) w.time.toMillis).head?.map (·.1)).getD 0
    have hpid : ∀ r ∈ records, ∃ e, e.1 = pid r ∧ versions'.Stands l r w.time.toMillis e := by
      intro r hr
      obtain ⟨e, hstand⟩ := hstands r hr
      refine ⟨e, ?_, hstand⟩
      simp only [pid, hstand.found _ (Int.le_refl _), List.head?_cons, Option.map_some,
        Option.getD_some]
    refine ⟨pid, fun w' hlater => ?_⟩
    have hle := Instant.toMillis_le_toMillis w.isLeap_time hlater
    constructor
    · intro r hr
      obtain ⟨e, he, hstand⟩ := hpid r hr
      exact ⟨_, congrArg some he, (hrecorded'.reconcile_again hplain (hconforms r hr) hstand hle).2⟩
    · intro again hagain
      exact hrecorded'.reconcileAll_again hplain hle (fun r hr => hconforms r (hagain hr)) pid
        fun r hr => hpid r (hagain hr)

/-! ### A small delivery -/

def reading (sensor : Value) (count : Int) : Record :=
  .ofList [("sensor", sensor), ("count", .integer count), ("amount", .decimal ⟨2500, by decide⟩),
    ("taken", .datetime (.ofMillis 500)), ("remark", .text "warm")]

/-- A register in which a reading of a sensor was entered. -/
def readingsBefore : Database :=
  (EngineCall.run (.pinnedAt (.ofMillis 1000)) ⟨readingLayout, .reconcile (reading (.text "a") 1)⟩
    (readingLayout.createTable .empty).2).2

/-- A reading that follows that of the sensor, and one of no sensor. -/
def newReadings : List Record := [reading (.text "a") 2, reading .null 3]

theorem reconcileAll_unchanged_readings :
    ∃ answers after, ∃ pid : Record → Int,
      (Recorder.pinnedAt (.ofMillis 2000)).reconcileAll readingLayout newReadings readingsBefore =
        (.ok answers, after) ∧
      (Recorder.pinnedAt (.ofMillis 3000)).reconcileAll readingLayout newReadings.reverse after =
        (.ok (newReadings.reverse.map fun r => .unchanged (pid r)), after) := by
  have hwritten : readingLayout.Written readingsBefore :=
    .called _ _ (.created readingLayout_created) (Database.lasts_of_begun (by decide +kernel))
  have hconforms : ∀ r ∈ newReadings, readingLayout.conforms r = true := by decide +kernel
  have hwhole : ∀ r ∈ newReadings, readingLayout.IsWholeMilli r := by decide +kernel
  have hkeys : (newReadings.map fun r => r.valueOrNull readingLayout.key).Nodup := by decide +kernel
  have hsettled : ∀ r ∈ newReadings, readingLayout.IsSettled readingsBefore
      (r.valueOrNull readingLayout.key) (Recorder.pinnedAt (.ofMillis 2000)).time := by decide +kernel
  obtain ⟨hfirst, hagain⟩ := reconcileAll_unchanged readingLayout_plain hwritten hconforms hwhole hkeys hsettled
  obtain ⟨answers, after, hrun⟩ := hfirst (by
    intro t ht
    have hlast : (readingsBefore.table? "reading").all (fun t => decide (t.lastId ≤ 1)) = true := by
      decide +kernel
    rw [show readingsBefore.table? "reading" = some t from ht] at hlast
    have hle : t.lastId ≤ 1 := of_decide_eq_true hlast
    show t.lastId + 2 < 2 ^ 63
    omega)
  obtain ⟨pid, hunchanged⟩ := hagain answers after hrun
  refine ⟨answers, after, pid, hrun, (hunchanged (.pinnedAt (.ofMillis 3000)) ?_).2 _ ?_⟩
  · decide +kernel
  · exact fun _ hr => List.mem_reverse.1 hr

-- A record whose field shows the clock is added, but whoever reconciles it again cannot read it.
theorem not_reconcileAll_unchanged_moment :
    momentLayout.Written (momentLayout.createTable .empty).2 ∧
      momentLayout.conforms (moments "gate" (some 7)) = true ∧
      momentLayout.IsWholeMilli (moments "gate" (some 7)) ∧
      momentLayout.IsSettled (momentLayout.createTable .empty).2 (.text "gate")
        (Recorder.pinnedAt (.ofMillis 1000)).time ∧
      ((Recorder.pinnedAt (.ofMillis 1000)).reconcileAll momentLayout [moments "gate" (some 7)]
        (momentLayout.createTable .empty).2).1 = .ok [.inserted 1] ∧
      ((Recorder.pinnedAt (.ofMillis 2000)).reconcileAll momentLayout [moments "gate" (some 7)]
        ((Recorder.pinnedAt (.ofMillis 1000)).reconcileAll momentLayout [moments "gate" (some 7)]
          (momentLayout.createTable .empty).2).2).1 = .error clockFault :=
  ⟨.created momentLayout_created, by decide +kernel, by decide +kernel, by decide +kernel,
    by decide +kernel, by decide +kernel⟩

end Registry
