import Mathlib.Algebra.Group.End
import Mathlib.Logic.Equiv.Basic
import Registry.Proofs.History.Permanence
import Registry.Proofs.History.Replay

/-!
# Independence — records of different keys commute

What a reconciliation does with a record depends on the versions of its key only, and it touches no
others.  So the records of a delivery, each under a key of its own, can be reconciled in any order: each
is answered the same, and the registers are the same but for the numbers of the versions that are new.
-/

namespace Registry

namespace Recorder.Reconciliation

/-- The answer with another number for the version that was added. -/
def renumbered (number : Int → Int) : Reconciliation → Reconciliation
  | inserted pid => .inserted (number pid)
  | unchanged pid => .unchanged pid
  | replaced terminated pid => .replaced terminated (number pid)

theorem added?_renumbered (number : Int → Int) (answer : Reconciliation) :
    (answer.renumbered number).added? = answer.added?.map number := by
  cases answer <;> rfl

end Recorder.Reconciliation

/-! ## Answers by their numbers -/

namespace Versions

variable {versions : Versions} {l : Layout} {w : Recorder} {r a b : Record} {given : Nat}

-- An answer that tells of no new version has no use for a number.
theorem outcome_of_not_adds (h : versions.adds l w r = false) (next other : Int) :
    versions.outcome l w r next = versions.outcome l w r other := by
  obtain ⟨e, rest, hfound, hsame⟩ := exists_of_not_adds h
  rw [outcome, outcome, hfound]
  simp only [hsame, if_true]

theorem renumbered_outcome (number : Int → Int) (next : Int) :
    (versions.outcome l w r next).renumbered number = versions.outcome l w r (number next) := by
  unfold outcome
  split
  · rfl
  · split <;> rfl

/-! ### Another order -/

/-- The records with other numbers for the versions that they add. -/
def renumber (number : Int → Int) (list : List (Record × Recorder.Reconciliation)) :
    List (Record × Recorder.Reconciliation) :=
  list.map fun e => (e.1, e.2.renumbered number)

theorem renumber_cons (number : Int → Int) (r : Record) (next : Int)
    (list : List (Record × Recorder.Reconciliation)) :
    renumber number ((r, versions.outcome l w r next) :: list) =
      (r, versions.outcome l w r (number next)) :: renumber number list := by
  rw [renumber, List.map_cons, renumbered_outcome]
  rfl

theorem zip_renumber (versions : Versions) (l : Layout) (w : Recorder) (given : Nat)
    (records : List Record) (number : Int → Int) :
    renumber number (versions.answered l w given records) =
      records.zip ((versions.answered l w given records).map
        ((·.renumbered number) ∘ (·.2))) := by
  refine List.zip_of_prod ?_ ?_
  · rw [renumber, List.map_map]
    exact map_fst_answered given records
  · rw [renumber, List.map_map]
    rfl

-- The numbers up to the last one have no part in what follows.
theorem renumber_answered {number : Int → Int} (h : ∀ pid : Int, given < pid → number pid = pid)
    (records : List Record) :
    renumber number (versions.answered l w given records) = versions.answered l w given records := by
  induction records generalizing given with
  | nil => rfl
  | cons r rest ih =>
    have hle := versions.le_givenBy l w r given
    rw [answered, renumber_cons, h _ (by omega), ih fun pid hpid => h pid (by omega)]

-- Two records that follow each other change places, and their numbers do if both are added.
theorem exists_renumber_swap (a b : Record) (rest : List Record) (given : Nat) :
    ∃ number : Equiv.Perm Int, (∀ pid : Int, pid ≤ given → number pid = pid) ∧
      (versions.answered l w given (b :: a :: rest)).Perm
        (renumber number (versions.answered l w given (a :: b :: rest))) := by
  have hgiven : versions.givenBy l w b (versions.givenBy l w a given) =
      versions.givenBy l w a (versions.givenBy l w b given) := by
    unfold givenBy
    split <;> split <;> rfl
  simp only [answered, renumber_cons, hgiven]
  by_cases hboth : versions.adds l w a = true ∧ versions.adds l w b = true
  · obtain ⟨ha, hb⟩ := hboth
    have hga : versions.givenBy l w a given = given + 1 := if_pos ha
    have hgb : versions.givenBy l w b given = given + 1 := if_pos hb
    have hgab : versions.givenBy l w a (given + 1) = given + 2 := if_pos ha
    let number := Equiv.swap ((given + 1 : Nat) : Int) (given + 2 : Nat)
    have hfixed : ∀ pid : Int, pid ≠ (given + 1 : Nat) → pid ≠ (given + 2 : Nat) →
        number pid = pid := fun pid => Equiv.swap_apply_of_ne_of_ne
    have hfirst : number ((given + 1 : Nat) : Int) = (given + 2 : Nat) := Equiv.swap_apply_left _ _
    have hsecond : number ((given + 2 : Nat) : Int) = (given + 1 : Nat) := Equiv.swap_apply_right _ _
    refine ⟨number, fun pid hpid => hfixed pid (by omega) (by omega), ?_⟩
    rw [hga, hgb, hgab, hfirst, hsecond,
      renumber_answered fun pid hpid => hfixed pid (by omega) (by omega)]
    exact .swap _ _ _
  · -- one of them gets no number, and leaves its number to the other
    have ha : versions.outcome l w a ((versions.givenBy l w b given + 1 : Nat) : Int) =
        versions.outcome l w a ((given + 1 : Nat) : Int) := by
      cases hb : versions.adds l w b with
      | false => rw [givenBy, hb, if_neg Bool.false_ne_true]
      | true => exact outcome_of_not_adds (by simpa [hb] using hboth) _ _
    have hb : versions.outcome l w b ((versions.givenBy l w a given + 1 : Nat) : Int) =
        versions.outcome l w b ((given + 1 : Nat) : Int) := by
      cases ha : versions.adds l w a with
      | false => rw [givenBy, ha, if_neg Bool.false_ne_true]
      | true => exact outcome_of_not_adds (by simpa [ha] using hboth) _ _
    refine ⟨1, fun _ _ => rfl, ?_⟩
    rw [ha, Equiv.Perm.one_apply, Equiv.Perm.one_apply, hb,
      renumber_answered fun pid _ => Equiv.Perm.one_apply pid]
    exact .swap _ _ _

/-- In another order the records get the same answers, but for other numbers of the versions that they
add. -/
theorem exists_renumber (versions : Versions) (l : Layout) (w : Recorder) {records others : List Record}
    (h : records.Perm others) (given : Nat) :
    ∃ number : Equiv.Perm Int, (∀ pid : Int, pid ≤ given → number pid = pid) ∧
      (versions.answered l w given others).Perm
        (renumber number (versions.answered l w given records)) := by
  induction h generalizing given with
  | nil => exact ⟨1, fun _ _ => rfl, .nil⟩
  | cons r _ ih =>
    obtain ⟨number, hfixed, hperm⟩ := ih (versions.givenBy l w r given)
    have hle := versions.le_givenBy l w r given
    refine ⟨number, fun pid hpid => hfixed pid (by omega), ?_⟩
    have hhead : versions.outcome l w r (number ((given + 1 : Nat) : Int)) =
        versions.outcome l w r ((given + 1 : Nat) : Int) := by
      cases hadds : versions.adds l w r with
      | false => exact outcome_of_not_adds hadds _ _
      | true =>
        have hgiven : versions.givenBy l w r given = given + 1 := if_pos hadds
        rw [hfixed _ (by omega)]
    rw [answered, answered, renumber_cons, hhead]
    exact hperm.cons _
  | swap a b rest => exact exists_renumber_swap b a rest given
  | trans _ _ ih ih' =>
    obtain ⟨number, hfixed, hperm⟩ := ih given
    obtain ⟨number', hfixed', hperm'⟩ := ih' given
    refine ⟨number.trans number', fun pid hpid => ?_, hperm'.trans ?_⟩
    · rw [Equiv.trans_apply, hfixed pid hpid, hfixed' pid hpid]
    · have hcomposed := hperm.map fun e : Record × Recorder.Reconciliation =>
        (e.1, e.2.renumbered number')
      rw [renumber, List.map_map] at hcomposed
      refine hcomposed.trans (.of_eq (List.map_congr_left fun e _ => ?_))
      obtain ⟨r, answer⟩ := e
      cases answer <;> rfl

theorem rowsAdded_renumber (number : Int → Int) (list : List (Record × Recorder.Reconciliation)) :
    rowsAdded l w (renumber number list) =
      (rowsAdded l w list).map fun e => (number e.1, e.2) := by
  rw [rowsAdded, renumber, List.filterMap_map, rowsAdded, List.map_filterMap]
  congr 1
  funext e
  simp only [Function.comp_def, Recorder.Reconciliation.added?_renumbered, Option.map_map]

-- In another order the same versions are closed, and those that are added have other numbers.
theorem Becomes.perm {records others : List Record} {later later' : Versions}
    (h : versions.Becomes l w given records later) (h' : versions.Becomes l w given others later')
    (hperm : records.Perm others) (hnumbered : ∀ e ∈ versions.entries, e.1 ≤ given)
    {number : Int → Int} (hfixed : ∀ pid : Int, pid ≤ given → number pid = pid)
    (htold : (versions.answered l w given others).Perm
      (renumber number (versions.answered l w given records))) :
    later'.entries.Perm (later.entries.map fun e => (number e.1, e.2)) := by
  have hclosed : (versions.closedBy l w.time (versions.added l w records)).entries.map
      (fun e => (number e.1, e.2)) =
        (versions.closedBy l w.time (versions.added l w records)).entries := by
    apply map_eq_self
    intro e he
    obtain ⟨old, hold, rfl⟩ := List.mem_map.1 he
    exact Prod.ext (hfixed _ (hnumbered old hold)) rfl
  rw [h.entries, h'.entries, List.map_append, hclosed, closedBy_perm (added_perm hperm),
    ← rowsAdded_renumber]
  exact (htold.filterMap _).append_left _

end Versions

/-! ## Tables -/

-- What is kept under other keys is found under these.
theorem SortedMap.get?_of_perm {α : Type} {map other : SortedMap Int α} {number : Equiv.Perm Int}
    (h : other.entries.Perm (map.entries.map fun e => (number e.1, e.2))) (key : Int) :
    other.get? (number key) = map.get? key := by
  apply Option.ext
  intro value
  rw [← mem_entries_iff, ← mem_entries_iff, h.mem_iff, List.mem_map]
  constructor
  · rintro ⟨e, hmem, heq⟩
    obtain ⟨hkey, hvalue⟩ := Prod.mk.inj heq
    rwa [← number.injective hkey, ← hvalue]
  · exact fun hmem => ⟨(key, value), hmem, rfl⟩

/-- Two tables are the same but for the numbers of the rows that an earlier table does not have. -/
structure Table.SameBut (number : Equiv.Perm Int) (before t t' : Table) : Prop where
  design : t'.toTableDesign = t.toTableDesign
  lastId : t'.lastId = t.lastId
  old : ∀ row ∈ before.rows.entries, number row.1 = row.1
  rows : ∀ pid, t'.rows.get? (number pid) = t.rows.get? pid

/-- In a register that recorders have left and all columns of which are read as such, records of different
keys are reconciled by one recorder, where each of their keys can be looked up, and no key lies in a leap
second.  This succeeds while there
are numbers left.  Where it does, so it does in any other order: each record gets the same answer, and
the tables are the same, but for the numbers of the versions that are new. -/
theorem reconcileAll_perm {l : Layout} (hplain : l.NamesPlain) {db : Database} (hwritten : l.Written db)
    {w : Recorder} {records others : List Record} (hperm : records.Perm others)
    (hconforms : ∀ r ∈ records, l.conforms r = true)
    (hleap : ∀ r ∈ records, ¬ (r.valueOrNull l.key).IsLeap)
    (hkeys : (records.map fun r => (r.valueOrNull l.key).cell).Nodup)
    (hlookup : ∀ r ∈ records, ∃ found, w.fetchCurrent l (r.valueOrNull l.key) db = .ok found) :
    ((∀ t, db.table? l.table = some t → t.lastId + records.length < 2 ^ 63) →
        ∃ answers after, w.reconcileAll l records db = (.ok answers, after)) ∧
      ∀ answers after, w.reconcileAll l records db = (.ok answers, after) →
        ∃ answers' after' before t t', ∃ number : Equiv.Perm Int,
          w.reconcileAll l others db = (.ok answers', after') ∧
          answers.length = records.length ∧ answers'.length = others.length ∧
          (others.zip answers').Perm (records.zip (answers.map (·.renumbered number))) ∧
          db.table? l.table = some before ∧ after.table? l.table = some t ∧
          after'.table? l.table = some t' ∧ before.SameBut number t t' := by
  obtain ⟨versions, given, hrecorded⟩ := hwritten.isRecorded hplain.key
  obtain ⟨before, hbefore, -, hrows, hlast⟩ := hrecorded.table
  have hback : ∀ r ∈ records,
      (r.valueOrNull l.key).restored.cell = (r.valueOrNull l.key).cell :=
    fun r hr => Value.cell_restored (hleap r hr)
  have hsingle : ∀ r ∈ records,
      (versions.found l (r.valueOrNull l.key) w.time.toMillis).length ≤ 1 := by
    intro r hr
    obtain ⟨found, hfetch⟩ := hlookup r hr
    exact hrecorded.length_found_of_fetchAt hplain.key hfetch
  constructor
  · intro hroom
    have hlt := hroom before hbefore
    rw [hlast] at hlt
    obtain ⟨after, -, hrun, -⟩ := hrecorded.reconcileAll_answered hplain hconforms hback hkeys
      hsingle (.inl (Versions.hasRoom_of_length (by omega)))
    exact ⟨_, after, hrun⟩
  · intro answers after hrun
    obtain ⟨after₁, later, hrun₁, hlater, hbecomes, hroom⟩ :=
      hrecorded.reconcileAll_answered hplain hconforms hback hkeys hsingle
        (.inr ⟨answers, congrArg Prod.fst hrun⟩)
    rw [hrun] at hrun₁
    cases hrun₁
    obtain ⟨after', later', hrun', hlater', hbecomes', -⟩ :=
      hrecorded.reconcileAll_answered hplain (fun r hr => hconforms r (hperm.mem_iff.2 hr))
        (fun r hr => hback r (hperm.mem_iff.2 hr)) ((hperm.map _).nodup_iff.1 hkeys)
        (fun r hr => hsingle r (hperm.mem_iff.2 hr)) (.inl (hroom.perm hperm))
    obtain ⟨number, hfixed, htold⟩ := versions.exists_renumber l w hperm given
    obtain ⟨t, htable, hdesign, hrows₁, hlast₁⟩ := hlater.table
    obtain ⟨t', htable', hdesign', hrows', hlast'⟩ := hlater'.table
    refine ⟨_, after', before, t, t', number, hrun', ?_, ?_, ?_, hbefore, htable, htable', ?_⟩
    · rw [List.length_map, Versions.length_answered]
    · rw [List.length_map, Versions.length_answered]
    · rw [List.map_map, ← versions.zip_renumber l w given records number,
        ← List.zip_of_prod (Versions.map_fst_answered given others) rfl]
      exact htold
    · refine ⟨hdesign'.trans hdesign.symm, ?_, fun row hrow => ?_, fun pid => ?_⟩
      · rw [hlast', hlast₁, (Versions.added_perm hperm).length_eq]
      · rw [hrows] at hrow
        obtain ⟨e, he, rfl⟩ := List.mem_map.1 hrow
        exact hfixed _ (hrecorded.numbered e he)
      · have hentry := hbecomes.perm hbecomes' hperm hrecorded.numbered hfixed htold
        rw [hrows', hrows₁, Table.rowsOf, Table.rowsOf, SortedMap.get?_map, SortedMap.get?_map,
          SortedMap.get?_of_perm hentry]

-- A reading that replaces another and one that is new, in both orders.
theorem reconcileAll_perm_readings :
    ∃ answers answers' after after' before t t', ∃ number : Equiv.Perm Int,
      (Recorder.pinnedAt (.ofMillis 2000)).reconcileAll readingLayout newReadings readingsBefore =
        (.ok answers, after) ∧
      (Recorder.pinnedAt (.ofMillis 2000)).reconcileAll readingLayout newReadings.reverse
        readingsBefore = (.ok answers', after') ∧
      (newReadings.reverse.zip answers').Perm
        (newReadings.zip (answers.map (·.renumbered number))) ∧
      readingsBefore.table? "reading" = some before ∧ after.table? "reading" = some t ∧
      after'.table? "reading" = some t' ∧ before.SameBut number t t' ∧
      answers = [.replaced 1 2, .inserted 3] := by
  have hwritten : readingLayout.Written readingsBefore :=
    .called _ _ (.created readingLayout_created) (Database.lasts_of_begun (by decide +kernel))
  have hconforms : ∀ r ∈ newReadings, readingLayout.conforms r = true := by decide +kernel
  have hleap : ∀ r ∈ newReadings, ¬ (r.valueOrNull readingLayout.key).IsLeap := by decide +kernel
  have hkeys : (newReadings.map fun r => (r.valueOrNull readingLayout.key).cell).Nodup := by
    decide +kernel
  have hlookup : ∀ r ∈ newReadings, ∃ found, (Recorder.pinnedAt (.ofMillis 2000)).fetchCurrent
      readingLayout (r.valueOrNull readingLayout.key) readingsBefore = .ok found := by
    have hok : ∀ r ∈ newReadings, ((Recorder.pinnedAt (.ofMillis 2000)).fetchCurrent readingLayout
        (r.valueOrNull readingLayout.key) readingsBefore).isOk = true := by decide +kernel
    intro r hr
    have hfetch := hok r hr
    revert hfetch
    cases (Recorder.pinnedAt (.ofMillis 2000)).fetchCurrent readingLayout
        (r.valueOrNull readingLayout.key) readingsBefore with
    | error fault => exact nofun
    | ok found => exact fun _ => ⟨found, rfl⟩
  obtain ⟨-, hall⟩ := reconcileAll_perm readingLayout_plain hwritten newReadings.reverse_perm.symm
    hconforms hleap hkeys hlookup
  have hrun : ((Recorder.pinnedAt (.ofMillis 2000)).reconcileAll readingLayout newReadings
      readingsBefore).1 = .ok [.replaced 1 2, .inserted 3] := by decide +kernel
  obtain ⟨answers', after', before, t, t', number, hrun', -, -, hzip, hbefore, ht, ht', hsame⟩ :=
    hall _ _ (Prod.ext hrun rfl)
  exact ⟨_, answers', _, after', before, t, t', number, Prod.ext hrun rfl, hrun', hzip, hbefore, ht,
    ht', hsame, rfl⟩

/-! ### A word for the clock -/

/-- A register of devices with a short note under a word for the date. -/
def noteLayout : Layout where
  table := "note"
  key := "device"
  fields := [Field.required "device" 4, Field.required "Current_Date" 4]
  table_identifier := by decide
  names_identifier := by decide
  names_nodup := by decide
  key_persisted := ⟨_, List.mem_cons_self .., rfl, rfl⟩

def note (device text : String) : Record :=
  .ofList [("device", .text device), ("Current_Date", .text text)]

theorem noteLayout_created : noteLayout.Created (noteLayout.createTable .empty).2 :=
  Layout.created_of_isOk rfl (by decide +kernel)

/-- The register in which the gate is noted as open. -/
def notesBefore : Database :=
  ((Recorder.pinnedAt (.ofMillis 1000)).reconcile noteLayout (note "gate" "open")
    (noteLayout.createTable .empty).2).2

/-- The gate is still open, and the door is shut. -/
def gateAndDoor : List Record := [note "gate" "open", note "door" "shut"]

-- The lookups succeed, and find the gate and no door.  But the note read at the gate is the date, which is
-- too wide to be written when the version is closed.  So neither order succeeds, and in one of them
-- nothing is told of the door.
theorem not_reconcileAll_perm_notes :
    noteLayout.Written notesBefore ∧ (∀ r ∈ gateAndDoor, noteLayout.conforms r = true) ∧
      (∀ r ∈ gateAndDoor, ¬ (r.valueOrNull noteLayout.key).IsLeap) ∧
      (gateAndDoor.map fun r => (r.valueOrNull noteLayout.key).cell).Nodup ∧
      (gateAndDoor.map fun r => ((Recorder.pinnedAt (.ofMillis 2000)).fetchCurrent noteLayout
        (r.valueOrNull noteLayout.key) notesBefore).toOption.map Option.isSome) =
          [some true, some false] ∧
      ((Recorder.pinnedAt (.ofMillis 2000)).reconcileAll noteLayout gateAndDoor notesBefore).1 =
        .error (.record (.tooWide "Current_Date" 4 10)) ∧
      (((Recorder.pinnedAt (.ofMillis 2000)).reconcileAll noteLayout gateAndDoor
        notesBefore).2.table? "note").map (·.rows.entries.length) = some 1 ∧
      ((Recorder.pinnedAt (.ofMillis 2000)).reconcileAll noteLayout gateAndDoor.reverse notesBefore).1 =
        .error (.record (.tooWide "Current_Date" 4 10)) ∧
      (((Recorder.pinnedAt (.ofMillis 2000)).reconcileAll noteLayout gateAndDoor.reverse
        notesBefore).2.table? "note").map (·.rows.entries.length) = some 2 :=
  ⟨.called (.pinnedAt (.ofMillis 1000)) (.reconcile (note "gate" "open")) (.created noteLayout_created)
      (Database.lasts_of_begun (by decide +kernel)), by decide +kernel, by decide +kernel,
    by decide +kernel, by decide +kernel, by decide +kernel, by decide +kernel, by decide +kernel,
    by decide +kernel⟩

end Registry
