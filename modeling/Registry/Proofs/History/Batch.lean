import Registry.Proofs.History.Outcome

/-!
# Batch — records that are reconciled one after the other

Each reconciliation of a batch goes on from the register that the last one has left.  Where the records
are stored under keys of their own, none of them gets in the way of another: each is answered by the
versions from before the batch, and becomes of its key what would become of it alone.
-/

namespace Registry

namespace Recorder

/-- Reconciliations of some records one after the other; the first fault ends them. -/
def reconcileAll (w : Recorder) (l : Layout) : List Record → Database → Edit (List Reconciliation)
  | [], db => (.ok [], db)
  | r :: rest, db =>
    match w.reconcile l r db with
    | (.error fault, db) => (.error fault, db)
    | (.ok answer, db) => Edit.told (answer :: ·) (w.reconcileAll l rest db)

theorem reconcileAll_cons {w : Recorder} {l : Layout} {r : Record} {db next : Database}
    {answer : Reconciliation} (h : w.reconcile l r db = (.ok answer, next)) (rest : List Record) :
    w.reconcileAll l (r :: rest) db = Edit.told (answer :: ·) (w.reconcileAll l rest next) := by
  rw [reconcileAll, h]

-- Where all records are reconciled, the first one is, and then all others are.
theorem exists_of_reconcileAll_cons {w : Recorder} {l : Layout} {r : Record} {rest : List Record}
    {db : Database} {answers : List Reconciliation}
    (h : (w.reconcileAll l (r :: rest) db).1 = .ok answers) :
    ∃ answer next others, w.reconcile l r db = (.ok answer, next) ∧
      (w.reconcileAll l rest next).1 = .ok others := by
  rcases hrun : w.reconcile l r db with ⟨fault | answer, next⟩
  · rw [reconcileAll, hrun] at h
    cases h
  · rw [reconcileAll_cons hrun] at h
    rcases hrest : w.reconcileAll l rest next with ⟨fault | others, after⟩
    · rw [hrest] at h
      cases h
    · exact ⟨answer, next, others, rfl, by rw [hrest]⟩

/-- The number of the version that was added. -/
def Reconciliation.added? : Reconciliation → Option Int
  | .inserted pid | .replaced _ pid => some pid
  | .unchanged _ => none

end Recorder

/-! ## By the versions from before -/

namespace Versions

variable {versions : Versions} {l : Layout} {w : Recorder} {r : Record} {given : Nat}

/-- The records that are added, of some that are reconciled. -/
def added (versions : Versions) (l : Layout) (w : Recorder) (records : List Record) : List Record :=
  records.filter (versions.adds l w)

/-- Some records one behind the other, with the answers that they get by the same versions. -/
def answered (versions : Versions) (l : Layout) (w : Recorder) :
    Nat → List Record → List (Record × Recorder.Reconciliation)
  | _, [] => []
  | given, r :: rest =>
    (r, versions.outcome l w r (given + 1 : Nat)) ::
      versions.answered l w (versions.givenBy l w r given) rest

theorem added?_outcome (next : Int) : (versions.outcome l w r next).added? =
    if versions.adds l w r then some next else none := by
  unfold adds outcome
  split
  · rfl
  · split <;> rfl

theorem map_fst_answered (given : Nat) (records : List Record) :
    (versions.answered l w given records).map (·.1) = records := by
  induction records generalizing given with
  | nil => rfl
  | cons r rest ih => rw [answered, List.map_cons, ih]

theorem added_cons (r : Record) (rest : List Record) : versions.added l w (r :: rest) =
    if versions.adds l w r then r :: versions.added l w rest else versions.added l w rest :=
  List.filter_cons

theorem added_perm {records others : List Record} (h : records.Perm others) :
    (versions.added l w records).Perm (versions.added l w others) :=
  h.filter _

theorem length_answered (given : Nat) (records : List Record) :
    (versions.answered l w given records).length = records.length := by
  rw [← List.length_map, map_fst_answered]

-- Versions that agree on the keys of some records answer them the same.
theorem answered_congr {other : Versions} {records : List Record}
    (h : ∀ r ∈ records,
      other.ofKey l (r.valueOrNull l.key) = versions.ofKey l (r.valueOrNull l.key)) (given : Nat) :
    other.answered l w given records = versions.answered l w given records ∧
      other.added l w records = versions.added l w records := by
  induction records generalizing given with
  | nil => exact ⟨rfl, rfl⟩
  | cons r rest ih =>
    have hown := h r (List.mem_cons_self ..)
    have hadds : other.adds l w r = versions.adds l w r := adds_congr hown
    obtain ⟨hrest, hadded⟩ := ih (fun later hlater => h later (List.mem_cons_of_mem _ hlater))
      (versions.givenBy l w r given)
    constructor
    · rw [answered, answered, givenBy, hadds, outcome_congr hown, ← givenBy, hrest]
    · rw [added_cons, added_cons, hadds, hadded]

/-! ### Numbers -/

/-- There are numbers left for those of the records that are added. -/
def HasRoom (versions : Versions) (l : Layout) (w : Recorder) (records : List Record) (given : Nat) :
    Prop :=
  versions.added l w records ≠ [] → given + (versions.added l w records).length < 2 ^ 63

theorem HasRoom.perm {records others : List Record} (h : versions.HasRoom l w records given)
    (hperm : records.Perm others) : versions.HasRoom l w others given := by
  have hadded : (versions.added l w records).Perm (versions.added l w others) := added_perm hperm
  intro hsome
  rw [← hadded.length_eq]
  exact h fun hnone => hsome (List.perm_nil.1 (hnone ▸ hadded.symm))

theorem hasRoom_of_length {records : List Record} (h : given + records.length < 2 ^ 63) :
    versions.HasRoom l w records given := by
  intro _
  have : (versions.added l w records).length ≤ records.length := List.length_filter_le ..
  omega

theorem givenBy_add (versions : Versions) (l : Layout) (w : Recorder) (r : Record) (rest : List Record)
    (given : Nat) :
    versions.givenBy l w r given + (versions.added l w rest).length =
      given + (versions.added l w (r :: rest)).length := by
  rw [givenBy, added_cons]
  split
  · rw [List.length_cons]
    omega
  · rfl

theorem hasRoom_cons {rest : List Record} : versions.HasRoom l w (r :: rest) given ↔
    (versions.adds l w r = true → given + 1 < 2 ^ 63) ∧
      versions.HasRoom l w rest (versions.givenBy l w r given) := by
  unfold HasRoom
  rw [givenBy_add, added_cons]
  cases versions.adds l w r with
  | false => simp
  | true =>
    simp only [if_true, List.length_cons, ne_eq, reduceCtorEq, not_false_eq_true, true_implies]
    cases versions.added l w rest with
    | nil => simp
    | cons next later =>
      simp only [reduceCtorEq, not_false_eq_true, true_implies, List.length_cons]
      omega

/-! ### The versions that are left -/

/-- The versions after those that hold under the keys of some records are closed at an instant. -/
def closedBy (versions : Versions) (l : Layout) (stop : Instant) (written : List Record) : Versions :=
  versions.map fun _ v =>
    if written.any fun r => v.hasKey l (r.valueOrNull l.key) then v.settledAt stop else v

/-- The versions that some records have become by their answers. -/
def rowsAdded (l : Layout) (w : Recorder) (list : List (Record × Recorder.Reconciliation)) :
    List (Int × StoredVersion) :=
  list.filterMap fun e => e.2.added?.map fun pid => (pid, (w.openVersion e.1).stored l w.time)

theorem rowsAdded_append (list more : List (Record × Recorder.Reconciliation)) :
    rowsAdded l w (list ++ more) = rowsAdded l w list ++ rowsAdded l w more :=
  List.filterMap_append

theorem closedBy_nil (versions : Versions) (l : Layout) (stop : Instant) :
    versions.closedBy l stop [] = versions :=
  SortedMap.ext_entries (map_eq_self fun _ _ => rfl)

theorem closedBy_perm {written other : List Record} (h : written.Perm other) (stop : Instant) :
    versions.closedBy l stop other = versions.closedBy l stop written := by
  apply SortedMap.ext_entries
  apply List.map_congr_left
  intro e _
  dsimp only
  rw [h.any_eq]

-- To close the versions of one key leaves those of other keys to be closed.
theorem closedBy_settled (hconforms : ∀ e ∈ versions.entries, l.conforms e.2.record = true)
    (hfits : (r.valueOrNull l.key).fits l.keyField.type = true)
    (hback : (r.valueOrNull l.key).restored.cell = (r.valueOrNull l.key).cell)
    {written : List Record}
    (hapart : ∀ other ∈ written, (other.valueOrNull l.key).cell ≠ (r.valueOrNull l.key).cell)
    (stop : Instant) :
    (versions.settled l (r.valueOrNull l.key) stop).closedBy l stop written =
      versions.closedBy l stop (r :: written) := by
  apply SortedMap.ext_entries
  show List.map _ (List.map _ versions.entries) = List.map _ versions.entries
  rw [List.map_map]
  apply List.map_congr_left
  intro e he
  simp only [Function.comp_def, List.any_cons]
  by_cases hkey : e.2.hasKey l (r.valueOrNull l.key) = true
  · have hothers : (written.any fun other => e.2.hasKey l (other.valueOrNull l.key)) = false := by
      rw [List.any_eq_false]
      intro other hother hfound
      exact hapart other hother
        ((StoredVersion.hasKey_iff.1 hfound).symm.trans (StoredVersion.hasKey_iff.1 hkey))
    simp only [hkey, if_true, Bool.true_or,
      StoredVersion.hasKey_settledAt (hconforms e he) hfits hback hkey, hothers,
      Bool.false_eq_true, if_false]
  · simp only [Bool.eq_false_iff.2 hkey, Bool.false_eq_true, if_false, Bool.false_or]

-- A version of none of the keys is not closed.
theorem closedBy_insert {pid : Int} (hnew : ∀ e ∈ versions.entries, e.1 < pid) {v : StoredVersion}
    {written : List Record} (hapart : ∀ r ∈ written, v.hasKey l (r.valueOrNull l.key) = false)
    (stop : Instant) :
    (Versions.closedBy (versions.insert pid v) l stop written).entries =
      (versions.closedBy l stop written).entries ++ [(pid, v)] := by
  have hv : (written.any fun r => v.hasKey l (r.valueOrNull l.key)) = false :=
    List.any_eq_false.2 fun r hr => by rw [hapart r hr]; exact Bool.false_ne_true
  show List.map _ (SortedMap.entries (versions.insert pid v)) = List.map _ versions.entries ++ _
  rw [entries_insert hnew, List.map_append, List.map_singleton]
  simp only [hv, Bool.false_eq_true, if_false]

/-- What the versions have become after a batch of records. -/
structure Becomes (versions : Versions) (l : Layout) (w : Recorder) (given : Nat)
    (records : List Record) (later : Versions) : Prop where
  entries : later.entries = (versions.closedBy l w.time (versions.added l w records)).entries ++
    rowsAdded l w (versions.answered l w given records)
  own : ∀ r ∈ records,
    ∃ pid, later.ofKey l (r.valueOrNull l.key) = versions.ofKeyAfter l w r pid
  others : ∀ key : Value, (∀ r ∈ records, key.cell ≠ (r.valueOrNull l.key).cell) →
    later.ofKey l key = versions.ofKey l key

theorem becomes_nil (versions : Versions) (l : Layout) (w : Recorder) (given : Nat) :
    versions.Becomes l w given [] versions where
  entries := by
    rw [added, List.filter_nil, closedBy_nil]
    exact (List.append_nil _).symm
  own _ hr := by cases hr
  others _ _ := rfl

end Versions

/-! ## The register -/

namespace Recorded

variable {l : Layout} {db : Database} {versions : Versions} {given : Nat} {w : Recorder} {r : Record}

-- What is closed after a record was reconciled is what is closed with it, and its version is added.
theorem closedBy_after (h : Recorded l db versions given) (hconforms : l.conforms r = true)
    (hback : (r.valueOrNull l.key).restored.cell = (r.valueOrNull l.key).cell) {written : List Record}
    (hapart : ∀ other ∈ written, (other.valueOrNull l.key).cell ≠ (r.valueOrNull l.key).cell) :
    ((versions.after l w r given).closedBy l w.time written).entries =
      (versions.closedBy l w.time (if versions.adds l w r then r :: written else written)).entries ++
        Versions.rowsAdded l w [(r, versions.outcome l w r (given + 1 : Nat))] := by
  rw [Versions.rowsAdded, List.filterMap_cons, Versions.added?_outcome]
  cases hadds : versions.adds l w r with
  | false =>
    rw [Versions.after_of_not_adds hadds]
    exact (List.append_nil _).symm
  | true =>
    have hv : ∀ other ∈ written,
        ((w.openVersion r).stored l w.time).hasKey l (other.valueOrNull l.key) = false := by
      intro other hother
      rw [StoredVersion.hasKey_opened]
      exact decide_eq_false (Ne.symm (hapart other hother))
    rw [Versions.after_of_adds hadds, if_pos rfl,
      Versions.closedBy_insert (Versions.lt_settled h.numbered) hv,
      Versions.closedBy_settled h.conforms (Layout.key_fits hconforms) hback hapart]
    rfl

theorem becomes_cons (h : Recorded l db versions given) (hconforms : l.conforms r = true)
    (hback : (r.valueOrNull l.key).restored.cell = (r.valueOrNull l.key).cell) {rest : List Record}
    (hapart : ∀ other ∈ rest, (other.valueOrNull l.key).cell ≠ (r.valueOrNull l.key).cell)
    {later : Versions}
    (hrest : (versions.after l w r given).Becomes l w (versions.givenBy l w r given) rest later) :
    versions.Becomes l w given (r :: rest) later := by
  have hframe : ∀ other ∈ rest, (versions.after l w r given).ofKey l (other.valueOrNull l.key) =
      versions.ofKey l (other.valueOrNull l.key) :=
    fun other hother => h.ofKey_after_of_ne hconforms hback (hapart other hother)
  refine ⟨?_, fun other hother => ?_, fun key hothers => ?_⟩
  · obtain ⟨hsame, hadded⟩ := Versions.answered_congr hframe (versions.givenBy l w r given)
    have haddedApart : ∀ other ∈ versions.added l w rest,
        (other.valueOrNull l.key).cell ≠ (r.valueOrNull l.key).cell :=
      fun other hother => hapart other (List.mem_filter.1 hother).1
    rw [hrest.entries, hsame, hadded, h.closedBy_after hconforms hback haddedApart,
      ← Versions.added_cons, List.append_assoc, ← Versions.rowsAdded_append]
    rfl
  · rcases List.mem_cons.1 hother with rfl | hother
    · refine ⟨_, (hrest.others _ fun later hlater => ?_).trans (h.ofKey_after hconforms hback)⟩
      exact Ne.symm (hapart later hlater)
    · obtain ⟨pid, hown⟩ := hrest.own other hother
      exact ⟨pid, hown.trans (Versions.ofKeyAfter_congr (hframe other hother) pid)⟩
  · rw [hrest.others key fun later hlater => hothers later (List.mem_cons_of_mem _ hlater),
      h.ofKey_after_of_ne hconforms hback (hothers r (List.mem_cons_self ..))]

/-- Records that are stored under different keys, none of which has two versions that hold, are all
reconciled while there are numbers left, and each by the versions from before the first of them. -/
theorem reconcileAll_answered {records : List Record} (h : Recorded l db versions given)
    (hplain : l.NamesPlain) (hconforms : ∀ r ∈ records, l.conforms r = true)
    (hback : ∀ r ∈ records, (r.valueOrNull l.key).restored.cell = (r.valueOrNull l.key).cell)
    (hkeys : (records.map fun r => (r.valueOrNull l.key).cell).Nodup)
    (hsingle : ∀ r ∈ records,
      (versions.found l (r.valueOrNull l.key) w.time.toMillis).length ≤ 1)
    (hroom : versions.HasRoom l w records given ∨
      ∃ answers, (w.reconcileAll l records db).1 = .ok answers) :
    ∃ after later, w.reconcileAll l records db =
        (.ok ((versions.answered l w given records).map (·.2)), after) ∧
      Recorded l after later (given + (versions.added l w records).length) ∧
      versions.Becomes l w given records later ∧ versions.HasRoom l w records given := by
  -- On the records that are left, each from the register that the last one has left.
  induction records generalizing db versions given with
  | nil => exact ⟨db, versions, rfl, h, versions.becomes_nil l w given, fun hsome => absurd rfl hsome⟩
  | cons r rest ih =>
    have hr := hconforms r (List.mem_cons_self ..)
    have hrBack := hback r (List.mem_cons_self ..)
    rw [List.map_cons, List.nodup_cons] at hkeys
    have hapart : ∀ other ∈ rest, (other.valueOrNull l.key).cell ≠ (r.valueOrNull l.key).cell :=
      fun other hother heq => hkeys.1 (List.mem_map.2 ⟨other, hother, heq⟩)
    rw [Versions.hasRoom_cons] at hroom ⊢
    obtain ⟨db₁, hrun, h₁, hroom₁⟩ := h.exists_reconcile hplain hr (hsingle r (List.mem_cons_self ..)) <|
      hroom.imp And.left fun ⟨answers, hok⟩ => by
        obtain ⟨answer, _, _, hrun, -⟩ := Recorder.exists_of_reconcileAll_cons hok
        exact ⟨answer, congrArg Prod.fst hrun⟩
    -- What is known of the records that are left is as true of the register after the first.
    have hframe : ∀ other ∈ rest,
        (versions.after l w r given).ofKey l (other.valueOrNull l.key) =
          versions.ofKey l (other.valueOrNull l.key) :=
      fun other hother => h.ofKey_after_of_ne hr hrBack (hapart other hother)
    have hsingle₁ : ∀ other ∈ rest, ((versions.after l w r given).found l (other.valueOrNull l.key)
        w.time.toMillis).length ≤ 1 := by
      intro other hother
      rw [Versions.found_eq_filter, hframe other hother, ← Versions.found_eq_filter]
      exact hsingle other (List.mem_cons_of_mem _ hother)
    obtain ⟨hsame, hadded⟩ := Versions.answered_congr hframe (versions.givenBy l w r given)
    have hsameRoom : (versions.after l w r given).HasRoom l w rest (versions.givenBy l w r given) ↔
        versions.HasRoom l w rest (versions.givenBy l w r given) := by
      rw [Versions.HasRoom, hadded]
      rfl
    have hroom₂ : (versions.after l w r given).HasRoom l w rest (versions.givenBy l w r given) ∨
        ∃ answers, (w.reconcileAll l rest db₁).1 = .ok answers := by
      refine hroom.imp (fun hboth => hsameRoom.2 hboth.2) fun ⟨answers, hok⟩ => ?_
      obtain ⟨_, _, others, hrun', hothers⟩ := Recorder.exists_of_reconcileAll_cons hok
      rw [hrun] at hrun'
      cases hrun'
      exact ⟨others, hothers⟩
    obtain ⟨after, later, hrest, hlater, hbecomes, hroom₃⟩ := ih h₁
      (fun other hother => hconforms other (List.mem_cons_of_mem _ hother))
      (fun other hother => hback other (List.mem_cons_of_mem _ hother)) hkeys.2 hsingle₁ hroom₂
    refine ⟨after, later, ?_, ?_, h.becomes_cons hr hrBack hapart hbecomes, hroom₁,
      hsameRoom.1 hroom₃⟩
    · rw [Recorder.reconcileAll_cons hrun, hrest, hsame]
      rfl
    · rwa [← Versions.givenBy_add, ← hadded]

end Recorded

end Registry
