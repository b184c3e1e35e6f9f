import Registry.Proofs.History.Recorded

/-!
# Outcome — what one reconciliation does to the versions

A reconciliation is decided by the versions of its key that hold at its instant.  It leaves the
register as it is, or it closes the version that holds, if there is one, and adds the record.  It
touches the versions of no other key.
-/

namespace Registry

/-! ## Versions that are closed -/

/-- The reconciliation has added a version. -/
def Recorder.Reconciliation.wrote : Recorder.Reconciliation → Bool
  | .unchanged _ => false
  | .inserted _ | .replaced .. => true

namespace StoredVersion

/-- The version after it is closed at an instant, if it holds then. -/
def settledAt (v : StoredVersion) (stop : Instant) : StoredVersion :=
  if v.holdsAt stop.toMillis then v.rewrittenAt stop else v

variable {l : Layout} {v : StoredVersion} {key : Value} {stop : Instant}

theorem settledAt_of_holdsAt (h : v.holdsAt stop.toMillis = true) :
    v.settledAt stop = v.rewrittenAt stop :=
  if_pos h

theorem settledAt_of_not (h : v.holdsAt stop.toMillis = false) : v.settledAt stop = v :=
  if_neg (by rw [h]; exact Bool.false_ne_true)

-- What is written again of a version has the key under which it was found.
theorem cell_key_rewrittenAt (hconforms : l.conforms v.record = true)
    (hfits : key.fits l.keyField.type = true) (hback : key.restored.cell = key.cell)
    (hkey : v.hasKey l key = true) (stop : Instant) :
    ((v.rewrittenAt stop).key l).cell = (v.key l).cell := by
  have hcell := hasKey_iff.1 hkey
  have hrestored := Value.restored_eq_of_cell_eq (Layout.key_fits hconforms) hfits hcell
  calc ((v.rewrittenAt stop).key l).cell
      = (v.key l).restored.cell := congrArg Value.cell (key_restored l v)
    _ = key.restored.cell := congrArg Value.cell hrestored
    _ = key.cell := hback
    _ = (v.key l).cell := hcell.symm

theorem hasKey_congr {other : StoredVersion} (h : (other.key l).cell = (v.key l).cell) (key : Value) :
    other.hasKey l key = v.hasKey l key := by
  rw [hasKey, hasKey, h]

-- So to close a version does not give it another key.
theorem hasKey_settledAt (hconforms : l.conforms v.record = true)
    (hfits : key.fits l.keyField.type = true) (hback : key.restored.cell = key.cell)
    (hkey : v.hasKey l key = true) (stop : Instant) (other : Value) :
    (v.settledAt stop).hasKey l other = v.hasKey l other := by
  cases hholds : v.holdsAt stop.toMillis with
  | false => rw [settledAt_of_not hholds]
  | true =>
    rw [settledAt_of_holdsAt hholds]
    exact hasKey_congr (cell_key_rewrittenAt hconforms hfits hback hkey stop) other

-- A record that is added is found under its key only.
theorem hasKey_opened (l : Layout) (w : Recorder) (r : Record) (key : Value) :
    ((w.openVersion r).stored l w.time).hasKey l key =
      decide ((r.valueOrNull l.key).cell = key.cell) := by
  rw [hasKey, Version.key_stored]
  rfl

end StoredVersion

theorem map_eq_self {α : Type} {f : α → α} {list : List α} (h : ∀ a ∈ list, f a = a) :
    list.map f = list :=
  (List.map_congr_left h).trans (List.map_id list)

/-! ## The versions of a key -/

namespace Versions

variable {versions : Versions} {l : Layout} {w : Recorder} {r : Record} {key : Value} {stop : Instant}
  {given : Nat}

/-- The versions that are found under a key while they hold. -/
def ofKey (versions : Versions) (l : Layout) (key : Value) : List (Int × StoredVersion) :=
  versions.entries.filter fun e => e.2.hasKey l key

theorem found_eq_filter (ms : Int) :
    versions.found l key ms = (versions.ofKey l key).filter fun e => e.2.holdsAt ms := by
  rw [ofKey, List.filter_filter, found]
  apply List.filter_congr
  intro e _
  exact Bool.and_comm _ _

theorem ofKey_congr {other : Value} (h : other.cell = key.cell) :
    versions.ofKey l other = versions.ofKey l key := by
  unfold ofKey StoredVersion.hasKey
  rw [h]

theorem ofKey_insert {pid : Int} (hnew : ∀ e ∈ versions.entries, e.1 < pid) (v : StoredVersion) :
    Versions.ofKey (versions.insert pid v) l key =
      versions.ofKey l key ++ if v.hasKey l key = true then [(pid, v)] else [] := by
  rw [ofKey, entries_insert hnew, List.filter_append, ofKey]
  congr 1
  by_cases hkey : v.hasKey l key = true
  · simp [hkey]
  · simp [hkey]

theorem ofKey_insert_of_not {pid : Int} (hnew : ∀ e ∈ versions.entries, e.1 < pid) {v : StoredVersion}
    (hkey : v.hasKey l key = false) :
    Versions.ofKey (versions.insert pid v) l key = versions.ofKey l key := by
  rw [ofKey_insert hnew, hkey, if_neg Bool.false_ne_true, List.append_nil]

/-! ### Versions that hold are closed -/

/-- The versions after those of a key that hold at an instant are closed at it. -/
def settled (versions : Versions) (l : Layout) (key : Value) (stop : Instant) : Versions :=
  versions.map fun _ v => if v.hasKey l key then v.settledAt stop else v

theorem settled_eq_self (h : versions.found l key stop.toMillis = []) :
    versions.settled l key stop = versions := by
  rw [found, List.filter_eq_nil_iff] at h
  apply SortedMap.ext_entries
  apply map_eq_self
  intro e he
  have hnot := h e he
  dsimp only
  split
  · rename_i hkey
    rw [hkey, Bool.true_and, Bool.not_eq_true] at hnot
    rw [StoredVersion.settledAt_of_not hnot]
  · rfl

theorem settled_eq_setOne {e : Int × StoredVersion} (h : versions.found l key stop.toMillis = [e]) :
    versions.settled l key stop = versions.setOne e.1 (e.2.rewrittenAt stop) := by
  obtain ⟨hentry, hkey, hholds⟩ := mem_found.1 (h ▸ List.mem_singleton_self e)
  apply SortedMap.ext_entries
  apply List.map_congr_left
  intro other hother
  dsimp only
  by_cases hid : other.1 = e.1
  · rw [if_pos (decide_eq_true hid), SortedMap.entry_eq hother hentry hid, if_pos hkey,
      StoredVersion.settledAt_of_holdsAt hholds]
  · simp only [decide_eq_false hid, Bool.false_eq_true, if_false]
    split
    · rename_i hown
      have hnot : other.2.holdsAt stop.toMillis = false := by
        rw [← Bool.not_eq_true]
        intro hothers
        have hfound := mem_found.2 ⟨hother, hown, hothers⟩
        rw [h, List.mem_singleton] at hfound
        exact hid (congrArg Prod.fst hfound)
      rw [StoredVersion.settledAt_of_not hnot]
    · rfl

-- Under its key each version that held is closed, and under no other key is anything changed.
theorem ofKey_settled (hconforms : ∀ e ∈ versions.entries, l.conforms e.2.record = true)
    (hfits : key.fits l.keyField.type = true) (hback : key.restored.cell = key.cell) (stop : Instant)
    (other : Value) :
    (versions.settled l key stop).ofKey l other =
      if other.cell = key.cell then
        (versions.ofKey l key).map fun e => (e.1, e.2.settledAt stop)
      else versions.ofKey l other := by
  -- No version gets another key.
  have hkeys : ∀ e ∈ versions.entries,
      (if e.2.hasKey l key then e.2.settledAt stop else e.2).hasKey l other = e.2.hasKey l other := by
    intro e he
    split
    · rename_i hkey
      exact StoredVersion.hasKey_settledAt (hconforms e he) hfits hback hkey stop other
    · rfl
  have hfilter : (versions.settled l key stop).ofKey l other = (versions.ofKey l other).map fun e =>
      (e.1, if e.2.hasKey l key then e.2.settledAt stop else e.2) := by
    show List.filter _ (versions.entries.map _) = _
    rw [List.filter_map, ofKey]
    congr 1
    exact List.filter_congr hkeys
  rw [hfilter]
  split
  · rename_i hcell
    rw [ofKey_congr hcell]
    apply List.map_congr_left
    intro e he
    rw [if_pos (List.mem_filter.1 he).2]
  · rename_i hcell
    apply map_eq_self
    intro e he
    have hother := StoredVersion.hasKey_iff.1 (List.mem_filter.1 he).2
    rw [if_neg]
    intro hkey
    exact hcell (hother.symm.trans (StoredVersion.hasKey_iff.1 hkey))

/-! ### A record is reconciled -/

/-- What a reconciliation answers for a record, by the versions that it finds and the number that a new
one gets. -/
def outcome (versions : Versions) (l : Layout) (w : Recorder) (r : Record) (next : Int) :
    Recorder.Reconciliation :=
  match versions.found l (r.valueOrNull l.key) w.time.toMillis with
  | [] => .inserted next
  | e :: _ => if l.samePersisted e.2.record.restored r then .unchanged e.1 else .replaced e.1 next

/-- A reconciliation adds the record. -/
def adds (versions : Versions) (l : Layout) (w : Recorder) (r : Record) : Bool :=
  (versions.outcome l w r 0).wrote

theorem wrote_outcome (next : Int) :
    (versions.outcome l w r next).wrote = versions.adds l w r := by
  unfold adds outcome
  split
  · rfl
  · split <;> rfl

theorem outcome_congr {other : Versions}
    (h : other.ofKey l (r.valueOrNull l.key) = versions.ofKey l (r.valueOrNull l.key)) :
    other.outcome l w r = versions.outcome l w r := by
  funext next
  rw [outcome, outcome, found_eq_filter, found_eq_filter, h]

theorem adds_congr {other : Versions}
    (h : other.ofKey l (r.valueOrNull l.key) = versions.ofKey l (r.valueOrNull l.key)) :
    other.adds l w r = versions.adds l w r := by
  rw [adds, adds, outcome_congr h]

/-- The last number that is given once a record is reconciled. -/
def givenBy (versions : Versions) (l : Layout) (w : Recorder) (r : Record) (given : Nat) : Nat :=
  if versions.adds l w r then given + 1 else given

/-- The versions once a record is reconciled. -/
def after (versions : Versions) (l : Layout) (w : Recorder) (r : Record) (given : Nat) : Versions :=
  if versions.adds l w r then
    (versions.settled l (r.valueOrNull l.key) w.time).insert (given + 1 : Nat)
      ((w.openVersion r).stored l w.time)
  else versions

/-- The versions of the key of a record once it is reconciled, by the number of one that is added. -/
def ofKeyAfter (versions : Versions) (l : Layout) (w : Recorder) (r : Record) (pid : Int) :
    List (Int × StoredVersion) :=
  if versions.adds l w r then
    ((versions.ofKey l (r.valueOrNull l.key)).map fun e => (e.1, e.2.settledAt w.time)) ++
      [(pid, (w.openVersion r).stored l w.time)]
  else versions.ofKey l (r.valueOrNull l.key)

theorem ofKeyAfter_congr {other : Versions}
    (h : other.ofKey l (r.valueOrNull l.key) = versions.ofKey l (r.valueOrNull l.key)) (pid : Int) :
    other.ofKeyAfter l w r pid = versions.ofKeyAfter l w r pid := by
  rw [ofKeyAfter, ofKeyAfter, h, adds_congr h]

theorem le_givenBy (versions : Versions) (l : Layout) (w : Recorder) (r : Record) (given : Nat) :
    given ≤ versions.givenBy l w r given := by
  unfold givenBy
  split <;> omega

theorem after_of_not_adds (h : versions.adds l w r = false) (given : Nat) :
    versions.after l w r given = versions :=
  if_neg (by rw [h]; exact Bool.false_ne_true)

theorem after_of_adds (h : versions.adds l w r = true) (given : Nat) :
    versions.after l w r given = (versions.settled l (r.valueOrNull l.key) w.time).insert
      (given + 1 : Nat) ((w.openVersion r).stored l w.time) :=
  if_pos h

-- What is not added has been found the same.
theorem exists_of_not_adds (h : versions.adds l w r = false) :
    ∃ e rest, versions.found l (r.valueOrNull l.key) w.time.toMillis = e :: rest ∧
      l.samePersisted e.2.record.restored r = true := by
  unfold adds outcome at h
  split at h
  · cases h
  · rename_i e rest hfound
    refine ⟨e, rest, hfound, ?_⟩
    split at h
    · assumption
    · cases h

theorem lt_settled (hnumbered : ∀ e ∈ versions.entries, e.1 ≤ given) {key : Value} {stop : Instant} :
    ∀ e ∈ (versions.settled l key stop).entries, e.1 < (given + 1 : Nat) := by
  intro e he
  obtain ⟨old, hold, rfl⟩ := List.mem_map.1 he
  have := hnumbered old hold
  dsimp only
  omega

end Versions

/-! ## The register -/

namespace Recorded

variable {l : Layout} {db after : Database} {versions : Versions} {given : Nat} {w : Recorder} {r : Record}
  {answer : Recorder.Reconciliation}

theorem conforms (h : Recorded l db versions given) :
    ∀ e ∈ versions.entries, l.conforms e.2.record = true :=
  fun e he => (h.written e he).conforms

-- A reconciliation that succeeds has found at most one version.
theorem length_found_le (h : Recorded l db versions given) (hsense : senseOf l.key = .column)
    (hrun : w.reconcile l r db = (.ok answer, after)) :
    (versions.found l (r.valueOrNull l.key) w.time.toMillis).length ≤ 1 := by
  cases hfetch : w.fetchCurrent l (r.valueOrNull l.key) db with
  | error fault =>
    rw [w.reconcile_eq, hfetch] at hrun
    cases hrun
  | ok found => exact h.length_found_of_fetchAt hsense hfetch

/-- Where a lookup finds at most one version, a reconciliation leaves the database as it is, or it closes
the version that holds, if there is one, and goes on to add the record. -/
theorem reconcile_outcome (h : Recorded l db versions given) (hplain : l.NamesPlain) (w : Recorder)
    (hconforms : l.conforms r = true)
    (hsingle : (versions.found l (r.valueOrNull l.key) w.time.toMillis).length ≤ 1) :
    (versions.outcome l w r (given + 1 : Nat)).wrote = false ∧
        w.reconcile l r db = (.ok (versions.outcome l w r (given + 1 : Nat)), db) ∨
      (versions.outcome l w r (given + 1 : Nat)).wrote = true ∧
        ∃ tell closed, tell ((given + 1 : Nat) : Int) = versions.outcome l w r (given + 1 : Nat) ∧
          Recorded l closed (versions.settled l (r.valueOrNull l.key) w.time) given ∧
          w.reconcile l r db = w.add l r tell closed := by
  rcases hfound : versions.found l (r.valueOrNull l.key) w.time.toMillis with _ | ⟨e, _ | ⟨other, rest⟩⟩
  · have houtcome : versions.outcome l w r (given + 1 : Nat) = .inserted (given + 1 : Nat) := by
      rw [Versions.outcome, hfound]
    rw [houtcome, Versions.settled_eq_self hfound]
    exact .inr ⟨rfl, .inserted, db, rfl, h, h.reconcile_eq_add hplain w hconforms hfound⟩
  · cases hsame : l.samePersisted e.2.record.restored r with
    | true =>
      have houtcome : versions.outcome l w r (given + 1 : Nat) = .unchanged e.1 := by
        rw [Versions.outcome, hfound]
        exact if_pos hsame
      rw [houtcome]
      exact .inl ⟨rfl, h.reconcile_same hplain w hconforms hfound hsame⟩
    | false =>
      have houtcome : versions.outcome l w r (given + 1 : Nat) =
          .replaced e.1 (given + 1 : Nat) := by
        rw [Versions.outcome, hfound]
        exact if_neg (by rw [hsame]; exact Bool.false_ne_true)
      obtain ⟨closed, hclosed, hreconcile⟩ := h.exists_reconcile_eq_add hplain w hconforms hfound hsame
      rw [houtcome, Versions.settled_eq_setOne hfound]
      exact .inr ⟨rfl, .replaced e.1, closed, rfl, hclosed, hreconcile⟩
  · rw [hfound, List.length_cons, List.length_cons] at hsingle
    omega

/-- Where a lookup finds at most one version, a reconciliation does what the versions say, while there
is a number left for a record that is added. -/
theorem exists_reconcile (h : Recorded l db versions given) (hplain : l.NamesPlain)
    (hconforms : l.conforms r = true)
    (hsingle : (versions.found l (r.valueOrNull l.key) w.time.toMillis).length ≤ 1)
    (hroom : (versions.adds l w r = true → given + 1 < 2 ^ 63) ∨
      ∃ answer, (w.reconcile l r db).1 = .ok answer) :
    ∃ after, w.reconcile l r db = (.ok (versions.outcome l w r (given + 1 : Nat)), after) ∧
      Recorded l after (versions.after l w r given) (versions.givenBy l w r given) ∧
      (versions.adds l w r = true → given + 1 < 2 ^ 63) := by
  rcases h.reconcile_outcome hplain w hconforms hsingle with
    ⟨hwrote, hrun⟩ | ⟨hwrote, tell, closed, htell, hclosed, hadd⟩
  · rw [Versions.wrote_outcome] at hwrote
    refine ⟨db, hrun, ?_, fun hadds => ?_⟩
    · rwa [Versions.after_of_not_adds hwrote, Versions.givenBy, hwrote, if_neg Bool.false_ne_true]
    · rw [hwrote] at hadds
      cases hadds
  · rw [Versions.wrote_outcome] at hwrote
    have hroom₁ : given + 1 < 2 ^ 63 := hroom.elim (fun hlt => hlt hwrote) fun ⟨answer, hok⟩ => by
      rw [hadd] at hok
      exact hclosed.room_of_add hok hconforms
    obtain ⟨after, hrun, hafter⟩ := hclosed.add_eq w (.inl hroom₁) hconforms
    refine ⟨after, ?_, ?_, fun _ => hroom₁⟩
    · rw [hadd, hrun, htell]
    · rwa [Versions.after_of_adds hwrote, Versions.givenBy, if_pos hwrote]

theorem ofKey_after (h : Recorded l db versions given) (hconforms : l.conforms r = true)
    (hback : (r.valueOrNull l.key).restored.cell = (r.valueOrNull l.key).cell) :
    (versions.after l w r given).ofKey l (r.valueOrNull l.key) =
      versions.ofKeyAfter l w r (given + 1 : Nat) := by
  cases hadds : versions.adds l w r with
  | false => rw [Versions.after_of_not_adds hadds, Versions.ofKeyAfter, hadds, if_neg Bool.false_ne_true]
  | true =>
    rw [Versions.after_of_adds hadds, Versions.ofKey_insert (Versions.lt_settled h.numbered),
      Versions.ofKey_settled h.conforms (Layout.key_fits hconforms) hback, if_pos rfl,
      StoredVersion.hasKey_opened, if_pos (decide_eq_true rfl), Versions.ofKeyAfter, if_pos hadds]

-- To reconcile a record touches nothing of other keys.
theorem ofKey_after_of_ne (h : Recorded l db versions given) (hconforms : l.conforms r = true)
    (hback : (r.valueOrNull l.key).restored.cell = (r.valueOrNull l.key).cell) {key : Value}
    (hother : key.cell ≠ (r.valueOrNull l.key).cell) :
    (versions.after l w r given).ofKey l key = versions.ofKey l key := by
  cases hadds : versions.adds l w r with
  | false => rw [Versions.after_of_not_adds hadds]
  | true =>
    have hkey : ((w.openVersion r).stored l w.time).hasKey l key = false := by
      rw [StoredVersion.hasKey_opened]
      exact decide_eq_false (Ne.symm hother)
    rw [Versions.after_of_adds hadds,
      Versions.ofKey_insert_of_not (Versions.lt_settled h.numbered) hkey,
      Versions.ofKey_settled h.conforms (Layout.key_fits hconforms) hback, if_neg hother]

end Recorded

end Registry
