import Registry.Proofs.History.Register

/-!
# Holding — the records of a key that hold at a time

A write to a register either ends what its versions say of a key from a time on, or adds a version.
These are the two ways in which the records that hold change.
-/

namespace Registry

namespace StoredVersion

variable {v : StoredVersion} {ms : Int}

theorem holdsAt_closedAt {stop modified : Int} :
    (v.closedAt stop modified).holdsAt ms = true ↔ v.validFrom ≤ ms ∧ ms < stop := by
  rw [holdsAt_iff]
  simp [closedAt]

-- Closing a version that holds on to a time takes away what lies behind it.
theorem holdsAt_closedAt_of_reaches {stop : Int} (h : v.reaches stop = true) (modified : Int) :
    (v.closedAt stop modified).holdsAt ms = true ↔ v.holdsAt ms = true ∧ ¬ stop ≤ ms := by
  rw [holdsAt_closedAt, holdsAt_iff]
  rw [reaches_iff] at h
  constructor
  · rintro ⟨hfrom, hlt⟩
    refine ⟨⟨hfrom, fun s hs => ?_⟩, by omega⟩
    have := h s hs
    omega
  · rintro ⟨⟨hfrom, -⟩, hlt⟩
    exact ⟨hfrom, by omega⟩

theorem not_le_of_not_reaches {stop : Int} (h : ¬ v.reaches stop = true) (hholds : v.holdsAt ms = true) :
    ¬ stop ≤ ms := by
  rw [holdsAt_iff] at hholds
  rw [reaches_iff] at h
  intro hle
  apply h
  intro s hs
  have := hholds.2 s hs
  omega

theorem reaches_of_holdsAt (h : v.holdsAt ms = true) : v.reaches ms = true := by
  rw [holdsAt_iff] at h
  rw [reaches_iff]
  intro s hs
  have := h.2 s hs
  omega

end StoredVersion

namespace Versions

variable {l : Layout} {versions : Versions}

def records (versions : Versions) (l : Layout) (key : Value) (ms : Int) : List Record :=
  (versions.current l key ms).map fun e => e.2.record

-- When versions of a key end at a time, just the records of that key go away from there on.
theorem records_map {change : Int → StoredVersion → StoredVersion} {key : Value} {stop : Int}
    (hrecord : ∀ pid v, (change pid v).record = v.record)
    (hholds : ∀ e ∈ versions.entries, ∀ ms, (change e.1 e.2).holdsAt ms = true ↔
      e.2.holdsAt ms = true ∧ ¬ (e.2.key l = key ∧ stop ≤ ms)) (k : Value) (ms : Int) :
    Versions.records (versions.map change) l k ms =
      if k = key ∧ stop ≤ ms then [] else versions.records l k ms := by
  -- The key of a version is that of its record, which no change touches.
  have hkey : ∀ e : Int × StoredVersion, (change e.1 e.2).key l = e.2.key l := by
    intro e
    rw [StoredVersion.key, hrecord, StoredVersion.key]
  have hfilter : Versions.records (versions.map change) l k ms = (versions.entries.filter fun e =>
      decide (e.2.key l = k) && (change e.1 e.2).holdsAt ms).map fun e => e.2.record := by
    rw [records, current, SortedMap.map, List.filter_map, List.map_map]
    simp only [Function.comp_def, hkey, hrecord]
  rw [hfilter]
  by_cases hgone : k = key ∧ stop ≤ ms
  · rw [if_pos hgone, List.map_eq_nil_iff, List.filter_eq_nil_iff]
    intro e he
    rw [Bool.and_eq_true, decide_eq_true_eq, hholds e he]
    rintro ⟨hk, -, hnot⟩
    exact hnot ⟨hk.trans hgone.1, hgone.2⟩
  · rw [if_neg hgone, records, current]
    congr 1
    apply List.filter_congr
    intro e he
    rw [Bool.eq_iff_iff, Bool.and_eq_true, Bool.and_eq_true, decide_eq_true_eq, hholds e he]
    constructor
    · rintro ⟨hk, hholds, -⟩
      exact ⟨hk, hholds⟩
    · rintro ⟨hk, hholds⟩
      exact ⟨hk, hholds, fun hnot => hgone ⟨hk.symm.trans hnot.1, hnot.2⟩⟩

theorem records_closeKey (key : Value) (stop modified : Int) (k : Value) (ms : Int) :
    Versions.records (versions.closeKey l key stop modified) l k ms =
      if k = key ∧ stop ≤ ms then [] else versions.records l k ms := by
  apply records_map
  · intro _ v
    split <;> rfl
  intro e _ ms
  by_cases hkey : e.2.key l = key
  · by_cases hreaches : e.2.reaches stop = true
    · simp only [hkey, hreaches, decide_true, Bool.and_true, if_true, true_and]
      exact StoredVersion.holdsAt_closedAt_of_reaches hreaches modified
    · simp only [hkey, hreaches, decide_true, Bool.true_and, true_and, Bool.false_eq_true, if_false]
      exact ⟨fun h => ⟨h, StoredVersion.not_le_of_not_reaches hreaches h⟩, fun h => h.1⟩
  · simp [hkey]

-- A version that has begun by a time and holds later holds at that time too.
theorem mem_current_of_le {key : Value} {latest ms : Int} (hle : latest ≤ ms)
    {e : Int × StoredVersion} (he : e ∈ versions.current l key ms)
    (hbegun : e.2.validFrom ≤ latest) : e ∈ versions.current l key latest := by
  obtain ⟨hmem, hkey, hholds⟩ := mem_current.1 he
  rw [StoredVersion.holdsAt_iff] at hholds
  refine mem_current.2 ⟨hmem, hkey, StoredVersion.holdsAt_iff.2 ⟨hbegun, fun s hs => ?_⟩⟩
  have := hholds.2 s hs
  omega

-- Where no version has begun behind a time, closing the only one that holds ends its key there.
theorem records_closeOne {key : Value} {stop : Int} {e : Int × StoredVersion}
    (hcurrent : versions.current l key stop = [e])
    (hbegun : ∀ e ∈ versions.entries, e.2.validFrom ≤ stop) (modified : Int) (k : Value) (ms : Int) :
    Versions.records (versions.closeOne e.1 stop modified) l k ms =
      if k = key ∧ stop ≤ ms then [] else versions.records l k ms := by
  have hmem : e ∈ versions.current l key stop := by
    rw [hcurrent]
    exact List.mem_cons_self ..
  obtain ⟨hentry, hkey, hholds⟩ := mem_current.1 hmem
  apply records_map
  · intro _ v
    split <;> rfl
  intro other hother ms
  by_cases hid : other.1 = e.1
  · have hsame : other.2 = e.2 := by
      have hget := SortedMap.mem_entries_iff.1 hother
      rw [hid, SortedMap.mem_entries_iff.1 hentry] at hget
      exact (Option.some.inj hget).symm
    simp only [hid, decide_true, if_true, hsame, hkey, true_and]
    exact StoredVersion.holdsAt_closedAt_of_reaches (StoredVersion.reaches_of_holdsAt hholds) modified
  · simp only [decide_eq_false hid, Bool.false_eq_true, if_false]
    refine ⟨fun h => ⟨h, ?_⟩, fun h => h.1⟩
    -- A second version of the key would hold at the time of closing too.
    rintro ⟨hk, hle⟩
    have hlater := mem_current_of_le hle (mem_current.2 ⟨hother, hk, h⟩) (hbegun other hother)
    rw [hcurrent, List.mem_singleton] at hlater
    exact hid (by rw [hlater])

end Versions

-- A version under a new number is one more that holds in its time.
theorem Versions.records_insert {versions : Versions} {l : Layout} {pid : Int} {v : StoredVersion}
    (hnew : ∀ e ∈ versions.entries, e.1 < pid) (key : Value) (ms : Int) :
    Versions.records (versions.insert pid v) l key ms =
      versions.records l key ms ++ if v.key l = key ∧ v.holdsAt ms = true then [v.record] else [] := by
  rw [records, current, entries_insert hnew, List.filter_append, List.map_append]
  congr 1
  by_cases hholds : v.key l = key ∧ v.holdsAt ms = true
  · simp [hholds]
  · rw [if_neg hholds, List.map_eq_nil_iff, List.filter_eq_nil_iff]
    intro e he
    rw [List.mem_singleton.1 he, Bool.and_eq_true, decide_eq_true_eq]
    exact hholds

end Registry
