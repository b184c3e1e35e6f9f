import Registry.Proofs.History.Outcome
import Registry.Proofs.History.Redelivery

/-!
# Overlap — when two versions of a key hold at one time

A reconciliation sees only the versions that hold at its own instant.  Where each key is written at
instants that do not go back, the version that holds is always the latest, and no two versions of a key
ever hold at one time.  The first write of a key at an instant before that of an earlier write leaves
two versions without end, and no further reconciliation that succeeds repairs this.
-/

namespace Registry

theorem eq_of_length_le_one {α : Type} {list : List α} (h : list.length ≤ 1) {a b : α} (ha : a ∈ list)
    (hb : b ∈ list) : a = b := by
  obtain ⟨i, hi, rfl⟩ := List.getElem_of_mem ha
  obtain ⟨j, hj, rfl⟩ := List.getElem_of_mem hb
  congr 1
  omega

/-! ## Spans of time -/

/-- The time for which a version holds, in milliseconds. -/
structure Span where
  validFrom : Int
  validTo : Option Int

def StoredVersion.span (v : StoredVersion) : Span := ⟨v.validFrom, v.validTo⟩

namespace Span

variable {s : Span} {ms stop : Int}

def holdsAt (s : Span) (ms : Int) : Bool := s.validFrom ≤ ms && s.validTo.all fun stop => ms < stop

/-- The span after it is closed at a time, if it holds then. -/
def settledAt (s : Span) (stop : Int) : Span :=
  if s.holdsAt stop then { s with validTo := some stop } else s

theorem holdsAt_iff : s.holdsAt ms = true ↔ s.validFrom ≤ ms ∧ ∀ stop ∈ s.validTo, ms < stop := by
  rw [holdsAt, Bool.and_eq_true, decide_eq_true_eq]
  cases s.validTo <;> simp

theorem settledAt_of_holdsAt (h : s.holdsAt stop = true) :
    s.settledAt stop = { s with validTo := some stop } :=
  if_pos h

theorem settledAt_of_not (h : s.holdsAt stop = false) : s.settledAt stop = s :=
  if_neg (by rw [h]; exact Bool.false_ne_true)

-- To close a span takes times from it and gives it none.
theorem holdsAt_of_settledAt (h : (s.settledAt stop).holdsAt ms = true) : s.holdsAt ms = true := by
  cases hholds : s.holdsAt stop with
  | false => rwa [settledAt_of_not hholds] at h
  | true =>
    rw [settledAt_of_holdsAt hholds] at h
    rw [holdsAt_iff] at h hholds ⊢
    refine ⟨h.1, fun end' hend => ?_⟩
    have hlt := h.2 stop rfl
    have hlt' := hholds.2 end' hend
    omega

-- A span without end holds from its beginning on.
theorem holdsAt_of_open (hopen : s.validTo = none) (hle : s.validFrom ≤ ms) : s.holdsAt ms = true := by
  rw [holdsAt_iff, hopen]
  exact ⟨hle, fun end' hend => by cases hend⟩

end Span

/-! ## The spans of one key -/

/-- No two of the spans hold at one time. -/
def Apart (list : List (Int × Span)) : Prop :=
  ∀ a ∈ list, ∀ b ∈ list, ∀ ms, a.2.holdsAt ms = true → b.2.holdsAt ms = true → a = b

/-- One span holds from the latest time on, and the others have ended by then. -/
structure Orderly (list : List (Int × Span)) (latest : Int) : Prop where
  current : ∃ e ∈ list, e.2.validFrom = latest ∧ e.2.validTo = none ∧
    ∀ other ∈ list, other = e ∨ ∃ stop ∈ other.2.validTo, stop ≤ latest
  apart : Apart list

/-- How the spans of a key stand after writes at some times. -/
inductive KeyHistory : List Int → List (Int × Span) → Prop
  | untouched : KeyHistory [] []
  | orderly {times : List Int} {list : List (Int × Span)} (latest : Int) :
      times.Pairwise (· ≤ ·) → latest ∈ times → (∀ time ∈ times, time ≤ latest) →
        Orderly list latest → KeyHistory times list
  | torn {times : List Int} {list : List (Int × Span)} (a b : Int × Span) :
      ¬ times.Pairwise (· ≤ ·) → a ∈ list → b ∈ list → a ≠ b → a.2.validTo = none →
        b.2.validTo = none → KeyHistory times list

/-- The spans of a key after a write at a time. -/
def afterWrite (list : List (Int × Span)) (pid stop : Int) : List (Int × Span) :=
  (list.map fun e => (e.1, e.2.settledAt stop)) ++ [(pid, ⟨stop, none⟩)]

section Write

variable {list : List (Int × Span)} {times : List Int} {stop pid : Int}

-- What is written at the latest time or after it follows all that there is.
theorem Orderly.write {latest : Int} (h : Orderly list latest) (hle : latest ≤ stop) :
    Orderly (afterWrite list pid stop) stop := by
  obtain ⟨e, he, hbegins, hopen, hothers⟩ := h.current
  have hholds : e.2.holdsAt stop = true := Span.holdsAt_of_open hopen (by omega)
  -- The span that held is closed now, and every other one has ended before.
  have hended : ∀ old ∈ list, ∃ s ∈ (old.2.settledAt stop).validTo, s ≤ stop := by
    intro old hold
    cases hnow : old.2.holdsAt stop with
    | true =>
      rw [Span.settledAt_of_holdsAt hnow]
      exact ⟨stop, rfl, Int.le_refl _⟩
    | false =>
      rw [Span.settledAt_of_not hnow]
      rcases hothers old hold with rfl | ⟨s, hs, hsle⟩
      · rw [hholds] at hnow
        cases hnow
      · exact ⟨s, hs, by omega⟩
  have hafter : ∀ old ∈ list, ∀ ms, (old.2.settledAt stop).holdsAt ms = true →
      Span.holdsAt ⟨stop, none⟩ ms = false := by
    intro old hold ms hholds
    obtain ⟨s, hs, hsle⟩ := hended old hold
    rw [← Bool.not_eq_true, Span.holdsAt_iff]
    rintro ⟨hbegun, -⟩
    have := (Span.holdsAt_iff.1 hholds).2 s hs
    dsimp only at hbegun
    omega
  constructor
  · refine ⟨(pid, ⟨stop, none⟩), List.mem_append_right _ (List.mem_singleton_self _), rfl, rfl, ?_⟩
    intro other hother
    rcases List.mem_append.1 hother with hother | hother
    · obtain ⟨old, hold, rfl⟩ := List.mem_map.1 hother
      exact .inr (hended old hold)
    · exact .inl (List.mem_singleton.1 hother)
  · intro a ha b hb ms hams hbms
    rcases List.mem_append.1 ha with ha | ha <;> rcases List.mem_append.1 hb with hb | hb
    · obtain ⟨old, hold, rfl⟩ := List.mem_map.1 ha
      obtain ⟨old', hold', rfl⟩ := List.mem_map.1 hb
      rw [h.apart old hold old' hold' ms (Span.holdsAt_of_settledAt hams)
        (Span.holdsAt_of_settledAt hbms)]
    · obtain ⟨old, hold, rfl⟩ := List.mem_map.1 ha
      rw [List.mem_singleton.1 hb, hafter old hold ms hams] at hbms
      cases hbms
    · obtain ⟨old, hold, rfl⟩ := List.mem_map.1 hb
      rw [List.mem_singleton.1 ha, hafter old hold ms hbms] at hams
      cases hams
    · rw [List.mem_singleton.1 ha, List.mem_singleton.1 hb]

-- A span without end that does not hold at the time of a write is not touched by it.
theorem mem_afterWrite_of_not {e : Int × Span} (he : e ∈ list) (hnot : e.2.holdsAt stop = false) :
    e ∈ afterWrite list pid stop := by
  refine List.mem_append_left _ (List.mem_map.2 ⟨e, he, ?_⟩)
  rw [Span.settledAt_of_not hnot]

theorem KeyHistory.write (h : KeyHistory times list)
    (hsingle : ∀ a ∈ list, ∀ b ∈ list, a.2.holdsAt stop = true → b.2.holdsAt stop = true → a = b)
    (hnew : ∀ e ∈ list, e.1 ≠ pid) : KeyHistory (times ++ [stop]) (afterWrite list pid stop) := by
  have hlast : (pid, ⟨stop, none⟩) ∈ afterWrite list pid stop :=
    List.mem_append_right _ (List.mem_singleton_self _)
  cases h with
  | untouched =>
    refine .orderly stop (List.pairwise_singleton _ _) (List.mem_singleton_self _)
      (fun time htime => ?_) ⟨⟨_, hlast, rfl, rfl, fun other hother => ?_⟩, ?_⟩
    · exact Int.le_of_eq (List.mem_singleton.1 htime)
    · exact .inl (List.mem_singleton.1 hother)
    · intro a ha b hb _ _ _
      rw [List.mem_singleton.1 ha, List.mem_singleton.1 hb]
  | orderly latest hin hmem hlatest horderly =>
    by_cases hle : latest ≤ stop
    · refine .orderly stop ?_ ?_ (fun time htime => ?_) (horderly.write hle)
      · refine List.pairwise_append.2 ⟨hin, List.pairwise_singleton _ _, fun time htime now hnow => ?_⟩
        rw [List.mem_singleton.1 hnow]
        exact Int.le_trans (hlatest time htime) hle
      · exact List.mem_append_right _ (List.mem_singleton_self _)
      · rcases List.mem_append.1 htime with htime | htime
        · exact Int.le_trans (hlatest time htime) hle
        · exact Int.le_of_eq (List.mem_singleton.1 htime)
    · -- The latest span begins only later, so it stays without end beside the new one.
      obtain ⟨e, he, hbegins, hopen, -⟩ := horderly.current
      have hnot : e.2.holdsAt stop = false := by
        rw [← Bool.not_eq_true, Span.holdsAt_iff]
        rintro ⟨hbegun, -⟩
        omega
      refine .torn e (pid, ⟨stop, none⟩) (fun hin' => hle ?_) (mem_afterWrite_of_not he hnot) hlast
        (fun heq => hnew e he (congrArg Prod.fst heq)) hopen rfl
      exact (List.pairwise_append.1 hin').2.2 latest hmem _ (List.mem_singleton_self _)
  | torn a b hout ha hb hne haopen hbopen =>
    have hout' : ¬ (times ++ [stop]).Pairwise (· ≤ ·) :=
      fun hin => hout (List.pairwise_append.1 hin).1
    -- At most one of the two is closed, and then the new span is the second one without end.
    cases hahold : a.2.holdsAt stop with
    | false =>
      exact .torn a (pid, ⟨stop, none⟩) hout' (mem_afterWrite_of_not ha hahold) hlast
        (fun heq => hnew a ha (congrArg Prod.fst heq)) haopen rfl
    | true =>
      have hbhold : b.2.holdsAt stop = false := by
        rw [← Bool.not_eq_true]
        exact fun hbhold => hne (hsingle a ha b hb hahold hbhold)
      exact .torn b (pid, ⟨stop, none⟩) hout' (mem_afterWrite_of_not hb hbhold) hlast
        (fun heq => hnew b hb (congrArg Prod.fst heq)) hbopen rfl

-- Two spans hold at one time just when the writes went back in time.
theorem KeyHistory.apart_iff (h : KeyHistory times list)
    (hrange : ∀ e ∈ list, Instant.MillisInRange e.2.validFrom) :
    (∀ asOf : Instant, ∀ a ∈ list, ∀ b ∈ list, a.2.holdsAt asOf.toMillis = true →
      b.2.holdsAt asOf.toMillis = true → a = b) ↔ times.Pairwise (· ≤ ·) := by
  cases h with
  | untouched => exact ⟨fun _ => .nil, fun _ _ a ha => by cases ha⟩
  | orderly latest hin hmem hlatest horderly =>
    exact ⟨fun _ => hin, fun _ asOf a ha b hb => horderly.apart a ha b hb asOf.toMillis⟩
  | torn a b hout ha hb hne haopen hbopen =>
    refine ⟨fun hapart => absurd ?_ hne, fun hin => absurd hin hout⟩
    -- Both hold from the later of their beginnings on.
    rcases Int.le_total a.2.validFrom b.2.validFrom with hle | hle
    · have hms := Instant.toMillis_ofMillis (hrange b hb)
      exact hapart (.ofMillis b.2.validFrom) a ha b hb
        (Span.holdsAt_of_open haopen (by omega)) (Span.holdsAt_of_open hbopen (by omega))
    · have hms := Instant.toMillis_ofMillis (hrange a ha)
      exact hapart (.ofMillis a.2.validFrom) a ha b hb
        (Span.holdsAt_of_open haopen (by omega)) (Span.holdsAt_of_open hbopen (by omega))

end Write

/-! ## What a reconciliation does to the spans -/

namespace Versions

variable {versions : Versions} {l : Layout} {key : Value} {e : Int × StoredVersion} {v : StoredVersion}

/-- The spans of the versions that are found under a key. -/
def spans (versions : Versions) (l : Layout) (key : Value) : List (Int × Span) :=
  (versions.ofKey l key).map fun e => (e.1, e.2.span)

theorem mem_spans {s : Int × Span} (h : s ∈ versions.spans l key) :
    ∃ e ∈ versions.ofKey l key, s = (e.1, e.2.span) := by
  obtain ⟨e, he, rfl⟩ := List.mem_map.1 h
  exact ⟨e, he, rfl⟩

theorem spans_insert {pid : Int} (hnew : ∀ e ∈ versions.entries, e.1 < pid) (v : StoredVersion) :
    Versions.spans (versions.insert pid v) l key =
      versions.spans l key ++ if v.hasKey l key then [(pid, v.span)] else [] := by
  rw [spans, ofKey_insert hnew, List.map_append, spans]
  cases v.hasKey l key <;> rfl

-- A version that is written over with its key stays in its place among those of the key.
theorem ofKey_setOne (he : e ∈ versions.entries) (hkey : (v.key l).cell = (e.2.key l).cell)
    (key : Value) : (versions.setOne e.1 v).ofKey l key =
      (versions.ofKey l key).map fun o => (o.1, if decide (o.1 = e.1) then v else o.2) := by
  show List.filter _ (versions.entries.map _) = _
  rw [List.filter_map, ofKey]
  congr 1
  apply List.filter_congr
  intro o ho
  rw [Function.comp_def]
  dsimp only
  split
  · rename_i hid
    rw [SortedMap.entry_eq ho he (of_decide_eq_true hid), StoredVersion.hasKey_congr hkey]
  · rfl

-- Where the only version of the key that holds is written over to end it, the spans are settled.
theorem spans_setOne {stop : Int} (hfound : versions.found l key stop = [e])
    (hkey : (v.key l).cell = (e.2.key l).cell) (hspan : v.span = ⟨e.2.validFrom, some stop⟩)
    (other : Value) : (versions.setOne e.1 v).spans l other =
      if key.cell = other.cell then
        (versions.spans l other).map fun s => (s.1, s.2.settledAt stop)
      else versions.spans l other := by
  obtain ⟨hentry, hown, hholds⟩ := mem_found.1 (hfound ▸ List.mem_singleton_self e)
  rw [spans, ofKey_setOne hentry hkey, List.map_map, spans, List.map_map]
  split
  · rename_i hcell
    apply List.map_congr_left
    intro o ho
    obtain ⟨hmem, hokey⟩ := List.mem_filter.1 ho
    rw [Function.comp_def, Function.comp_def]
    dsimp only
    by_cases hid : o.1 = e.1
    · have heq := SortedMap.entry_eq hmem hentry hid
      rw [if_pos (decide_eq_true hid), heq, Span.settledAt_of_holdsAt (s := e.2.span) hholds, hspan]
      rfl
    · have hnot : o.2.span.holdsAt stop = false := by
        rw [← Bool.not_eq_true]
        intro hohold
        have hother : o ∈ versions.found l key stop :=
          mem_found.2 ⟨hmem, StoredVersion.hasKey_iff.2
            ((StoredVersion.hasKey_iff.1 hokey).trans hcell.symm), hohold⟩
        rw [hfound, List.mem_singleton] at hother
        exact hid (congrArg Prod.fst hother)
      rw [if_neg (by rwa [decide_eq_true_eq]), Span.settledAt_of_not hnot]
  · rename_i hcell
    apply List.map_congr_left
    intro o ho
    obtain ⟨hmem, hokey⟩ := List.mem_filter.1 ho
    rw [Function.comp_def]
    dsimp only
    rw [if_neg]
    rw [decide_eq_true_eq]
    intro hid
    rw [SortedMap.entry_eq hmem hentry hid] at hokey
    exact hcell ((StoredVersion.hasKey_iff.1 hown).symm.trans (StoredVersion.hasKey_iff.1 hokey))

-- Where no version of the key holds, there is nothing to settle.
theorem spans_settled {stop : Int} (hfound : versions.found l key stop = []) {other : Value}
    (hcell : key.cell = other.cell) :
    ((versions.spans l other).map fun s => (s.1, s.2.settledAt stop)) = versions.spans l other := by
  rw [found, List.filter_eq_nil_iff] at hfound
  apply map_eq_self
  intro s hs
  obtain ⟨o, ho, rfl⟩ := mem_spans hs
  obtain ⟨hmem, hokey⟩ := List.mem_filter.1 ho
  have hnot := hfound o hmem
  rw [StoredVersion.hasKey_iff.2 ((StoredVersion.hasKey_iff.1 hokey).trans hcell.symm),
    Bool.true_and, Bool.not_eq_true] at hnot
  dsimp only
  rw [Span.settledAt_of_not (s := o.2.span) hnot]

end Versions

theorem Recorder.conforms_of_update {w : Recorder} {l : Layout} {v now : Version} {db after : Database}
    (h : w.update l v db = (.ok now, after)) : l.conforms v.record = true := by
  unfold update at h
  split at h
  · cases h
  · rw [Layout.conforms]
    split at h
    · cases h
    · rename_i hfault
      rw [hfault]
      rfl

namespace Recorded

variable {l : Layout} {db after : Database} {versions : Versions} {given : Nat} {w : Recorder}
  {r : Record} {answer : Recorder.Reconciliation}

/-- The table keeps versions that begin at instants. -/
def InRange (versions : Versions) : Prop :=
  ∀ e ∈ versions.entries, Instant.MillisInRange e.2.validFrom

-- What is read of a version and written again to close it ends the version.
theorem exists_close (h : Recorded l db versions given) (hsense : senseOf l.key = .column)
    {e : Int × StoredVersion} (hentry : e ∈ versions.entries)
    (hrange : Instant.MillisInRange e.2.validFrom) {now : Instant} {read closed : Version}
    (hread : l.readVersion (StoredVersion.answerOf l e.1 (e.2.shownCell now)) = .ok read)
    (hclose : w.update l { read with validTo := some w.time } db = (.ok closed, after)) :
    ∃ v, Recorded l after (versions.setOne e.1 v) given ∧
      v.span = ⟨e.2.validFrom, some w.time.toMillis⟩ ∧ v.key l = (e.2.key l).restored := by
  obtain ⟨t, -, hdesign, -⟩ := h.table
  obtain ⟨record, rfl, hvalues⟩ := StoredVersion.readVersion_shownCell
    (Table.namesApart_of_design hdesign) (h.written e hentry).conforms hread
  have hconforms := Recorder.conforms_of_update hclose
  obtain ⟨after', hafter, hupdate⟩ := h.update_version_eq w (rfl : _ = some e.1) hconforms
  rw [hclose] at hupdate
  cases congrArg Prod.snd hupdate
  refine ⟨_, hafter, ?_, ?_⟩
  · rw [StoredVersion.span, Version.stored]
    dsimp only [StoredVersion.version]
    rw [Instant.toMillis_ofMillis hrange]
    rfl
  · obtain ⟨hmem, hname⟩ := l.keyField_mem
    have hkey := hvalues l.keyField hmem (hname.symm ▸ hsense)
    rw [hname] at hkey
    rw [Version.key_stored]
    exact hkey

-- A record that is added behind versions that have been settled makes the write complete.
theorem spans_of_add {settled : Versions} (h : Recorded l db settled given) (hrange : InRange settled)
    (hspans : ∀ key, settled.spans l key = if (r.valueOrNull l.key).cell = key.cell then
      (versions.spans l key).map fun s => (s.1, s.2.settledAt w.time.toMillis)
      else versions.spans l key)
    {tell : Int → Recorder.Reconciliation} (hwrote : ∀ pid, (tell pid).wrote = true)
    (hconforms : l.conforms r = true) (hrun : w.add l r tell db = (.ok answer, after)) :
    ∃ versions' given', Recorded l after versions' given' ∧ InRange versions' ∧
      ∀ key, versions'.spans l key =
        if answer.wrote && decide ((r.valueOrNull l.key).cell = key.cell) then
          afterWrite (versions.spans l key) (given + 1 : Nat) w.time.toMillis
        else versions.spans l key := by
  rw [w.add_eq] at hrun
  rcases hinsert : w.insertRow l (w.openVersion r) db with ⟨fault | pid, last⟩ <;> rw [hinsert] at hrun
  · cases hrun
  cases hrun
  obtain ⟨-, rfl, hafter⟩ := h.insertRow_eq_ok hconforms hinsert
  refine ⟨_, _, hafter, fun e he => ?_, fun key => ?_⟩
  · rcases SortedMap.mem_insertEntry he with rfl | he
    · exact Instant.inRange_toMillis w.isLeap_time
    · exact hrange e he
  · rw [Versions.spans_insert h.lt_next, hspans, hwrote, Bool.true_and, StoredVersion.hasKey_opened]
    by_cases hcell : (r.valueOrNull l.key).cell = key.cell
    · rw [if_pos hcell, if_pos (decide_eq_true hcell), if_pos (decide_eq_true hcell)]
      rfl
    · rw [if_neg hcell, if_neg (by rwa [decide_eq_true_eq]), if_neg (by rwa [decide_eq_true_eq]),
        List.append_nil]

/-- A reconciliation that succeeds leaves a register in which the spans of each key are those from
before, or those after a write of the key. -/
theorem spans_of_reconcile (h : Recorded l db versions given) (hsense : senseOf l.key = .column)
    (hrange : InRange versions) (hconforms : l.conforms r = true)
    (hback : (r.valueOrNull l.key).restored.cell = (r.valueOrNull l.key).cell)
    (hrun : w.reconcile l r db = (.ok answer, after)) :
    ∃ versions' given', Recorded l after versions' given' ∧ InRange versions' ∧
      ∀ key, versions'.spans l key =
        if answer.wrote && decide ((r.valueOrNull l.key).cell = key.cell) then
          afterWrite (versions.spans l key) (given + 1 : Nat) w.time.toMillis
        else versions.spans l key := by
  rw [w.reconcile_eq] at hrun
  cases hfetch : w.fetchCurrent l (r.valueOrNull l.key) db with
  | error fault =>
    rw [hfetch] at hrun
    cases hrun
  | ok found =>
    rw [hfetch] at hrun
    cases found with
    | none =>
      have hnone := h.found_eq_nil hsense hfetch
      refine h.spans_of_add hrange (fun key => ?_) (fun _ => rfl) hconforms hrun
      split
      · rename_i hcell
        rw [Versions.spans_settled hnone hcell]
      · rfl
    | some existing =>
      obtain ⟨e, hone, hread⟩ := h.exists_of_fetchAt hsense hfetch
      obtain ⟨hentry, hown, -⟩ := Versions.mem_found.1 (hone ▸ List.mem_singleton_self e)
      unfold Recorder.settle at hrun
      dsimp only at hrun
      cases hpid : existing.pid with
      | none =>
        rw [hpid] at hrun
        cases hrun
      | some terminated =>
        simp only [hpid] at hrun
        split at hrun
        · cases hrun
          exact ⟨versions, given, h, hrange, fun key => rfl⟩
        · rcases hclose : w.update l { existing with pid := some terminated, validTo := some w.time } db
            with ⟨fault | closed, middle⟩ <;> rw [hclose] at hrun
          · cases hrun
          · rw [← hpid] at hclose
            obtain ⟨v, hsettled, hspan, hkey⟩ :=
              h.exists_close hsense hentry (hrange e hentry) hread hclose
            have hcells := StoredVersion.hasKey_iff.1 hown
            have hrestored := Value.restored_eq_of_cell_eq
              (Layout.key_fits (h.written e hentry).conforms) (Layout.key_fits hconforms) hcells
            have hcell : (v.key l).cell = (e.2.key l).cell := calc
              (v.key l).cell = (r.valueOrNull l.key).restored.cell := by rw [hkey, ← hrestored]; rfl
              _ = (r.valueOrNull l.key).cell := hback
              _ = (e.2.key l).cell := hcells.symm
            refine hsettled.spans_of_add (fun o ho => ?_) (Versions.spans_setOne hone hcell hspan)
              (fun _ => rfl) hconforms hrun
            obtain ⟨old, hold, rfl⟩ := List.mem_map.1 ho
            dsimp only
            split
            · rw [show v.validFrom = e.2.validFrom from congrArg Span.validFrom hspan]
              exact hrange e hentry
            · exact hrange old hold

end Recorded

/-! ## Any number of reconciliations -/

/-- A reconciliation that succeeded: by which recorder, of which record, and what it answered. -/
structure Told where
  recorder : Recorder
  record : Record
  answer : Recorder.Reconciliation

namespace Layout

/-- The databases after reconciliations of conforming records that have all succeeded, beginning with
one in which the table of the layout has just been created.  What is done besides leaves the table as it
is. -/
inductive Reconciled (l : Layout) : List Told → Database → Prop
  | created {db : Database} : l.Created db → Reconciled l [] db
  | told {log : List Told} {db after : Database} (s : Told) :
      Reconciled l log db → l.conforms s.record = true →
        s.recorder.reconcile l s.record db = (.ok s.answer, after) → Reconciled l (log ++ [s]) after
  | elsewhere {log : List Told} {db after : Database} :
      Reconciled l log db → after.table? l.table = db.table? l.table → Reconciled l log after

/-- The reconciliation has added a version under a key. -/
def writes (l : Layout) (key : Value) (s : Told) : Bool :=
  s.answer.wrote && decide ((s.record.valueOrNull l.key).cell = key.cell)

/-- The times at which versions were added under a key, in milliseconds. -/
def writeTimes (l : Layout) (key : Value) (log : List Told) : List Int :=
  (log.filter (l.writes key)).map fun s => s.recorder.time.toMillis

theorem writeTimes_append (l : Layout) (key : Value) (log : List Told) (s : Told) :
    l.writeTimes key (log ++ [s]) = l.writeTimes key log ++
      if l.writes key s then [s.recorder.time.toMillis] else [] := by
  rw [writeTimes, List.filter_append, List.map_append, writeTimes]
  cases hwrites : l.writes key s <;> simp [hwrites]

end Layout

/-- The table keeps versions that have come about under each key by the writes of the key. -/
structure Tracked (l : Layout) (log : List Told) (db : Database) (versions : Versions) (given : Nat) :
    Prop where
  recorded : Recorded l db versions given
  range : Recorded.InRange versions
  history : ∀ key, KeyHistory (l.writeTimes key log) (versions.spans l key)

namespace Tracked

variable {l : Layout} {log : List Told} {db after : Database} {versions : Versions} {given : Nat}

theorem told (h : Tracked l log db versions given) (hsense : senseOf l.key = .column) {s : Told}
    (hconforms : l.conforms s.record = true)
    (hback : (s.record.valueOrNull l.key).restored.cell = (s.record.valueOrNull l.key).cell)
    (hrun : s.recorder.reconcile l s.record db = (.ok s.answer, after)) :
    ∃ versions' given', Tracked l (log ++ [s]) after versions' given' := by
  obtain ⟨w, r, answer⟩ := s
  dsimp only at hconforms hback hrun
  have hsingle := h.recorded.length_found_le hsense hrun
  obtain ⟨versions', given', hafter, hrange, hspans⟩ :=
    h.recorded.spans_of_reconcile hsense h.range hconforms hback hrun
  refine ⟨versions', given', hafter, hrange, fun key => ?_⟩
  rw [l.writeTimes_append, hspans, Layout.writes]
  dsimp only
  split
  · rename_i hwrites
    have hcell := of_decide_eq_true (Bool.and_eq_true_iff.1 hwrites).2
    refine (h.history key).write ?_ fun s hs => ?_
    · -- The versions that hold at the time of the write are those that its lookup has found.
      intro a ha b hb hahold hbhold
      obtain ⟨e, he, rfl⟩ := Versions.mem_spans ha
      obtain ⟨e', he', rfl⟩ := Versions.mem_spans hb
      rw [Versions.found_eq_filter, Versions.ofKey_congr hcell] at hsingle
      rw [eq_of_length_le_one hsingle (List.mem_filter.2 ⟨he, hahold⟩) (List.mem_filter.2 ⟨he', hbhold⟩)]
    · obtain ⟨e, he, rfl⟩ := Versions.mem_spans hs
      have := h.recorded.lt_next e (List.mem_filter.1 he).1
      dsimp only
      omega
  · rw [List.append_nil]
    exact h.history key

end Tracked

theorem Layout.Reconciled.tracked {l : Layout} {log : List Told} {db : Database}
    (h : l.Reconciled log db) (hsense : senseOf l.key = .column)
    (hback : ∀ s ∈ log,
      (s.record.valueOrNull l.key).restored.cell = (s.record.valueOrNull l.key).cell) :
    ∃ versions given, Tracked l log db versions given := by
  induction h with
  | created hcreated =>
    exact ⟨_, _, hcreated.recorded, (fun _ he => by cases he), fun _ => .untouched⟩
  | told s hbefore hconforms hrun ih =>
    obtain ⟨versions, given, htracked⟩ := ih fun s hs => hback s (List.mem_append_left _ hs)
    exact htracked.told hsense hconforms
      (hback s (List.mem_append_right _ (List.mem_singleton_self s))) hrun
  | elsewhere _ hsame ih =>
    obtain ⟨versions, given, htracked⟩ := ih hback
    exact ⟨versions, given, htracked.recorded.congr hsame, htracked.range, htracked.history⟩

/-! ## Rows and lookups -/

/-- The row is one of a version that holds at an instant. -/
def Table.rowHolds (t : Table) (asOf : Instant) (row : Int × Cells) : Bool :=
  Condition.allHold t [.atMost validFromColumn asOf.cell, .nullOrAbove validToColumn asOf.cell]
    row.1 row.2

/-- No two rows of one key hold at any instant. -/
def Table.KeysApart (l : Layout) (t : Table) : Prop :=
  ∀ asOf : Instant, ∀ a ∈ t.rows.entries, ∀ b ∈ t.rows.entries,
    t.read a.1 a.2 l.key = t.read b.1 b.2 l.key → t.rowHolds asOf a = true →
      t.rowHolds asOf b = true → a = b

/-- No two versions of one key hold at any instant. -/
def Versions.KeysApart (l : Layout) (versions : Versions) : Prop :=
  ∀ (key : Value) (asOf : Instant), ∀ a ∈ versions.ofKey l key, ∀ b ∈ versions.ofKey l key,
    a.2.holdsAt asOf.toMillis = true → b.2.holdsAt asOf.toMillis = true → a = b

namespace Recorded

variable {l : Layout} {db : Database} {versions : Versions} {given : Nat} {t : Table}

theorem rowHolds_cells (hdesign : t.toTableDesign = l.design) (asOf : Instant)
    (e : Int × StoredVersion) :
    t.rowHolds asOf (e.1, e.2.cells l) = e.2.holdsAt asOf.toMillis := by
  simp only [Table.rowHolds, Condition.allHold, List.all_cons, List.all_nil, Bool.and_true,
    Table.holds_validFrom hdesign, Table.holds_above hdesign, StoredVersion.holdsAt]

theorem keysApart_iff (hdesign : t.toTableDesign = l.design) (hrows : t.rows = Table.rowsOf l versions) :
    t.KeysApart l ↔ versions.KeysApart l := by
  have hkey : ∀ e : Int × StoredVersion, t.read e.1 (e.2.cells l) l.key = (e.2.key l).cell :=
    fun e => Table.read_key hdesign e.1 e.2
  have hrow : ∀ e ∈ versions.entries, (e.1, e.2.cells l) ∈ t.rows.entries := by
    intro e he
    rw [hrows]
    exact List.mem_map.2 ⟨e, he, rfl⟩
  constructor
  · intro hapart key asOf a ha b hb hahold hbhold
    obtain ⟨haentry, hakey⟩ := List.mem_filter.1 ha
    obtain ⟨hbentry, hbkey⟩ := List.mem_filter.1 hb
    have hsame := hapart asOf _ (hrow a haentry) _ (hrow b hbentry)
      (by rw [hkey, hkey, StoredVersion.hasKey_iff.1 hakey, StoredVersion.hasKey_iff.1 hbkey])
      (by rwa [rowHolds_cells hdesign]) (by rwa [rowHolds_cells hdesign])
    exact SortedMap.entry_eq haentry hbentry (Prod.ext_iff.1 hsame).1
  · intro hapart asOf a ha b hb hsame hahold hbhold
    rw [hrows] at ha hb
    obtain ⟨e, he, rfl⟩ := List.mem_map.1 ha
    obtain ⟨e', he', rfl⟩ := List.mem_map.1 hb
    rw [hkey, hkey] at hsame
    rw [rowHolds_cells hdesign] at hahold hbhold
    rw [hapart (e.2.key l) asOf e (List.mem_filter.2 ⟨he, e.2.hasKey_key l⟩) e'
      (List.mem_filter.2 ⟨he', StoredVersion.hasKey_iff.2 hsame.symm⟩) hahold hbhold]

-- Two versions of a key hold at one instant just where two of its spans do.
theorem keysApart_iff_spans : versions.KeysApart l ↔ ∀ (key : Value) (asOf : Instant),
    ∀ a ∈ versions.spans l key, ∀ b ∈ versions.spans l key, a.2.holdsAt asOf.toMillis = true →
      b.2.holdsAt asOf.toMillis = true → a = b := by
  constructor
  · intro hapart key asOf a ha b hb hahold hbhold
    obtain ⟨e, he, rfl⟩ := Versions.mem_spans ha
    obtain ⟨e', he', rfl⟩ := Versions.mem_spans hb
    rw [hapart key asOf e he e' he' hahold hbhold]
  · intro hapart key asOf a ha b hb hahold hbhold
    have hsame := hapart key asOf _ (List.mem_map_of_mem ha) _ (List.mem_map_of_mem hb) hahold hbhold
    exact SortedMap.entry_eq (List.mem_filter.1 ha).1 (List.mem_filter.1 hb).1 (Prod.ext_iff.1 hsame).1

-- A lookup that finds one version at most does not answer that there are several.
theorem fetchAt_ne_several (h : Recorded l db versions given) (hsense : senseOf l.key = .column)
    {key : Value} {asOf : Instant} (hlength : (versions.found l key asOf.toMillis).length ≤ 1)
    (count : Nat) :
    Recorder.fetchAt l key asOf db ≠ .error (.severalCurrent l.table l.key key.display count) := by
  intro hfetch
  by_cases hfits : key.fits l.keyField.type = true
  case neg =>
    rw [Recorder.fetchAt_of_not_fits hfits] at hfetch
    cases hfetch
  have hrows := h.validRows_eq hsense hfits asOf
  cases hquery : l.queryFault? with
  | some fault =>
    rw [hquery] at hrows
    rw [Recorder.fetchAt_of_fault hfits hrows] at hfetch
    cases hfetch
  | none =>
    rw [hquery] at hrows
    rw [Recorder.fetchAt_of_validRows hfits hrows] at hfetch
    rcases hfound : versions.found l key asOf.toMillis with _ | ⟨e, _ | ⟨other, rest⟩⟩
    · rw [hfound] at hfetch
      cases hfetch
    · rw [hfound, List.map_singleton, Recorder.onlyVersion] at hfetch
      cases hread : l.readVersion (StoredVersion.answerOf l e.1 (e.2.shownCell db.clock)) with
      | error fault =>
        rw [hread] at hfetch
        cases hfetch
        cases isUnreadable_of_readVersion hread
      | ok v =>
        rw [hread] at hfetch
        cases hfetch
    · rw [hfound] at hlength
      exact absurd hlength (by simp)

-- A lookup answers with the fault of several versions just where two of a key hold.
theorem keysApart_iff_fetchAt (h : Recorded l db versions given) (hsense : senseOf l.key = .column)
    (hquery : l.queryFault? = none) :
    versions.KeysApart l ↔ ∀ (key : Value) (asOf : Instant) (count : Nat),
      Recorder.fetchAt l key asOf db ≠ .error (.severalCurrent l.table l.key key.display count) := by
  constructor
  · intro hapart key asOf
    apply h.fetchAt_ne_several hsense
    rcases hfound : versions.found l key asOf.toMillis with _ | ⟨a, _ | ⟨b, rest⟩⟩
    · exact Nat.zero_le 1
    · exact Nat.le_refl 1
    · have ha := Versions.mem_found.1 (hfound ▸ List.mem_cons_self ..)
      have hb := Versions.mem_found.1 (hfound ▸ List.mem_cons_of_mem a (List.mem_cons_self ..))
      have hsame := hapart key asOf a (List.mem_filter.2 ⟨ha.1, ha.2.1⟩) b
        (List.mem_filter.2 ⟨hb.1, hb.2.1⟩) ha.2.2 hb.2.2
      -- the versions that are found have ascending numbers
      have hascending : (versions.found l key asOf.toMillis).Pairwise fun x y => x.1 < y.1 :=
        versions.ascending.sublist List.filter_sublist
      rw [hfound, List.pairwise_cons] at hascending
      have := hascending.1 b (List.mem_cons_self ..)
      rw [hsame] at this
      omega
  · intro hlookup key asOf a ha b hb hahold hbhold
    obtain ⟨haentry, hakey⟩ := List.mem_filter.1 ha
    obtain ⟨hbentry, hbkey⟩ := List.mem_filter.1 hb
    have hfits : (a.2.key l).fits l.keyField.type = true :=
      Layout.key_fits (h.written a haentry).conforms
    have hamem : a ∈ versions.found l (a.2.key l) asOf.toMillis :=
      Versions.mem_found.2 ⟨haentry, a.2.hasKey_key l, hahold⟩
    have hbmem : b ∈ versions.found l (a.2.key l) asOf.toMillis :=
      Versions.mem_found.2 ⟨hbentry, StoredVersion.hasKey_iff.2
        ((StoredVersion.hasKey_iff.1 hbkey).trans (StoredVersion.hasKey_iff.1 hakey).symm), hbhold⟩
    cases hfound : versions.found l (a.2.key l) asOf.toMillis with
    | nil =>
      rw [hfound] at hamem
      cases hamem
    | cons e rest =>
      cases rest with
      | nil =>
        rw [hfound] at hamem hbmem
        rw [List.mem_singleton.1 hamem, List.mem_singleton.1 hbmem]
      | cons other rest => exact absurd (h.fetchAt_several hsense hquery hfits hfound) (hlookup _ _ _)

end Recorded

-- Where lookups are not understood, no reconciliation succeeds.
theorem Layout.Reconciled.log_eq_nil {l : Layout} {log : List Told} {db : Database}
    (h : l.Reconciled log db) (hsense : senseOf l.key = .column) {fault : DatabaseFault}
    (hquery : l.queryFault? = some fault) :
    log = [] ∧ Recorded l db .empty 0 := by
  induction h with
  | created hcreated => exact ⟨rfl, hcreated.recorded⟩
  | @told log db after s hbefore hconforms hrun ih =>
    cases hfetch : s.recorder.fetchCurrent l (s.record.valueOrNull l.key) db with
    | error fault =>
      rw [s.recorder.reconcile_eq, hfetch] at hrun
      cases hrun
    | ok found =>
      rw [ih.2.queryFault?_of_fetchAt hsense hfetch] at hquery
      cases hquery
  | elsewhere _ hsame ih => exact ⟨ih.1, ih.2.congr hsame⟩

/-- After any reconciliations of conforming records that have all succeeded, on a table that was empty
before and whose key is read as a column, and of keys that come back in the cell in which they were
stored, which are all but the leap second at the end of the last second: no two rows of a key hold at one
instant just when no lookup of a key finds several versions, and both just when the times at which
versions of a key were added never go back. -/
theorem keysApart_iff_writeTimes {l : Layout} {log : List Told} {db : Database}
    (h : l.Reconciled log db) (hsense : senseOf l.key = .column)
    (hback : ∀ s ∈ log,
      (s.record.valueOrNull l.key).restored.cell = (s.record.valueOrNull l.key).cell) :
    ∃ t, db.table? l.table = some t ∧
      (t.KeysApart l ↔ ∀ (key : Value) (asOf : Instant) (count : Nat),
        Recorder.fetchAt l key asOf db ≠
          .error (.severalCurrent l.table l.key key.display count)) ∧
      (t.KeysApart l ↔ ∀ key, (l.writeTimes key log).Pairwise (· ≤ ·)) := by
  obtain ⟨versions, given, htracked⟩ := h.tracked hsense hback
  obtain ⟨t, htable, hdesign, hrows, -⟩ := htracked.recorded.table
  have hversions := Recorded.keysApart_iff hdesign hrows
  have htimes : versions.KeysApart l ↔ ∀ key, (l.writeTimes key log).Pairwise (· ≤ ·) := by
    refine Recorded.keysApart_iff_spans.trans (forall_congr' fun key => ?_)
    refine (htracked.history key).apart_iff fun s hs => ?_
    obtain ⟨e, he, rfl⟩ := Versions.mem_spans hs
    exact htracked.range e (List.mem_filter.1 he).1
  refine ⟨t, htable, hversions.trans ?_, hversions.trans htimes⟩
  cases hquery : l.queryFault? with
  | none => exact htracked.recorded.keysApart_iff_fetchAt hsense hquery
  | some fault =>
    -- nothing was written, and nothing is found
    obtain ⟨hlog, hempty⟩ := h.log_eq_nil hsense hquery
    exact iff_of_true (htimes.2 fun key => by rw [hlog]; exact .nil) fun key asOf =>
      hempty.fetchAt_ne_several hsense (Nat.zero_le 1)

/-! ### A small register -/

/-- The event, as it is told for the first time, two seconds after the epoch. -/
def firstTold : Told := ⟨.pinnedAt (.ofMillis 2000), event lastOf2016, .inserted 1⟩

/-- The event is corrected a second later. -/
def toldLater : Told := ⟨.pinnedAt (.ofMillis 3000), event (.ofMillis 0), .replaced 1 2⟩

/-- The event is told again at an instant before the first time. -/
def toldEarlier : Told := ⟨.pinnedAt (.ofMillis 1000), event lastOf2016, .inserted 2⟩

/-- The register of events after some of them have been told. -/
def eventsTold (log : List Told) : Database :=
  log.foldl (fun db s => (s.recorder.reconcile eventLayout s.record db).2)
    (eventLayout.createTable .empty).2

theorem reconciled_firstTold : eventLayout.Reconciled [firstTold] (eventsTold [firstTold]) :=
  .told firstTold (.created eventLayout_created) (by decide +kernel) (Prod.ext (by decide +kernel) rfl)

theorem reconciled_toldLater :
    eventLayout.Reconciled [firstTold, toldLater] (eventsTold [firstTold, toldLater]) :=
  .told toldLater reconciled_firstTold (by decide +kernel) (Prod.ext (by decide +kernel) rfl)

theorem reconciled_toldEarlier :
    eventLayout.Reconciled [firstTold, toldEarlier] (eventsTold [firstTold, toldEarlier]) :=
  .told toldEarlier reconciled_firstTold (by decide +kernel) (Prod.ext (by decide +kernel) rfl)

theorem keysApart_toldLater :
    ∃ t, (eventsTold [firstTold, toldLater]).table? "event" = some t ∧ t.KeysApart eventLayout := by
  obtain ⟨t, htable, -, hapart⟩ :=
    keysApart_iff_writeTimes reconciled_toldLater eventLayout_plain.key (by decide +kernel)
  refine ⟨t, htable, hapart.2 fun key => ?_⟩
  exact List.Pairwise.sublist (List.filter_sublist.map _)
    (by decide +kernel :
      ([firstTold, toldLater].map fun s => s.recorder.time.toMillis).Pairwise (· ≤ ·))

-- What is told before the first time is added beside it, and from the first time on both hold.
theorem not_keysApart_toldEarlier :
    eventLayout.Reconciled [firstTold, toldEarlier] (eventsTold [firstTold, toldEarlier]) ∧
      (∃ t, (eventsTold [firstTold, toldEarlier]).table? "event" = some t ∧
        ¬ t.KeysApart eventLayout) ∧
      Recorder.fetchAt eventLayout (.text "boot") (.ofMillis 2000) (eventsTold [firstTold, toldEarlier]) =
        .error (.severalCurrent "event" "name" (Value.text "boot").display 2) := by
  have hfetch : Recorder.fetchAt eventLayout (.text "boot") (.ofMillis 2000)
      (eventsTold [firstTold, toldEarlier]) =
        .error (.severalCurrent "event" "name" (Value.text "boot").display 2) := by
    decide +kernel
  obtain ⟨versions, given, htracked⟩ :=
    reconciled_toldEarlier.tracked eventLayout_plain.key (by decide +kernel)
  obtain ⟨t, htable, hdesign, hrows, -⟩ := htracked.recorded.table
  refine ⟨reconciled_toldEarlier, ⟨t, htable, fun hapart => ?_⟩, hfetch⟩
  rw [Recorded.keysApart_iff hdesign hrows,
    htracked.recorded.keysApart_iff_fetchAt eventLayout_plain.key eventLayout_plain.queryFault?] at hapart
  exact hapart (.text "boot") (.ofMillis 2000) 2 hfetch

end Registry
