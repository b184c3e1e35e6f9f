import Registry.Proofs.Files.Subdirectories
import Registry.Proofs.Inbox.Gate
import Registry.Proofs.Inbox.Glance

/-!
# Stability — the verdict on a data set, from all that was seen of it

The calls of an inbox tell glances at each of its data sets, and the sample that the inbox keeps
remembers them.  So a scan finds a data set stable just when its size has stood still for the period
in all glances since one of them, whatever has been looked at, passed and forgotten before.

The size that an inbox keeps has 64 bits.  Files may be larger together, and then what an inbox sees of
their size is not what it is.
-/

namespace Registry

/-! ## Spans -/

-- No two instants lie so far apart that the longest span is of matter.
theorem nanosSince_lt_longestSpan {later earlier : Instant} (hl : later.isLeap = false)
    (he : earlier.isLeap = false) : later.nanosSince earlier < longestSpan := by
  refine Int.lt_trans (Instant.nanosSince_lt hl he) ?_
  decide

theorem boundedSpan_le_iff {later earlier : Instant} (hl : later.isLeap = false)
    (he : earlier.isLeap = false) (nanos : Nat) :
    (boundedSpan nanos : Int) ≤ later.nanosSince earlier ↔ (nanos : Int) ≤ later.nanosSince earlier := by
  have hlt := nanosSince_lt_longestSpan hl he
  unfold boundedSpan
  omega

/-! ## What a scan does to the samples -/

namespace Scan

variable {period : Nat} {now : Instant} {measure : String → Except InboxFault (Option UInt64)}

/-- The sample of a data set after a look at it. -/
def sampled (now : Instant) (sample : Option Sample) : Except InboxFault (Option UInt64) → Option Sample
  | .ok (some size) => some (Sample.seen size now sample)
  | _ => none

theorem get?_step_self (s : Scan) (name : String) (size : Option UInt64) :
    (s.step period now name size).samples.get? name = sampled now (s.samples.get? name) (.ok size) := by
  cases size with
  | none =>
    show (s.samples.erase name).get? name = _
    rw [SortedMap.get?_erase, if_pos rfl]
    rfl
  | some size =>
    show (s.samples.insert name _).get? name = _
    rw [SortedMap.get?_insert, if_pos rfl]
    rfl

theorem measure_ne_error {names : List String} {s s' : Scan}
    (hrun : s.run period now measure names = (.ok (), s')) {name : String} (hname : name ∈ names)
    (fault : InboxFault) : measure name ≠ .error fault := by
  induction names generalizing s with
  | nil => cases hname
  | cons first rest ih =>
    intro hfault
    rw [run] at hrun
    cases hmeasure : measure first with
    | error cause =>
      rw [hmeasure] at hrun
      cases hrun
    | ok size =>
      rw [hmeasure] at hrun
      rcases List.mem_cons.1 hname with rfl | hname
      · rw [hmeasure] at hfault
        cases hfault
      · exact ih hrun hname hfault

-- A whole scan looks at each of its data sets once and at nothing else.
theorem run_samples {names : List String} (hnodup : names.Nodup) {s s' : Scan}
    (hrun : s.run period now measure names = (.ok (), s')) (name : String) :
    s'.samples.get? name =
      if name ∈ names then sampled now (s.samples.get? name) (measure name) else s.samples.get? name := by
  induction names generalizing s with
  | nil =>
    cases hrun
    simp
  | cons first rest ih =>
    obtain ⟨hfresh, hrest⟩ := List.nodup_cons.1 hnodup
    rw [run] at hrun
    cases hmeasure : measure first with
    | error fault =>
      rw [hmeasure] at hrun
      cases hrun
    | ok size =>
      rw [hmeasure] at hrun
      rw [ih hrest hrun]
      by_cases hname : name = first
      · subst hname
        rw [if_neg hfresh, if_pos (List.mem_cons_self ..), get?_step_self, hmeasure]
      · rw [get?_step s hname]
        simp only [List.mem_cons, hname, false_or]

end Scan

namespace Inbox

/-! ## Calls -/

/-- A call of an inbox, with the tree that is there then. -/
inductive Call where
  | update (t : Tree) (meanwhile : String → Tree) (now : Instant)
  | advance (t : Tree)

namespace Call

def run (b : Inbox) : Call → Except InboxFault Inbox
  | update t meanwhile now =>
    match b.updateDuring t meanwhile now with
    | (.error fault, _) => .error fault
    | (.ok (), after) => .ok after
  | advance t =>
    match b.advance t none with
    | (.error fault, _, _) => .error fault
    | (.ok (), after, _) => .ok after

/-- The reading of the clock that a call takes. -/
def reading? : Call → Option Instant
  | update _ _ now => some now
  | advance _ => none

/-- What a call tells of a data set: its size, where it is looked at, or that it is gone, where it is
passed or has gone just before the look at it. -/
def glance? (b : Inbox) (name : String) : Call → Option (Glance UInt64)
  | update t meanwhile now =>
    match b.dataSets t with
    | .error _ => none
    | .ok names =>
      if name ∈ names then
        match b.measure (meanwhile name) name with
        | .ok (some size) => some (.seen size now)
        | .ok none => some .gone
        | .error _ => none
      else none
  | advance _ => if b.ready.head? = some name then some .gone else none

end Call

/-- The inbox after calls one behind the other, if all of them succeed. -/
def runAll : List Call → Inbox → Except InboxFault Inbox
  | [], b => .ok b
  | c :: rest, b =>
    match c.run b with
    | .error fault => .error fault
    | .ok b => runAll rest b

/-- All that such calls tell of a data set. -/
def glances (name : String) : List Call → Inbox → List (Glance UInt64)
  | [], _ => []
  | c :: rest, b =>
    (c.glance? b name).toList ++
      match c.run b with
      | .error _ => []
      | .ok b => glances name rest b

/-- The number of bytes of all files of a data set, if it is there. -/
def total? (b : Inbox) (t : Tree) (name : String) : Option Nat :=
  match t.find .following (b.path ++ [name]) with
  | .ok (here, _) => some (t.totalBelow here)
  | .error _ => none

/-- What there is to be told of a data set in a call: the number of its bytes, where the glance tells its
size. -/
def Call.sight? (b : Inbox) (name : String) : Call → Option (Glance Nat)
  | update t meanwhile now =>
    match b.dataSets t with
    | .error _ => none
    | .ok names =>
      if name ∈ names then
        match b.measure (meanwhile name) name with
        | .ok (some _) => (b.total? (meanwhile name) name).map (.seen · now)
        | .ok none => some .gone
        | .error _ => none
      else none
  | advance _ => if b.ready.head? = some name then some .gone else none

/-- All that there is to be told of a data set in calls one behind the other. -/
def sights (name : String) : List Call → Inbox → List (Glance Nat)
  | [], _ => []
  | c :: rest, b =>
    (c.sight? b name).toList ++
      match c.run b with
      | .error _ => []
      | .ok b => sights name rest b

theorem measure_eq_total {b : Inbox} {t : Tree} {name : String} {size : UInt64}
    (h : b.measure t name = .ok (some size)) :
    ∃ total, b.total? t name = some total ∧ size = .ofNat total := by
  unfold measure at h
  split at h
  · cases h
  · cases h
  · rename_i here entry hfind
    cases h
    exact ⟨_, by rw [total?, hfind], Tree.sizeBelow_eq _ _⟩

theorem measure_eq_ok_of_total {b : Inbox} {t : Tree} {name : String} {total : Nat}
    (h : b.total? t name = some total) : b.measure t name = .ok (some (.ofNat total)) := by
  unfold total? at h
  split at h
  · rename_i here entry hfind
    cases h
    rw [measure, hfind, ← Tree.sizeBelow_eq]
  · cases h

-- A glance tells of the bytes what 64 bits hold of their number.
theorem Call.glance?_eq (c : Call) (b : Inbox) (name : String) :
    c.glance? b name = (c.sight? b name).map (Glance.map .ofNat) := by
  cases c with
  | advance t =>
    unfold glance? sight?
    dsimp only
    split <;> rfl
  | update t meanwhile now =>
    unfold glance? sight?
    dsimp only
    split
    · rfl
    split
    · rcases hmeasure : b.measure (meanwhile name) name with fault | _ | size
      · rfl
      · rfl
      · obtain ⟨total, htotal, rfl⟩ := measure_eq_total hmeasure
        dsimp only
        rw [htotal]
        rfl
    · rfl

theorem glances_eq (name : String) (calls : List Call) (b : Inbox) :
    glances name calls b = (sights name calls b).map (Glance.map .ofNat) := by
  induction calls generalizing b with
  | nil => rfl
  | cons c rest ih =>
    rw [glances, sights, List.map_append, c.glance?_eq]
    congr 1
    · cases c.sight? b name <;> rfl
    · cases c.run b with
      | error fault => rfl
      | ok b => exact ih b

/-- The verdict of a scan now on a data set. -/
def findsStable (b : Inbox) (meanwhile : String → Tree) (now : Instant) (name : String) : Bool :=
  Scan.judges b.period now ((b.samples.purged b.expiry now).get? name) (b.measure (meanwhile name) name)

theorem run_update_eq_ok {b after : Inbox} {t : Tree} {meanwhile : String → Tree} {now : Instant} :
    (Call.update t meanwhile now).run b = .ok after ↔ b.updateDuring t meanwhile now = (.ok (), after) := by
  unfold Call.run
  rcases hupdate : b.updateDuring t meanwhile now with ⟨fault | _, left⟩ <;> simp [hupdate]

-- A step past a data set forgets its sample and no other.
theorem exists_head_of_advance {b after : Inbox} {t : Tree} (h : (Call.advance t).run b = .ok after) :
    ∃ head rest, b.ready = head :: rest ∧
      after = { b with ready := rest, samples := b.samples.erase head } := by
  unfold Call.run advance at h
  dsimp only at h
  by_cases hlocked : b.isLocked t = true
  · rw [if_pos hlocked] at h
    cases h
  rw [if_neg hlocked] at h
  cases hready : b.ready with
  | nil =>
    rw [hready] at h
    cases h
  | cons head rest =>
    refine ⟨head, rest, rfl, ?_⟩
    rw [hready] at h
    dsimp only at h
    rcases hremove : t.removeDirectory none (b.path ++ [head]) with ⟨fault | _, left⟩ <;>
      rw [hremove] at h
    · cases fault <;> first
        | (cases h; rfl)
        | cases h
    · cases h
      rfl

/-! ## What a call preserves -/

/-- The samples of the inbox remember the glances at every data set, which came in the order of
time. -/
structure RemembersAll (period expiry : Nat) (seen : String → List (Glance UInt64)) (latest : Instant)
    (b : Inbox) : Prop where
  period_eq : b.period = boundedSpan period
  expiry_eq : b.expiry = boundedSpan expiry
  ordered : ∀ name, Glance.InOrder (seen name) latest
  remembers : ∀ name, Glance.Remembers expiry (seen name) latest (b.samples.get? name)

namespace RemembersAll

variable {period expiry : Nat} {seen : String → List (Glance UInt64)} {latest now : Instant} {b after : Inbox}

theorem isFresh_and_remembers (h : RemembersAll period expiry seen latest b) (hle : latest ≤ now)
    (hplain : now.isLeap = false) (name : String) :
    Glance.Remembers expiry (seen name) now ((b.samples.purged b.expiry now).get? name) ∧
      Glance.Remembers.IsFresh expiry now ((b.samples.purged b.expiry now).get? name) := by
  have hordered := (h.ordered name).mono hle hplain
  have hremembers := (h.remembers name).mono hle
  -- The bounded expiry purges what the whole expiry does, as the last glance is no leap second.
  have hpurged : (b.samples.purged b.expiry now).get? name =
      (b.samples.get? name).filter fun s => Glance.Near expiry s.lastSeen now := by
    rw [Samples.purged, SortedMap.get?_filter]
    cases hsample : b.samples.get? name with
    | none => rfl
    | some s =>
      rw [hsample] at hremembers
      obtain ⟨before, hglances⟩ := hremembers.exists_glances_some
      have hlast : Glance.seen s.size s.lastSeen ∈ before ++ [.seen s.size s.lastSeen] :=
        List.mem_append_right _ (List.mem_singleton_self _)
      rw [← hglances] at hlast
      have hle_iff := boundedSpan_le_iff hplain
        (hordered.plain _ (Glance.InOrder.time_mem hlast)) expiry
      have hiff : now.nanosSince s.lastSeen < (b.expiry : Int) ↔ Glance.Near expiry s.lastSeen now := by
        rw [h.expiry_eq, Glance.Near]
        omega
      simp only [Option.filter, decide_eq_decide.2 hiff]
  rw [hpurged]
  exact ⟨hremembers.purged hordered, Glance.Remembers.isFresh_purged _⟩

-- An update adds the glances that it tells, and samples remember them.
theorem update {t : Tree} {meanwhile : String → Tree} (h : RemembersAll period expiry seen latest b)
    (hle : latest ≤ now) (hplain : now.isLeap = false)
    (hrun : (Call.update t meanwhile now).run b = .ok after) :
    RemembersAll period expiry
      (fun name => seen name ++ ((Call.update t meanwhile now).glance? b name).toList) now after := by
  obtain ⟨names, scan, hnames, hscan, rfl⟩ := exists_scan_of_updateDuring (run_update_eq_ok.1 hrun)
  obtain ⟨_, _, _, hascending⟩ := dataSets_spec hnames
  have hsamples := Scan.run_samples (nodup_of_ascending hascending) hscan
  have hordered := fun name => (h.ordered name).mono hle hplain
  have hpurged := fun name => h.isFresh_and_remembers hle hplain name
  refine ⟨h.period_eq, h.expiry_eq, fun name => ?_, fun name => ?_⟩
  · simp only [Call.glance?, hnames]
    by_cases hname : name ∈ names
    · rw [if_pos hname]
      rcases b.measure (meanwhile name) name with fault | _ | size
      · rw [Option.toList_none, List.append_nil]
        exact hordered name
      · exact (hordered name).append_gone
      · exact (hordered name).append_seen size
    · rw [if_neg hname, Option.toList_none, List.append_nil]
      exact hordered name
  · rw [hsamples]
    simp only [Call.glance?, hnames]
    by_cases hname : name ∈ names
    · rw [if_pos hname, if_pos hname]
      rcases hmeasure : b.measure (meanwhile name) name with fault | _ | size
      · exact absurd hmeasure (Scan.measure_ne_error hscan hname fault)
      · exact Glance.Remembers.none_of_gone
      · exact (hpurged name).1.seen (hpurged name).2 hplain size
    · rw [if_neg hname, if_neg hname, Option.toList_none, List.append_nil]
      exact (hpurged name).1

-- A step past a data set makes it gone, and its sample with it.
theorem advance {t : Tree} (h : RemembersAll period expiry seen latest b)
    (hrun : (Call.advance t).run b = .ok after) :
    RemembersAll period expiry (fun name => seen name ++ ((Call.advance t).glance? b name).toList) latest
      after := by
  obtain ⟨head, rest, hready, rfl⟩ := exists_head_of_advance hrun
  have hglance : ∀ name, (Call.advance t).glance? b name = if head = name then some .gone else none := by
    intro name
    rw [Call.glance?, hready, List.head?_cons]
    simp only [Option.some.injEq]
  refine ⟨h.period_eq, h.expiry_eq, fun name => ?_, fun name => ?_⟩
  · rw [hglance]
    by_cases hname : head = name
    · rw [if_pos hname]
      exact (h.ordered name).append_gone
    · rw [if_neg hname, Option.toList_none, List.append_nil]
      exact h.ordered name
  · rw [hglance, SortedMap.get?_erase]
    by_cases hname : head = name
    · rw [if_pos hname, if_pos hname.symm]
      exact Glance.Remembers.none_of_gone
    · rw [if_neg hname, if_neg (Ne.symm hname), Option.toList_none, List.append_nil]
      exact h.remembers name

/-! ## What a history preserves -/

theorem fresh (place : Path) (base home : String) (period expiry : Nat) :
    RemembersAll period expiry (fun _ => []) .earliest (Inbox.fresh place base home period expiry) where
  period_eq := rfl
  expiry_eq := rfl
  ordered _ := .nil rfl
  remembers _ := fun _ _ _ _ => Glance.startsAnew_nil

theorem run {c : Call} (h : RemembersAll period expiry seen latest b)
    (hordered : ∀ now ∈ c.reading?, latest ≤ now ∧ now.isLeap = false) (hrun : c.run b = .ok after) :
    RemembersAll period expiry (fun name => seen name ++ (c.glance? b name).toList)
      (c.reading?.getD latest) after := by
  cases c with
  | update t meanwhile now =>
    obtain ⟨hle, hplain⟩ := hordered now rfl
    exact h.update hle hplain hrun
  | advance t => exact h.advance hrun

-- After calls in the order of time the samples remember all glances that the calls tell.
theorem runAll {calls : List Call} (h : RemembersAll period expiry seen latest b)
    (hordered : (latest :: calls.filterMap Call.reading?).Pairwise (· ≤ ·))
    (hplain : ∀ reading ∈ calls.filterMap Call.reading?, reading.isLeap = false)
    (hrun : Inbox.runAll calls b = .ok after) :
    ∃ last ∈ latest :: calls.filterMap Call.reading?,
      RemembersAll period expiry (fun name => seen name ++ glances name calls b) last after := by
  -- On the calls that are left, each from what the ones before it have told.
  induction calls generalizing b seen latest with
  | nil =>
    cases hrun
    refine ⟨latest, List.mem_cons_self .., ?_⟩
    simpa only [glances, List.append_nil] using h
  | cons c rest ih =>
    rw [Inbox.runAll] at hrun
    cases hcall : c.run b with
    | error fault =>
      rw [hcall] at hrun
      cases hrun
    | ok next =>
      rw [hcall] at hrun
      simp only [glances, hcall, ← List.append_assoc]
      have hreading : ∀ now ∈ c.reading?, latest ≤ now ∧ now.isLeap = false := by
        intro now hnow
        have hmem : now ∈ (c :: rest).filterMap Call.reading? :=
          List.mem_filterMap.2 ⟨c, List.mem_cons_self .., hnow⟩
        exact ⟨List.rel_of_pairwise_cons hordered hmem, hplain now hmem⟩
      have hnext := h.run hreading hcall
      cases hc : c.reading? with
      | none =>
        rw [List.filterMap_cons_none hc] at hordered hplain ⊢
        rw [hc] at hnext
        exact ih hnext hordered hplain hrun
      | some now =>
        rw [List.filterMap_cons_some hc] at hordered hplain ⊢
        rw [hc] at hnext
        obtain ⟨last, hlast, hall⟩ := ih hnext (List.Pairwise.of_cons hordered)
          (fun reading hmem => hplain reading (List.mem_cons_of_mem _ hmem)) hrun
        exact ⟨last, List.mem_cons_of_mem _ hlast, hall⟩

/-! ## The verdict -/

-- The samples give the verdict that the glances call for.
theorem findsStable_iff_isSettled (h : RemembersAll period expiry seen latest b) (hle : latest ≤ now)
    (hplain : now.isLeap = false) {meanwhile : String → Tree} {name : String} {size : UInt64}
    (hmeasure : b.measure (meanwhile name) name = .ok (some size)) :
    b.findsStable meanwhile now name = true ↔ Glance.IsSettled period expiry (seen name) size now := by
  obtain ⟨hremembers, hfresh⟩ := h.isFresh_and_remembers hle hplain name
  have hordered := (h.ordered name).mono hle hplain
  rw [findsStable, hmeasure, hremembers.isSettled_iff hfresh hordered, Scan.judges]
  cases hsample : (b.samples.purged b.expiry now).get? name with
  | none => simp [Sample.isStable]
  | some s =>
    rw [hsample] at hremembers
    have hsince := hremembers.isLeap_since hordered
    have hspan : (b.period : Int) ≤ now.nanosSince s.since ↔ (period : Int) ≤ now.nanosSince s.since := by
      rw [h.period_eq]
      exact boundedSpan_le_iff hplain hsince period
    simp only [Sample.isStable, Bool.and_eq_true, decide_eq_true_eq, hspan, Option.mem_def,
      Option.some.injEq, exists_eq_left']

end RemembersAll

/-- A scan that succeeds, after any calls that did, makes ready the data sets at the front that it
finds stable.  It finds a data set stable just when the glances that the calls told of it call for this,
with the number of bytes of its files as 64 bits hold it.  Where they hold every such number, the
numbers themselves call for the verdict.  Periods and expiries are as long as they are given, however
long. -/
theorem updateDuring_findsStable (place : Path) (base home : String) (period expiry : Nat)
    {calls : List Call} {b after : Inbox} {t : Tree} {meanwhile : String → Tree} {now : Instant}
    (hcalls :
      runAll calls (fresh place base home (period * nanosPerSecond) (expiry * nanosPerSecond)) = .ok b)
    (hupdate : b.updateDuring t meanwhile now = (.ok (), after))
    (hordered : (calls.filterMap Call.reading? ++ [now]).Pairwise (· ≤ ·))
    (hplain : ∀ reading ∈ calls.filterMap Call.reading? ++ [now], reading.isLeap = false) :
    ∃ names, b.dataSets t = .ok names ∧
      after.ready = (names.filter fun name => !Scan.misses (b.measure (meanwhile name) name)).takeWhile
        (b.findsStable meanwhile now) ∧
      ∀ name ∈ names, ∀ total, b.total? (meanwhile name) name = some total →
        ∃ seen, seen = sights name calls
            (fresh place base home (period * nanosPerSecond) (expiry * nanosPerSecond)) ∧
          Glance.IsVerdict (period * nanosPerSecond) (expiry * nanosPerSecond)
            (seen.map (Glance.map UInt64.ofNat)) (.ofNat total) now (b.findsStable meanwhile now name) ∧
          ((∀ size time, .seen size time ∈ seen ++ [.seen total now] → size < 2 ^ 64) →
            Glance.IsVerdict (period * nanosPerSecond) (expiry * nanosPerSecond) seen total now
              (b.findsStable meanwhile now name)) := by
  have hspec := b.updateDuring_spec t meanwhile now
  rw [hupdate] at hspec
  obtain ⟨-, names, hnames, hready⟩ := hspec
  refine ⟨names, hnames, hready, fun name hname total htotal => ⟨_, rfl, ?_⟩⟩
  obtain ⟨hreadings, -, hnow⟩ := List.pairwise_append.1 hordered
  have hplainNow : now.isLeap = false := hplain now (List.mem_append_right _ (List.mem_singleton_self _))
  have hplainReadings : ∀ reading ∈ calls.filterMap Call.reading?, reading.isLeap = false :=
    fun reading hmem => hplain reading (List.mem_append_left _ hmem)
  obtain ⟨last, hlast, hall⟩ := (RemembersAll.fresh place base home _ _).runAll
    (List.Pairwise.cons (fun reading _ => reading.earliest_le) hreadings) hplainReadings hcalls
  have hle : last ≤ now := by
    rcases List.mem_cons.1 hlast with rfl | hmem
    · exact now.earliest_le
    · exact hnow last hmem now (List.mem_singleton_self _)
  have hmeasure : b.measure (meanwhile name) name = .ok (some (.ofNat total)) :=
    measure_eq_ok_of_total htotal
  have hsettled := hall.findsStable_iff_isSettled hle hplainNow hmeasure
  have hseen := (hall.ordered name).mono hle hplainNow
  simp only [List.nil_append, glances_eq] at hsettled hseen
  push_cast at hsettled
  refine ⟨Glance.isVerdict_of_settled hseen hsettled, fun hfits => ?_⟩
  refine Glance.isVerdict_of_settled (Glance.inOrder_map hseen)
    (hsettled.trans (Glance.isSettled_map_iff fun other time hmem hsame => ?_))
  -- both numbers are held by 64 bits, so they are one where these are
  have hother := hfits other time (List.mem_append_left _ hmem)
  have htotal := hfits total now (List.mem_append_right _ (List.mem_singleton_self _))
  have hnat := congrArg UInt64.toNat hsame
  rwa [UInt64.toNat_ofNat', UInt64.toNat_ofNat', Nat.mod_eq_of_lt hother, Nat.mod_eq_of_lt htotal] at hnat

/-! ### A data set that grows -/

/-- An inbox with one data set, which has one file. -/
def filledTree (content : ByteArray) : Tree :=
  .ofList [(["in"], .directory), (["in", "001"], .directory), (["in", "001", "list"], .file content)]

def largeTree : Tree := filledTree ⟨#[1, 2]⟩

/-- Two looks at the data set, between which it has grown. -/
def growingCalls : List Call :=
  [.update (filledTree ⟨#[1]⟩) (fun _ => filledTree ⟨#[1]⟩) (.ofMillis 1000),
   .update largeTree (fun _ => largeTree) (.ofMillis 6000)]

def emptyInbox : Inbox := fresh [] "base" "in" (10 * nanosPerSecond) (600 * nanosPerSecond)

def growingInbox : Inbox :=
  { emptyInbox with samples := .ofList [("001", ⟨2, .ofMillis 6000, .ofMillis 6000⟩)] }

theorem emptyInbox_eq : emptyInbox =
    { root := "base/in", path := ["in"], period := 10 * nanosPerSecond
      expiry := 600 * nanosPerSecond, samples := .empty, ready := [] } := by
  have hsplit : "in".splitOn "/" = ["in"] := by
    rw [String.splitOn, if_neg (by decide), String.splitOnAux, if_neg (by decide +kernel),
      if_neg (by decide +kernel), String.splitOnAux, if_neg (by decide +kernel),
      if_neg (by decide +kernel), String.splitOnAux, if_pos (by decide +kernel)]
    decide +kernel
  have hends : "in".endsWith "/" = false := by decide +kernel
  rw [emptyInbox, fresh, Path.ofText]
  simp only [hsplit, hends]
  decide +kernel

/-- Sixteen seconds in, the data set has stood for the ten seconds since it has grown. -/
theorem updateDuring_findsStable_growing :
    runAll growingCalls emptyInbox = .ok growingInbox ∧
      (growingInbox.updateDuring largeTree (fun _ => largeTree) (.ofMillis 16000)).1 = .ok () ∧
      (growingCalls.filterMap Call.reading? ++ [Instant.ofMillis 16000]).Pairwise (· ≤ ·) ∧
      (∀ reading ∈ growingCalls.filterMap Call.reading? ++ [.ofMillis 16000], reading.isLeap = false) ∧
      growingInbox.findsStable (fun _ => largeTree) (.ofMillis 16000) "001" = true := by
  have hcalls : runAll growingCalls emptyInbox = .ok growingInbox := by
    rw [growingInbox, emptyInbox_eq]
    decide +kernel
  have hupdate : (growingInbox.updateDuring largeTree (fun _ => largeTree) (.ofMillis 16000)).1 =
      .ok () := by
    rw [growingInbox, emptyInbox_eq]
    decide +kernel
  have hordered : (growingCalls.filterMap Call.reading? ++ [Instant.ofMillis 16000]).Pairwise (· ≤ ·) := by
    decide +kernel
  have hplain : ∀ reading ∈ growingCalls.filterMap Call.reading? ++ [.ofMillis 16000],
      reading.isLeap = false := by decide +kernel
  refine ⟨hcalls, hupdate, hordered, hplain, ?_⟩
  obtain ⟨names, hnames, -, hverdicts⟩ :=
    updateDuring_findsStable [] "base" "in" 10 600 hcalls (Prod.ext hupdate rfl) hordered hplain
  have hset : growingInbox.dataSets largeTree = .ok ["001"] := by
    rw [growingInbox, emptyInbox_eq]
    decide +kernel
  have htotal : growingInbox.total? largeTree "001" = some 2 := by
    rw [growingInbox, emptyInbox_eq]
    decide +kernel
  have hname : "001" ∈ names := by
    rw [hset] at hnames
    cases hnames
    decide
  obtain ⟨seen, hseen, -, hverdict⟩ := hverdicts "001" hname 2 htotal
  have hsights : seen = [.seen 1 (.ofMillis 1000), .seen 2 (.ofMillis 6000)] := by
    rw [hseen]
    show sights "001" growingCalls emptyInbox = _
    rw [emptyInbox_eq]
    decide +kernel
  have hfits : ∀ size time, .seen size time ∈ seen ++ [.seen 2 (.ofMillis 16000)] → size < 2 ^ 64 := by
    rw [hsights]
    intro size time hmem
    simp only [List.cons_append, List.nil_append, List.mem_cons, Glance.seen.injEq, List.not_mem_nil,
      or_false] at hmem
    omega
  refine (hverdict hfits).settled.2
    ⟨.ofMillis 6000, ⟨[.seen 1 (.ofMillis 1000)], [], hsights, ?_⟩, by decide +kernel⟩
  exact List.isChain_cons_cons.2 ⟨by decide +kernel, List.isChain_singleton _⟩

/-! ### A data set whose size starts again at zero -/

def unfilledTree : Tree := .ofList [(["in"], .directory), (["in", "001"], .directory)]

/-- A file of zeros. -/
def zeroFile (size : Nat) : Entry := .file ⟨Array.replicate size 0⟩

/-- The data set with two files of one size, and a small one. -/
def sparseTree (large : Nat) : Tree :=
  ((unfilledTree.insert ["in", "001", "a"] (zeroFile large)).insert ["in", "001", "b"]
    (zeroFile large)).insert ["in", "001", "c"] (zeroFile 2)

/-- The look at the data set while it is empty. -/
def unfilledCalls : List Call := [.update unfilledTree (fun _ => unfilledTree) (.ofMillis 1000)]

def unfilledInbox : Inbox :=
  { emptyInbox with samples := .ofList [("001", ⟨0, .ofMillis 1000, .ofMillis 1000⟩)] }

theorem size_zeroFile (size : Nat) : (zeroFile size).size = size := by
  show (Array.replicate size (0 : UInt8)).size = size
  exact Array.size_replicate

theorem totalBelow_sparseTree (large : Nat) :
    (sparseTree large).totalBelow ["in", "001"] = large + large + 2 := by
  have hwithin : ∀ name, Tree.isWithin ["in", "001"] ["in", "001", name] = true := fun name => rfl
  have hnone : unfilledTree.totalBelow ["in", "001"] = 0 := by decide +kernel
  unfold sparseTree
  rw [Tree.totalBelow_insert (by rfl) (hwithin _), Tree.totalBelow_insert (by rfl) (hwithin _),
    Tree.totalBelow_insert (by rfl) (hwithin _), size_zeroFile, size_zeroFile, hnone, Nat.zero_add]

/-- Ten seconds after the look at the empty data set its files have 2 ^ 64 bytes together, and it is found
stable although its size is another one. -/
theorem not_updateDuring_findsStable_sparse :
    runAll unfilledCalls emptyInbox = .ok unfilledInbox ∧
      sights "001" unfilledCalls emptyInbox = [.seen 0 (.ofMillis 1000)] ∧
      unfilledInbox.total? (sparseTree (2 ^ 63 - 1)) "001" = some (2 ^ 64) ∧
      (unfilledInbox.update (sparseTree (2 ^ 63 - 1)) (.ofMillis 11000)).1 = .ok () ∧
      unfilledInbox.findsStable (fun _ => sparseTree (2 ^ 63 - 1)) (.ofMillis 11000) "001" = true ∧
      ¬ Glance.IsSettled (10 * nanosPerSecond) (600 * nanosPerSecond)
        [.seen 0 (.ofMillis 1000)] (2 ^ 64) (.ofMillis 11000) := by
  have htotal : unfilledInbox.total? (sparseTree (2 ^ 63 - 1)) "001" = some (2 ^ 64) := by
    have hfind : (sparseTree (2 ^ 63 - 1)).find .following ["in", "001"] =
        .ok (["in", "001"], .directory) := by decide +kernel
    rw [total?, unfilledInbox, emptyInbox_eq, List.singleton_append, hfind]
    dsimp only
    rw [totalBelow_sparseTree]
  refine ⟨?_, ?_, htotal, ?_, ?_, ?_⟩
  · rw [unfilledInbox, emptyInbox_eq]
    decide +kernel
  · rw [emptyInbox_eq]
    decide +kernel
  · rw [unfilledInbox, emptyInbox_eq]
    decide +kernel
  · rw [findsStable, measure_eq_ok_of_total htotal, unfilledInbox, emptyInbox_eq]
    decide +kernel
  · exact Glance.not_isSettled_of_startsAnew (.inl (by decide))

end Inbox

end Registry
