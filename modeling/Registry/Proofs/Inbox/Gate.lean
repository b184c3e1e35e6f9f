import Registry.Inbox
import Registry.Proofs.Files.Children

/-!
# Gate — no data set is ready before an earlier one

A scan looks at the data sets in the order of their names.  The first that is not stable closes the
gate for all that follow, so those that are ready are the stable ones at the front.  Steps past data
sets take them away one by one from the front.
-/

namespace Registry

open Registry.Text

/-! ## What a scan preserves -/

/-- What a look at a data set says of it, by a sample of it from before. -/
def Scan.judges (period : Nat) (now : Instant) (sample : Option Sample) :
    Except InboxFault (Option UInt64) → Bool
  | .ok (some size) => Sample.isStable period size now sample
  | _ => false

/-- The data set has disappeared before the look at it. -/
def Scan.misses : Except InboxFault (Option UInt64) → Bool
  | .ok none => true
  | _ => false

namespace Scan

variable {period : Nat} {now : Instant} {measure : String → Except InboxFault (Option UInt64)}

theorem get?_step (s : Scan) {name other : String} (hne : other ≠ name) (size : Option UInt64) :
    (s.step period now name size).samples.get? other = s.samples.get? other := by
  cases size with
  | none =>
    show (s.samples.erase name).get? other = _
    rw [SortedMap.get?_erase, if_neg hne]
  | some size =>
    show (s.samples.insert name _).get? other = _
    rw [SortedMap.get?_insert, if_neg (Ne.symm hne)]

-- One step of a scan: a stable data set is ready where the gate is open, and one that is not stable
-- closes it.
theorem step_some (s : Scan) (name : String) (size : UInt64) :
    (s.step period now name (some size)).ready =
        (if Sample.isStable period size now (s.samples.get? name) && !s.blocked
          then s.ready ++ [name] else s.ready) ∧
      (s.step period now name (some size)).blocked =
        (s.blocked || !Sample.isStable period size now (s.samples.get? name)) :=
  ⟨rfl, rfl⟩

-- A whole scan adds the stable data sets at the front, if the gate is open, and leaves out those
-- that have disappeared.
theorem run_ready {samples : Samples} {names : List String} (hnodup : names.Nodup) {s s' : Scan}
    (hsamples : ∀ name ∈ names, s.samples.get? name = samples.get? name)
    (hrun : s.run period now measure names = (.ok (), s')) :
    s'.ready = s.ready ++ if s.blocked then [] else
      (names.filter fun name => !misses (measure name)).takeWhile fun name =>
        judges period now (samples.get? name) (measure name) := by
  -- Each name comes once, so its sample is still the one from before the scan.
  induction names generalizing s with
  | nil =>
    cases hrun
    simp
  | cons name rest ih =>
    obtain ⟨hfresh, hrest⟩ := List.nodup_cons.1 hnodup
    have hlater : ∀ size, ∀ other ∈ rest,
        (s.step period now name size).samples.get? other = samples.get? other := by
      intro size other hother
      have hne : other ≠ name := fun h => hfresh (h ▸ hother)
      rw [get?_step s hne, hsamples other (List.mem_cons_of_mem _ hother)]
    rw [run] at hrun
    cases hmeasure : measure name with
    | error fault =>
      rw [hmeasure] at hrun
      cases hrun
    | ok size =>
      rw [hmeasure] at hrun
      rw [ih hrest (hlater size) hrun]
      cases size with
      | none =>
        rw [List.filter_cons_of_neg (by simp [hmeasure, misses])]
        rfl
      | some size =>
        obtain ⟨hready, hblocked⟩ := @step_some period now s name size
        have hjudges : judges period now (samples.get? name) (measure name) =
            Sample.isStable period size now (s.samples.get? name) := by
          rw [hsamples name (List.mem_cons_self ..), hmeasure, judges]
        rw [List.filter_cons_of_pos (by simp [hmeasure, misses]), List.takeWhile_cons, hjudges,
          hready, hblocked]
        cases s.blocked <;> cases Sample.isStable period size now (s.samples.get? name) <;> simp

end Scan

namespace Inbox

/-! ## Data sets -/

-- The data sets are the directories in the directory of the inbox, each once and in the order of
-- the bytes of their names.
theorem dataSets_spec {b : Inbox} {t : Tree} {names : List String} (h : b.dataSets t = .ok names) :
    ∃ here, t.openDirectory b.path = .ok here ∧
      (∀ name, name ∈ names ↔
        Tree.isEntryName name = true ∧ t.get? (here ++ [name]) = some .directory) ∧
      names.Pairwise (· < ·) := by
  unfold dataSets at h
  split at h
  · cases h
  rename_i here hopen
  cases h
  refine ⟨here, hopen, fun name => ?_, ?_⟩
  · rw [List.mem_map]
    constructor
    · rintro ⟨⟨known, entry⟩, hmem, rfl⟩
      obtain ⟨hchild, hdirectory⟩ := List.mem_filter.1 hmem
      cases entry with
      | directory => exact Tree.mem_children.1 hchild
      | file content => cases hdirectory
      | link target => cases hdirectory
    · intro hchild
      exact ⟨_, List.mem_filter.2 ⟨Tree.mem_children.2 hchild, rfl⟩, rfl⟩
  · exact ((Tree.children_ascending t here).filter _).map _ fun _ _ hlt => hlt

theorem nodup_of_ascending {names : List String} (h : names.Pairwise (· < ·)) : names.Nodup :=
  h.imp fun {a b} (hlt : a < b) (heq : a = b) => String.lt_irrefl b (heq ▸ hlt)

theorem ready_of_updateDuring_error {b after : Inbox} {t : Tree} {meanwhile : String → Tree}
    {now : Instant} {fault : InboxFault} (h : b.updateDuring t meanwhile now = (.error fault, after)) :
    after.ready = b.ready := by
  unfold updateDuring at h
  split at h
  · cases h
    rfl
  dsimp only at h
  split at h
  · cases h
    rfl
  · split at h
    · cases h
      rfl
    · cases h

-- An update that succeeds keeps the samples and the queue of a whole scan.
theorem exists_scan_of_updateDuring {b after : Inbox} {t : Tree} {meanwhile : String → Tree}
    {now : Instant} (h : b.updateDuring t meanwhile now = (.ok (), after)) :
    ∃ names scan, b.dataSets t = .ok names ∧
      Scan.run b.period now (fun name => b.measure (meanwhile name) name)
        { samples := b.samples.purged b.expiry now, blocked := false, ready := [] } names = (.ok (), scan) ∧
      after = { b with samples := scan.samples, ready := scan.ready } := by
  unfold updateDuring at h
  split at h
  · cases h
  dsimp only at h
  split at h
  · cases h
  · rename_i names hnames
    split at h
    · cases h
    · rename_i scan hrun
      cases h
      exact ⟨names, scan, hnames, hrun, rfl⟩

-- An update that fails leaves the queue, and one that succeeds fills it with the stable data sets
-- at the front.
theorem updateDuring_spec (b : Inbox) (t : Tree) (meanwhile : String → Tree) (now : Instant) :
    match b.updateDuring t meanwhile now with
    | (.error _, after) => after.ready = b.ready
    | (.ok (), after) => after.path = b.path ∧ ∃ names, b.dataSets t = .ok names ∧
        after.ready =
          (names.filter fun name => !Scan.misses (b.measure (meanwhile name) name)).takeWhile
            fun name => Scan.judges b.period now ((b.samples.purged b.expiry now).get? name)
              (b.measure (meanwhile name) name) := by
  rcases hupdate : b.updateDuring t meanwhile now with ⟨fault | _, after⟩
  · exact ready_of_updateDuring_error hupdate
  · obtain ⟨names, scan, hnames, hrun, rfl⟩ := exists_scan_of_updateDuring hupdate
    obtain ⟨_, _, _, hascending⟩ := dataSets_spec hnames
    refine ⟨rfl, names, hnames, ?_⟩
    exact Scan.run_ready (nodup_of_ascending hascending) (fun _ _ => rfl) hrun

theorem top_eq_ok {b : Inbox} {t : Tree} {answer : Option String} (h : b.top t = .ok answer) :
    answer = b.ready.head? := by
  unfold top at h
  split at h
  · cases h
  · exact (Except.ok.inj h).symm

/-! ## What a step past a data set does -/

-- A step that fails leaves the inbox, and where the removal was stopped, it has taken entries below the
-- first data set at most.
theorem advance_error {b after : Inbox} {t left : Tree} {halt : Option Halt} {fault : InboxFault}
    (h : b.advance t halt = (.error fault, after, left)) : after = b ∧
      (left = t ∨ ∃ head rest here entry stop, b.ready = head :: rest ∧ halt = some stop ∧
        t.find .staying (b.path ++ [head]) = .ok (here, entry) ∧ left = t.thin here stop.gone) := by
  unfold advance at h
  split at h
  · cases h
    exact ⟨rfl, .inl rfl⟩
  split at h
  · cases h
    exact ⟨rfl, .inl rfl⟩
  rename_i head rest hready
  unfold Tree.removeDirectory at h
  cases hfind : t.find .staying (b.path ++ [head]) with
  | error cause =>
    rw [hfind] at h
    cases cause <;> cases h <;> exact ⟨rfl, .inl rfl⟩
  | ok found =>
    obtain ⟨here, entry⟩ := found
    rw [hfind] at h
    cases entry with
    | file content =>
      cases h
      exact ⟨rfl, .inl rfl⟩
    | directory | link target =>
      cases halt with
      | none => cases h
      | some halt =>
        obtain ⟨cause, hcause, gone⟩ := halt
        cases cause with
        | missing => exact absurd rfl hcause
        | _ =>
          cases h
          exact ⟨rfl, .inr ⟨head, rest, here, _, _, hready, rfl, hfind, rfl⟩⟩

/-- A step that fails leaves the inbox.  One that succeeds takes the first data set from the queue and
its directory from the tree, unless the directory was gone already. -/
def StepsPast (b : Inbox) (t : Tree) (halt : Option Halt) : Prop :=
  match b.advance t halt with
  | (.error _, after, _) => after = b
  | (.ok (), after, left) => after.path = b.path ∧ ∃ head, b.ready = head :: after.ready ∧
      ((∃ root entry, t.openDirectory b.path = .ok root ∧ t.get? (root ++ [head]) = some entry ∧
          ∀ path, left.get? path =
            if Tree.isWithin (root ++ [head]) path then none else t.get? path) ∨
        (t.find .staying (b.path ++ [head]) = .error .missing ∧ left = t))

theorem stepsPast {b : Inbox} (hnames : ∀ name ∈ b.ready, Tree.isEntryName name = true) (t : Tree)
    (halt : Option Halt) : b.StepsPast t halt := by
  unfold StepsPast
  rcases hadvance : b.advance t halt with ⟨fault | _, after, left⟩
  · exact (advance_error hadvance).1
  unfold advance at hadvance
  split at hadvance
  · cases hadvance
  split at hadvance
  · cases hadvance
  rename_i head rest hready
  have hname : Tree.isEntryName head = true := by
    apply hnames
    rw [hready]
    exact List.mem_cons_self ..
  unfold Tree.removeDirectory at hadvance
  cases hfind : t.find .staying (b.path ++ [head]) with
  | error fault =>
    rw [hfind] at hadvance
    cases fault <;> cases hadvance
    exact ⟨rfl, head, hready, .inr ⟨hfind, rfl⟩⟩
  | ok found =>
    obtain ⟨here, entry⟩ := found
    obtain ⟨root, hopen, rfl, hget⟩ := Tree.find_child hname hfind
    rw [hfind] at hadvance
    cases entry with
    | file content => cases hadvance
    | directory | link target =>
      cases halt with
      | none =>
        cases hadvance
        exact ⟨rfl, head, hready, .inl ⟨root, _, hopen, hget, fun path => Tree.get?_prune t _ path⟩⟩
      | some halt =>
        -- a removal that is stopped does not succeed, as what is gone already does not stop it
        obtain ⟨cause, hcause, gone⟩ := halt
        cases cause with
        | missing => exact absurd rfl hcause
        | _ => cases hadvance

/-! ## What a run of steps preserves -/

/-- A look at the first data set and a step past it, each on the tree that is there then: the data
set, if it was told and passed, and the inbox behind it.  The removal may be stopped. -/
def takeOne (b : Inbox) (seen found : Tree) (halt : Option Halt) : Option String × Inbox :=
  match b.advance found halt with
  | (.error _, after, _) => (none, after)
  | (.ok (), after, _) => ((b.top seen).toOption.join, after)

/-- Such pairs one after the other: all data sets that were told and passed. -/
def takeAll (b : Inbox) : List (Tree × Tree × Option Halt) → List String × Inbox
  | [] => ([], b)
  | (seen, found, halt) :: rest =>
    let step := b.takeOne seen found halt
    (step.1.toList ++ (step.2.takeAll rest).1, (step.2.takeAll rest).2)

/-- The queue moves on by some data sets, and those that are told are among these; they are all of
these unless the inbox is locked at a look. -/
structure MovesOn (b after : Inbox) (names : List String) (unlocked : Prop) (passed : Nat) : Prop where
  path : after.path = b.path
  ready : after.ready = b.ready.drop passed
  told : names.Sublist (b.ready.take passed)
  all : unlocked → names = b.ready.take passed

theorem takeOne_movesOn {b : Inbox} (hnames : ∀ name ∈ b.ready, Tree.isEntryName name = true)
    (seen found : Tree) (halt : Option Halt) : ∃ passed, MovesOn b (b.takeOne seen found halt).2
      (b.takeOne seen found halt).1.toList (b.isLocked seen = false) passed := by
  have hstep := stepsPast hnames found halt
  unfold StepsPast at hstep
  unfold takeOne
  rcases hadvance : b.advance found halt with ⟨fault | _, after, left⟩ <;> rw [hadvance] at hstep
  · cases hstep
    exact ⟨0, rfl, rfl, List.Sublist.refl _, fun _ => rfl⟩
  · obtain ⟨hpath, head, hready, -⟩ := hstep
    dsimp only
    have htop : ¬ b.isLocked seen = true → (b.top seen).toOption.join = some head := by
      intro hunlocked
      rw [top, if_neg hunlocked, hready]
      rfl
    refine ⟨1, hpath, ?_, ?_, fun hunlocked => ?_⟩
    · rw [hready]
      rfl
    · by_cases hlocked : b.isLocked seen = true
      · rw [top, if_pos hlocked]
        exact List.nil_sublist _
      · rw [htop hlocked, hready]
        exact List.Sublist.refl _
    · rw [htop (by simp [hunlocked]), hready]
      rfl

-- The data sets that are passed are the first of the queue, in its order, and the others stay.
theorem takeAll_movesOn {b : Inbox} (hnames : ∀ name ∈ b.ready, Tree.isEntryName name = true)
    (pairs : List (Tree × Tree × Option Halt)) : ∃ passed, MovesOn b (b.takeAll pairs).2 (b.takeAll pairs).1
      (∀ pair ∈ pairs, b.isLocked pair.1 = false) passed := by
  -- On the pairs that are left, each from the queue that the last one has left.
  induction pairs generalizing b with
  | nil => exact ⟨0, rfl, rfl, List.Sublist.refl _, fun _ => rfl⟩
  | cons pair rest ih =>
    obtain ⟨seen, found, halt⟩ := pair
    obtain ⟨first, hpath, hready, htold, hall⟩ := takeOne_movesOn hnames seen found halt
    rw [takeAll]
    generalize b.takeOne seen found halt = step at *
    have hnames' : ∀ name ∈ step.2.ready, Tree.isEntryName name = true := by
      intro name hname
      rw [hready] at hname
      exact hnames name (List.mem_of_mem_drop hname)
    obtain ⟨passed, hpath', hready', htold', hall'⟩ := ih hnames'
    rw [hready] at hready' htold' hall'
    refine ⟨first + passed, hpath'.trans hpath, ?_, ?_, fun hunlocked => ?_⟩
    · rw [hready', List.drop_drop]
    · rw [List.take_add]
      exact htold.append htold'
    · have hlater : ∀ pair ∈ rest, step.2.isLocked pair.1 = false := by
        intro pair hpair
        rw [isLocked, hpath]
        exact hunlocked pair (List.mem_cons_of_mem _ hpair)
      rw [List.take_add, hall (hunlocked _ (List.mem_cons_self ..)), hall' hlater]

/-! ## The gate -/

/-- After an update that succeeds, the queue is the longest run of stable data sets at the front of
all that are there, in the order of the bytes of their names.  Pairs of a look and a step tell data
sets of it in this order and move it on by those that they pass, and a step that succeeds takes just
the directory of the first data set from the tree.  What fails leaves the queue. -/
theorem updateDuring_gate (b : Inbox) (t : Tree) (meanwhile : String → Tree) (now : Instant) :
    (∀ found halt fault, (b.advance found halt).1 = .error fault → (b.advance found halt).2.1 = b) ∧
    match b.updateDuring t meanwhile now with
    | (.error _, after) => after.ready = b.ready
    | (.ok (), after) => ∃ (here : Path) (names present : List String), t.openDirectory b.path = .ok here ∧
        (∀ name, name ∈ names ↔
          Tree.isEntryName name = true ∧ t.get? (here ++ [name]) = some .directory) ∧
        (names.map utf8Bytes).Pairwise (· < ·) ∧
        present = names.filter (fun name => !Scan.misses (b.measure (meanwhile name) name)) ∧
        after.ready = present.takeWhile (fun name =>
          Scan.judges b.period now ((b.samples.purged b.expiry now).get? name)
            (b.measure (meanwhile name) name)) ∧
        (∀ seen answer, after.top seen = .ok answer → answer = none ∨ answer = present.head?) ∧
        ∀ pairs, ((after.takeAll pairs).1.map utf8Bytes).Pairwise (· < ·) ∧
          (∃ passed, MovesOn after (after.takeAll pairs).2 (after.takeAll pairs).1
            (∀ pair ∈ pairs, after.isLocked pair.1 = false) passed) ∧
          ∀ found halt, (after.takeAll pairs).2.StepsPast found halt := by
  constructor
  · intro found halt fault hfault
    rcases hadvance : b.advance found halt with ⟨fault' | _, after, left⟩
    · exact (advance_error hadvance).1
    · rw [hadvance] at hfault
      cases hfault
  have hupdate := b.updateDuring_spec t meanwhile now
  rcases hresult : b.updateDuring t meanwhile now with ⟨fault | _, after⟩ <;>
    rw [hresult] at hupdate
  · exact hupdate
  obtain ⟨hpath, names, hnames, hready⟩ := hupdate
  obtain ⟨here, hopen, hmem, hascending⟩ := dataSets_spec hnames
  have hsub : after.ready.Sublist names := by
    rw [hready]
    exact (List.takeWhile_sublist _).trans List.filter_sublist
  have hentries : ∀ name ∈ after.ready, Tree.isEntryName name = true :=
    fun name hname => ((hmem name).1 (hsub.subset hname)).1
  refine ⟨here, names, _, hopen, hmem, hascending.map _ fun _ _ => utf8Bytes_lt, rfl, hready, ?_, ?_⟩
  · intro seen answer htop
    rw [top_eq_ok htop, hready]
    cases names.filter fun name => !Scan.misses (b.measure (meanwhile name) name) with
    | nil => exact .inl rfl
    | cons first rest =>
      rw [List.takeWhile_cons]
      split
      · exact .inr rfl
      · exact .inl rfl
  · intro pairs
    obtain ⟨passed, hmoves⟩ := takeAll_movesOn hentries pairs
    have hordered : (after.ready.take passed).Pairwise (· < ·) :=
      (hascending.sublist hsub).sublist (List.take_sublist _ _)
    have hlater : ∀ name ∈ (after.takeAll pairs).2.ready, Tree.isEntryName name = true := by
      intro name hname
      rw [hmoves.ready] at hname
      exact hentries name (List.mem_of_mem_drop hname)
    exact ⟨(hordered.sublist hmoves.told).map _ fun _ _ => utf8Bytes_lt, ⟨passed, hmoves⟩,
      stepsPast hlater⟩

/-! ### Four data sets -/

def waitingTree : Tree :=
  .ofList [(["in"], .directory), (["in", "001"], .directory), (["in", "002"], .directory),
    (["in", "003"], .directory), (["in", "004"], .directory)]

/-- The second data set is taken away just before it is looked at. -/
def vanishing (_ : String) : Tree := waitingTree.erase ["in", "002"]

/-- All four data sets were seen ten seconds before the look at them, the third with another size. -/
def waitingInbox : Inbox where
  root := "in"
  path := ["in"]
  period := usualPeriod
  expiry := usualExpiry
  samples := .ofList (["001", "002", "003", "004"].map fun name =>
    (name, ⟨if name = "003" then 7 else 0, .ofMillis 1000, .ofMillis 1000⟩))
  ready := []

/-- A removal that is stopped before anything is gone. -/
def deniedHalt : Halt := { fault := .denied, fault_ne := by decide, gone := fun _ => false }

/-- The first data set is ready, the second has vanished, and the third is not stable, so the fourth
waits behind it.  Whatever steps follow, they pass the first data set at most, and a step that is stopped
leaves it in front. -/
theorem updateDuring_gate_waiting :
    ∃ after, waitingInbox.updateDuring waitingTree vanishing (.ofMillis 11000) = (.ok (), after) ∧
      after.ready = ["001"] ∧
      (∀ pairs, ∃ passed, (after.takeAll pairs).2.ready = ["001"].drop passed) ∧
      (after.advance waitingTree (some deniedHalt)).1.isOk = false ∧
      (after.advance waitingTree (some deniedHalt)).2.1 = after := by
  have hok : (waitingInbox.updateDuring waitingTree vanishing (.ofMillis 11000)).1.isOk = true := by
    decide +kernel
  have hqueue : (waitingInbox.updateDuring waitingTree vanishing (.ofMillis 11000)).2.ready = ["001"] := by
    decide +kernel
  have hdenied : ((waitingInbox.updateDuring waitingTree vanishing (.ofMillis 11000)).2.advance
      waitingTree (some deniedHalt)).1.isOk = false := by
    decide +kernel
  have hgate := (updateDuring_gate waitingInbox waitingTree vanishing (.ofMillis 11000)).2
  generalize waitingInbox.updateDuring waitingTree vanishing (.ofMillis 11000) = result at *
  obtain ⟨fault | _, after⟩ := result
  · cases hok
  obtain ⟨here, names, present, -, -, -, -, -, -, hpairs⟩ := hgate
  refine ⟨after, rfl, hqueue, fun pairs => ?_, hdenied, ?_⟩
  · obtain ⟨-, ⟨passed, hmoves⟩, -⟩ := hpairs pairs
    exact ⟨passed, hqueue ▸ hmoves.ready⟩
  · cases hanswer : (after.advance waitingTree (some deniedHalt)).1 with
    | error fault =>
      exact (updateDuring_gate after waitingTree vanishing (.ofMillis 11000)).1 _ _ fault hanswer
    | ok _ =>
      rw [hanswer] at hdenied
      cases hdenied

end Inbox

end Registry
