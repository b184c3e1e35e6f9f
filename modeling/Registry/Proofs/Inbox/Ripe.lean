import Mathlib.Data.List.TakeWhile
import Registry.Proofs.Files.Subdirectories
import Registry.Proofs.Inbox.Stability

/-!
# Ripe — an inbox whose data sets are all ready

Where a look finds every data set as its sample has it, and long enough after this was first seen, the
whole inbox is ready in the order of the names.  The look makes each sample new again, so the data sets
that are not taken are found in the same way by the next look, unless it comes too late.
-/

namespace Registry

namespace Scan

variable {period : Nat} {now : Instant} {measure : String → Except InboxFault (Option UInt64)}

theorem run_of_measured {names : List String} (h : ∀ name ∈ names, ∃ size, measure name = .ok size)
    (s : Scan) : ∃ s', s.run period now measure names = (.ok (), s') := by
  induction names generalizing s with
  | nil => exact ⟨s, rfl⟩
  | cons name rest ih =>
    obtain ⟨size, hsize⟩ := h name (List.mem_cons_self ..)
    rw [run, hsize]
    exact ih (fun other hother => h other (List.mem_cons_of_mem _ hother)) _

end Scan

namespace Inbox

variable {b : Inbox} {t : Tree} {now : Instant} {root : Path} {name : String} {names : List String}

/-- The size of a data set is that of its sample, which is as old as the period and was looked at before
it could be forgotten. -/
def IsRipe (b : Inbox) (t : Tree) (now : Instant) (name : String) : Prop :=
  ∃ s, b.samples.get? name = some s ∧ b.measure t name = .ok (some s.size) ∧ s.since.isLeap = false ∧
    (b.period : Int) ≤ now.nanosSince s.since ∧ now.nanosSince s.lastSeen < (b.expiry : Int)

/-- The path of an inbox leads to a directory, not by way of one of its subdirectories, and there is no
lock in it. -/
structure IsOpenAt (b : Inbox) (t : Tree) (root : Path) : Prop where
  opened : (t.bare root).openDirectory b.path = .ok root
  unlocked : b.isLocked t = false

/-- Nothing is changed in the directory of an inbox, and its path goes on to lead there. -/
structure LeftAlone (b : Inbox) (root : Path) (before after : Tree) : Prop where
  agree : Tree.AgreeWithin root before after
  place : b.IsOpenAt before root → b.IsOpenAt after root

/-! ## Data sets of an open inbox -/

theorem IsOpenAt.openDirectory (h : b.IsOpenAt t root) : t.openDirectory b.path = .ok root :=
  Tree.openDirectory_of_isPart (Tree.isPart_bare t root) h.opened

theorem isLocked_of_isPart {part whole : Tree} (h : part.IsPart whole) (hlocked : b.isLocked part = true) :
    b.isLocked whole = true := by
  unfold isLocked Tree.present at hlocked ⊢
  cases hfind : part.find .following (b.path ++ [lockName]) with
  | error fault =>
    rw [hfind] at hlocked
    cases hlocked
  | ok found =>
    rw [Tree.find_of_isPart h hfind]
    rfl

-- An inbox stays open where one of its subdirectories is taken away.
theorem IsOpenAt.prune (h : b.IsOpenAt t root) (hname : Tree.isEntryName name = true)
    (hget : t.get? (root ++ [name]) = some .directory) : b.IsOpenAt (t.prune (root ++ [name])) root where
  opened := Tree.openDirectory_of_isPart (Tree.isPart_bare_prune hname hget) h.opened
  unlocked := by
    rw [Bool.eq_false_iff]
    intro hlocked
    have hwhole := isLocked_of_isPart (Tree.isPart_prune t _) hlocked
    rw [h.unlocked] at hwhole
    cases hwhole

theorem eq_of_ascending {a c : List String} (ha : a.Pairwise (· < ·)) (hc : c.Pairwise (· < ·))
    (h : ∀ name, name ∈ a ↔ name ∈ c) : a = c := by
  have hperm : a.Perm c :=
    (List.perm_ext_iff_of_nodup (nodup_of_ascending ha) (nodup_of_ascending hc)).2 h
  refine hperm.eq_of_pairwise ?_ ha hc
  intro x y _ _ hxy hyx
  exact absurd (String.lt_trans hxy hyx) (String.lt_irrefl x)

-- The data sets are told by what is in the directory, and by their order.
theorem dataSets_eq_ok_iff (hopen : t.openDirectory b.path = .ok root) : b.dataSets t = .ok names ↔
    names.Pairwise (· < ·) ∧ ∀ name, name ∈ names ↔
      Tree.isEntryName name = true ∧ t.get? (root ++ [name]) = some .directory := by
  have hspec : ∀ {found : List String}, b.dataSets t = .ok found → found.Pairwise (· < ·) ∧
      ∀ name, name ∈ found ↔
        Tree.isEntryName name = true ∧ t.get? (root ++ [name]) = some .directory := by
    intro found hfound
    obtain ⟨here, hopen', hmem, hascending⟩ := dataSets_spec hfound
    rw [hopen, Except.ok.injEq] at hopen'
    rw [← hopen'] at hmem
    exact ⟨hascending, hmem⟩
  refine ⟨hspec, fun ⟨hascending, hmem⟩ => ?_⟩
  have hfound : b.dataSets t = .ok (((t.children root).filter fun e => e.2.isDirectory).map (·.1)) := by
    rw [dataSets, hopen]
  obtain ⟨hascending', hmem'⟩ := hspec hfound
  rw [hfound, eq_of_ascending hascending' hascending fun name => (hmem' name).trans (hmem name).symm]

theorem measure_eq_ok_iff (hname : Tree.isEntryName name = true) (hopen : t.openDirectory b.path = .ok root)
    (hget : t.get? (root ++ [name]) = some .directory) {size : UInt64} :
    b.measure t name = .ok (some size) ↔
      Tree.CanName b.path name ∧ t.sizeBelow (root ++ [name]) = size := by
  have hfollowing : Tree.Ending.following ≠ .opening := by decide
  unfold measure
  constructor
  · intro hmeasure
    split at hmeasure
    · cases hmeasure
    · cases hmeasure
    · rename_i here entry hfind
      have hcan := Tree.canName_of_find hname hopen hget hfollowing hfind
      rw [Tree.find_subdirectory hname hopen hget hfollowing hcan] at hfind
      cases hfind
      exact ⟨hcan, Option.some.inj (Except.ok.inj hmeasure)⟩
  · rintro ⟨hcan, rfl⟩
    rw [Tree.find_subdirectory hname hopen hget hfollowing hcan]

/-! ## A look, and a step -/

-- A look at ripe data sets makes them all ready, and their samples new.
theorem update_of_ripe (hunlocked : b.isLocked t = false) (hnames : b.dataSets t = .ok names)
    (hripe : ∀ name ∈ names, b.IsRipe t now name) :
    ∃ samples, b.update t now = (.ok (), { b with samples, ready := names }) ∧
      ∀ name ∈ names,
        samples.get? name = (b.samples.get? name).map fun s => { s with lastSeen := now } := by
  obtain ⟨_, _, _, hascending⟩ := dataSets_spec hnames
  have hnodup := nodup_of_ascending hascending
  let start : Scan := { samples := b.samples.purged b.expiry now, blocked := false, ready := [] }
  have hmeasured : ∀ name ∈ names, ∃ size, b.measure t name = .ok size := fun name hname => by
    obtain ⟨s, -, hmeasure, -⟩ := hripe name hname
    exact ⟨_, hmeasure⟩
  obtain ⟨scan, hrun⟩ : ∃ scan, start.run b.period now (b.measure t) names = (.ok (), scan) :=
    Scan.run_of_measured hmeasured start
  -- no sample of a ripe data set is forgotten before the look
  have hkept : ∀ name ∈ names, start.samples.get? name = b.samples.get? name := by
    intro name hname
    obtain ⟨s, hsample, -, -, -, hrecent⟩ := hripe name hname
    show (b.samples.purged b.expiry now).get? name = _
    rw [Samples.purged, SortedMap.get?_filter, hsample, Option.filter_some, if_pos (by simpa using hrecent)]
  have hready : scan.ready = names := by
    have hall : ∀ name ∈ names, Scan.misses (b.measure t name) = false ∧
        Scan.judges b.period now (start.samples.get? name) (b.measure t name) = true := by
      intro name hname
      rw [hkept name hname]
      obtain ⟨s, hsample, hmeasure, -, hold, -⟩ := hripe name hname
      rw [hsample, hmeasure]
      exact ⟨rfl, by simpa [Scan.judges, Sample.isStable] using hold⟩
    rw [Scan.run_ready hnodup (fun _ _ => rfl) hrun,
      List.filter_eq_self.2 fun name hname => by rw [(hall name hname).1]; rfl,
      List.takeWhile_eq_self_iff.2 fun name hname => (hall name hname).2]
    rfl
  refine ⟨scan.samples, ?_, fun name hname => ?_⟩
  · unfold update updateDuring
    rw [if_neg (by simp [hunlocked])]
    simp only [hnames]
    rw [show Scan.run b.period now (b.measure t) _ names = (.ok (), scan) from hrun]
    dsimp only
    rw [hready]
  · obtain ⟨s, hsample, hmeasure, -⟩ := hripe name hname
    rw [Scan.run_samples hnodup hrun name, if_pos hname, hkept name hname, hsample, hmeasure, Scan.sampled,
      Sample.seen, if_pos rfl, Option.map_some]

theorem advance_of_open {rest : List String} (hopen : b.IsOpenAt t root) (hready : b.ready = name :: rest)
    (hname : Tree.isEntryName name = true) (hget : t.get? (root ++ [name]) = some .directory)
    (hcan : Tree.CanName b.path name) :
    b.advance t none = (.ok (), { b with ready := rest, samples := b.samples.erase name },
      t.prune (root ++ [name])) := by
  have hfind := Tree.find_subdirectory hname hopen.openDirectory hget
    (by decide : Tree.Ending.staying ≠ .opening) hcan
  have hremove : t.removeDirectory none (b.path ++ [name]) = (.ok (), t.prune (root ++ [name])) := by
    unfold Tree.removeDirectory
    rw [hfind]
  rw [advance, if_neg (by simp [hopen.unlocked]), hready]
  dsimp only
  rw [hremove]

/-! ## What stays ripe -/

-- A data set that was looked at is ripe at the next look, if it is as large as before.
theorem IsRipe.again {b' : Inbox} {t' : Tree} {now' : Instant} (h : b.IsRipe t now name)
    (hperiod : b'.period = b.period) (hexpiry : b'.expiry = b.expiry)
    (hsample : b'.samples.get? name = (b.samples.get? name).map fun s => { s with lastSeen := now })
    (hmeasure : b'.measure t' name = b.measure t name) (hforward : now ≤ now')
    (hnow : now.isLeap = false) (hnow' : now'.isLeap = false)
    (hsoon : now'.nanosSince now < (b.expiry : Int)) : b'.IsRipe t' now' name := by
  obtain ⟨s, hknown, hsize, hsince, hold, -⟩ := h
  refine ⟨{ s with lastSeen := now }, ?_, hmeasure.trans hsize, hsince, ?_, ?_⟩
  · rw [hsample, hknown, Option.map_some]
  · rw [hperiod]
    exact Int.le_trans hold
      (Instant.nanosSince_mono hforward (Instant.le_refl _) hnow hsince hnow' hsince)
  · rw [hexpiry]
    exact hsoon

end Inbox

end Registry
