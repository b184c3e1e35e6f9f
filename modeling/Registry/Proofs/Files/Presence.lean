import Registry.Proofs.Files.Children

/-!
# Presence — what is there, links followed

Where a file was opened to be written, there is a file afterwards.  An entry of a directory that is no
link is found under the path of the directory with its name behind it.
-/

namespace Registry.Tree

variable {t part whole : Tree} {path : Path}

/-! ## Behind a file that was opened -/

/-- Every entry of one tree is in the other, and what else is in that are files. -/
structure IsPartButFiles (part whole : Tree) : Prop where
  isPart : IsPart part whole
  files : ∀ path entry, part.entry? path = none → whole.entry? path = some entry →
    ∃ content, entry = .file content

-- A walk to a file that may be new ends there once it is made.
theorem walk_of_opening (h : IsPartButFiles part whole) {names directory : Path} {stop : Stop}
    (hwalk : part.walk .opening directory names = .ok stop) :
    whole.walk .following directory names = .ok stop := by
  induction names generalizing directory with
  | nil => exact hwalk
  | cons name rest ih =>
    rw [walk] at hwalk ⊢
    split at hwalk
    · cases hwalk
    rw [if_neg (fun hopening => absurd hopening.1 (by decide))]
    split at hwalk
    · cases hwalk
    rename_i hshort
    rw [if_neg hshort]
    split at hwalk
    · rename_i hself
      rw [if_pos hself]
      exact ih hwalk
    rename_i hself
    rw [if_neg hself]
    split at hwalk
    · rename_i hup
      rw [if_pos hup]
      exact ih hwalk
    rename_i hup
    rw [if_neg hup]
    dsimp only at hwalk ⊢
    have hfollowed : ∀ ending : Ending, ending ≠ .staying → ¬ (rest = [] ∧ ending = .staying) :=
      fun ending hending hlast => hending hlast.2
    cases hentry : part.entry? (directory ++ [name]) with
    | some entry =>
      rw [hentry] at hwalk
      rw [h.isPart.entry_eq hentry]
      cases entry with
      | directory => exact ih hwalk
      | file content => exact hwalk
      | link target =>
        dsimp only at hwalk ⊢
        rw [if_neg (hfollowed _ (by decide))] at hwalk ⊢
        exact hwalk
    | none =>
      rw [hentry] at hwalk
      cases hwhole : whole.entry? (directory ++ [name]) with
      | none => exact hwalk
      | some entry =>
        obtain ⟨content, rfl⟩ := h.files _ entry hentry hwhole
        dsimp only at hwalk ⊢
        split at hwalk
        · rename_i hlast
          rw [if_pos hlast]
          exact hwalk
        · cases hwalk

theorem follow_of_opening (h : IsPartButFiles part whole) {links : Nat} {directory names : Path}
    (hfollow : part.follow .opening links directory names = .ok path) :
    whole.follow .following links directory names = .ok path := by
  induction links generalizing directory names with
  | zero => cases hfollow
  | succ links ih =>
    rw [follow] at hfollow ⊢
    cases hwalk : part.walk .opening directory names with
    | error fault =>
      rw [hwalk] at hfollow
      cases hfollow
    | ok stop =>
      rw [hwalk] at hfollow
      rw [walk_of_opening h hwalk]
      cases stop with
      | arrived here => exact hfollow
      | atLink directory target rest => exact ih hfollow

theorem entry?_insert_self {here : Path} {entry : Entry} (hroot : here ≠ []) :
    Tree.entry? (t.insert here entry) here = some entry := by
  rw [ entry?, if_neg hroot, SortedMap.get?_insert, if_pos rfl]

theorem entry?_insert_of_ne {here other : Path} {entry : Entry} (hne : here ≠ other) :
    Tree.entry? (t.insert here entry) other = t.entry? other := by
  rw [ entry?, entry?, SortedMap.get?_insert, if_neg hne]

section OpenFile

variable {here : Path} {content : Option ByteArray}

theorem follow_of_openFile (h : t.openFile path = .ok (here, content)) :
    pathFault? path = none ∧ t.follow .opening linkLimit [] path = .ok here := by
  unfold openFile locate at h
  cases hfault : pathFault? path with
  | some fault =>
    rw [hfault] at h
    cases h
  | none =>
    rw [hfault] at h
    refine ⟨rfl, ?_⟩
    dsimp only at h
    split at h
    · cases h
    · rename_i found hfound
      rw [hfound]
      split at h <;> cases h <;> rfl

-- A file is opened nowhere but at a path below the root.
theorem ne_root_of_openFile (h : t.openFile path = .ok (here, content)) : here ≠ [] := by
  intro hroot
  unfold openFile at h
  split at h
  · cases h
  rename_i found _
  have hfound : found = here := by split at h <;> cases h <;> rfl
  rw [hfound, entry?, if_pos hroot] at h
  cases h

end OpenFile

/-- A file that was opened to be written is there. -/
theorem present_of_touch {touched : Tree} (h : t.touch path = .ok touched) :
    touched.present path = true := by
  have hpart := isPart_touch h
  unfold touch at h
  cases hopen : t.openFile path with
  | error fault =>
    rw [hopen] at h
    cases h
  | ok opened =>
    obtain ⟨here, content⟩ := opened
    rw [hopen] at h
    cases h
    have hroot := ne_root_of_openFile hopen
    have hfiles : IsPartButFiles t
        (t.insert here (.file (content.getD ByteArray.empty))) := by
      refine ⟨hpart, fun other entry hnone hsome => ?_⟩
      by_cases hsame : here = other
      · rw [← hsame, entry?_insert_self hroot] at hsome
        exact ⟨_, (Option.some.inj hsome).symm⟩
      · rw [entry?_insert_of_ne hsame, hnone] at hsome
        cases hsome
    obtain ⟨hfault, hfollow⟩ := follow_of_openFile hopen
    have hfind := find_eq_ok.2
      ⟨hfault, follow_of_opening hfiles hfollow, entry?_insert_self hroot⟩
    rw [present, hfind]
    rfl

/-! ## In a directory -/

-- The walk along the name of an entry that is no link ends there.
theorem walk_following_name {here : Path} {name : String} {entry : Entry}
    (hname : isEntryName name = true) (hshort : ¬ longestName < name.utf8ByteSize)
    (hentry : t.entry? (here ++ [name]) = some entry) (hnolink : ∀ target, entry ≠ .link target) :
    t.walk .following here [name] = .ok (.arrived (here ++ [name])) := by
  obtain ⟨hempty, hdot, hdots⟩ := isEntryName_iff.1 hname
  rw [walk, if_neg (fun h => absurd h.1 (by decide)), if_neg hshort,
    if_neg (not_or.2 ⟨hempty, hdot⟩), if_neg hdots]
  dsimp only
  rw [hentry]
  cases entry with
  | directory => rw [walk]
  | file content => exact if_pos rfl
  | link target => exact absurd rfl (hnolink target)

theorem present_of_child {root : Path} {name : String} {entry : Entry} (hname : isEntryName name = true)
    (hshort : ¬ longestName < name.utf8ByteSize) (hfault : pathFault? (path ++ [name]) = none)
    (hopen : t.openDirectory path = .ok root) (hget : t.get? (root ++ [name]) = some entry)
    (hnolink : ∀ target, entry ≠ .link target) : t.present (path ++ [name]) = true := by
  have hentry : t.entry? (root ++ [name]) = some entry := by rw [entry?_child root name, hget]
  obtain ⟨-, hfollow, hroot⟩ := find_eq_ok.1 (openDirectory_eq_ok.1 hopen)
  have hlonger := follow_append_of (by decide : Ending.following ≠ .opening)
    (List.cons_ne_nil name []) (isOpen_root t) hfollow hroot
  rw [walk_following_name hname hshort hentry hnolink] at hlonger
  rw [present, find_eq_ok.2 ⟨hfault, hlonger, hentry⟩]
  rfl

theorem pathFault?_of_present (h : t.present path = true) : pathFault? path = none := by
  unfold present find locate at h
  cases hfault : pathFault? path with
  | none => rfl
  | some fault =>
    rw [hfault] at h
    cases h

end Registry.Tree
