import Registry.Files.Change

/-!
# Walk — where paths lead in a tree, and in a tree with fewer entries

A path with one more name leads to the entry of that name in the directory to which the path leads.
What is found in a tree is found in every tree that has more entries, so removing entries only makes
paths lead nowhere.
-/

namespace Registry.Tree

/-! ## Trees with fewer entries -/

/-- Every entry of one tree is in the other. -/
def IsPart (part whole : Tree) : Prop :=
  ∀ path entry, part.get? path = some entry → whole.get? path = some entry

variable {part whole t : Tree} {ending : Ending}

theorem IsPart.entry_eq (h : IsPart part whole) {path : Path} {entry : Entry}
    (hentry : part.entry? path = some entry) : whole.entry? path = some entry := by
  unfold Tree.entry? at hentry ⊢
  split at hentry
  · rename_i hroot
    rw [if_pos hroot, hentry]
  · rename_i hroot
    rw [if_neg hroot]
    exact h path entry hentry

-- A walk that ends, ends in the same way with more entries, unless it ends at nothing.
theorem walk_of_isPart (h : IsPart part whole) {names : Path} {directory : Path} {stop : Stop}
    (hwalk : part.walk ending directory names = .ok stop) :
    whole.walk ending directory names = .ok stop ∨
      ∃ path, stop = .arrived path ∧ part.entry? path = none := by
  -- Each name that is found is found in the larger tree; only the last one may be missing.
  induction names generalizing directory with
  | nil => exact .inl hwalk
  | cons name rest ih =>
    rw [walk] at hwalk ⊢
    split at hwalk
    · cases hwalk
    rename_i hopening
    rw [if_neg hopening]
    split at hwalk
    · cases hwalk
    rename_i hshort
    rw [if_neg hshort]
    split at hwalk
    · rename_i hself
      rw [if_pos hself]
      exact ih hwalk
    rename_i hself
    rw [if_neg hself]
    split at hwalk
    · rename_i hup
      rw [if_pos hup]
      exact ih hwalk
    rename_i hup
    rw [if_neg hup]
    dsimp only at hwalk ⊢
    cases hentry : part.entry? (directory ++ [name]) with
    | none =>
      rw [hentry] at hwalk
      dsimp only at hwalk
      split at hwalk
      · cases hwalk
        exact .inr ⟨_, rfl, hentry⟩
      · cases hwalk
    | some entry =>
      rw [hentry] at hwalk
      rw [h.entry_eq hentry]
      cases entry with
      | directory => exact ih hwalk
      | file content => exact .inl hwalk
      | link target => exact .inl hwalk

theorem follow_of_isPart (h : IsPart part whole) {links : Nat} {directory names path : Path}
    (hfollow : part.follow ending links directory names = .ok path) :
    whole.follow ending links directory names = .ok path ∨ part.entry? path = none := by
  induction links generalizing directory names with
  | zero => cases hfollow
  | succ links ih =>
    rw [follow] at hfollow ⊢
    cases hwalk : part.walk ending directory names with
    | error fault =>
      rw [hwalk] at hfollow
      cases hfollow
    | ok stop =>
      rw [hwalk] at hfollow
      rcases walk_of_isPart h hwalk with hsame | ⟨here, rfl, hnone⟩
      · rw [hsame]
        cases stop with
        | arrived here => exact .inl hfollow
        | atLink directory target rest => exact ih hfollow
      · cases hfollow
        exact .inr hnone

/-- What is found under a path is the entry to which the path leads. -/
theorem find_eq_ok {path here : Path} {entry : Entry} : t.find ending path = .ok (here, entry) ↔
    pathFault? path = none ∧ t.follow ending linkLimit [] path = .ok here ∧
      t.entry? here = some entry := by
  unfold find locate
  cases hfault : pathFault? path with
  | some fault => simp
  | none =>
    dsimp only
    cases hfollow : t.follow ending linkLimit [] path with
    | error fault => simp
    | ok found =>
      dsimp only
      cases hentry : t.entry? found with
      | none =>
        simp only [true_and, Except.ok.injEq, reduceCtorEq, false_iff]
        rintro ⟨rfl, hsome⟩
        rw [hentry] at hsome
        cases hsome
      | some known =>
        simp only [true_and, Except.ok.injEq, Prod.mk.injEq]
        constructor
        · rintro ⟨rfl, rfl⟩
          exact ⟨rfl, hentry⟩
        · rintro ⟨rfl, hsome⟩
          rw [hentry] at hsome
          exact ⟨rfl, Option.some.inj hsome⟩

theorem find_of_isPart (h : IsPart part whole) {path here : Path} {entry : Entry}
    (hfind : part.find ending path = .ok (here, entry)) :
    whole.find ending path = .ok (here, entry) := by
  obtain ⟨hfault, hfollow, hentry⟩ := find_eq_ok.1 hfind
  refine find_eq_ok.2 ⟨hfault, ?_, h.entry_eq hentry⟩
  -- What is found has an entry, so the walk has not ended at nothing.
  rcases follow_of_isPart h hfollow with hsame | hnone
  · exact hsame
  · rw [hentry] at hnone
    cases hnone

theorem get?_prune (t : Tree) (path other : Path) :
    (t.prune path).get? other = if isWithin path other then none else t.get? other := by
  rw [prune, SortedMap.get?_filter]
  cases t.get? other with
  | none => simp
  | some entry => cases isWithin path other <;> simp [Option.filter]

theorem isPart_touch {path : Path} {touched : Tree} (h : t.touch path = .ok touched) :
    IsPart t touched := by
  unfold touch openFile at h
  split at h
  · cases h
  rename_i here hlocate
  intro other entry hentry
  have hknown : ∀ content : ByteArray, t.entry? here = some (.file content) → here = other →
      entry = .file content := by
    rintro content hfile rfl
    unfold entry? at hfile
    split at hfile
    · cases hfile
    · rw [hentry] at hfile
      exact Option.some.inj hfile
  have hnew : t.entry? here = none → here ≠ other := by
    rintro hnone rfl
    unfold entry? at hnone
    split at hnone
    · cases hnone
    · rw [hentry] at hnone
      cases hnone
  split at h
  · rename_i hnone
    cases h
    rw [SortedMap.get?_insert, if_neg (hnew hnone), hentry]
  · rename_i content hfile
    cases h
    rw [SortedMap.get?_insert]
    split
    · rename_i heq
      rw [hknown content hfile heq]
      rfl
    · exact hentry
  · cases h

theorem get?_directory_of_touch {path other : Path} {touched : Tree} (h : t.touch path = .ok touched)
    (hother : touched.get? other = some .directory) : t.get? other = some .directory := by
  unfold touch at h
  cases hopen : t.openFile path with
  | error fault =>
    rw [hopen] at h
    cases h
  | ok opened =>
    rw [hopen] at h
    cases h
    rw [SortedMap.get?_insert] at hother
    split at hother
    · cases hother
    · exact hother

/-! ## Trees that lose a directory -/

/-- Nothing is lost but what lies below a directory. -/
def LosesBelow (whole : Tree) (directory : Path) (left : Tree) : Prop :=
  ∀ path entry, (isWithin directory path = true → path = directory) →
    whole.get? path = some entry → left.get? path = some entry

-- Of a directory whose removal has stopped, entries below it are gone at most.
theorem losesBelow_thin (t : Tree) (directory : Path) (gone : Path → Bool) :
    LosesBelow t directory (t.thin directory gone) := by
  intro path entry hpath hget
  rw [thin, SortedMap.get?_filter, hget, Option.filter_some, if_pos]
  cases hwithin : isWithin directory path with
  | false => rfl
  | true =>
    rw [hpath hwithin]
    simp

/-- Nothing is lost but an entry, if it is a directory, and what lies below it. -/
structure LosesOnly (whole : Tree) (gone : Path) (left : Tree) : Prop where
  others : ∀ path entry, isWithin gone path = false → whole.get? path = some entry →
    left.get? path = some entry
  directory : left.get? gone ≠ some .directory

theorem LosesOnly.touch {left touched : Tree} {gone path : Path} (h : LosesOnly whole gone left)
    (htouch : left.touch path = .ok touched) : LosesOnly whole gone touched where
  others other entry hother hget := isPart_touch htouch other entry (h.others other entry hother hget)
  directory hget := h.directory (get?_directory_of_touch htouch hget)

/-! ## One more name -/

/-- A directory that is reached from the root by directories. -/
def IsOpen (t : Tree) (directory : Path) : Prop :=
  ∀ front, front <+: directory → t.entry? front = some .directory

theorem isOpen_root (t : Tree) : IsOpen t [] := by
  intro front hfront
  rw [List.prefix_nil.1 hfront, entry?, if_pos rfl]

theorem isOpen_above {directory : Path} (h : IsOpen t directory) : IsOpen t directory.dropLast :=
  fun front hfront => h front (hfront.trans (List.dropLast_prefix directory))

theorem isOpen_child {directory : Path} (h : IsOpen t directory) {name : String}
    (hentry : t.entry? (directory ++ [name]) = some .directory) : IsOpen t (directory ++ [name]) := by
  intro front hfront
  rcases List.prefix_concat_iff.1 hfront with rfl | hfront
  · exact hentry
  · exact h front hfront

theorem isOpen_start {directory : Path} (h : IsOpen t directory) (target : String) :
    IsOpen t (start directory target).1 := by
  unfold start
  split
  · exact isOpen_root t
  · exact h

-- A walk that stops at a link has come to a directory.
theorem isOpen_of_walk {names directory : Path} (hopen : IsOpen t directory) {here : Path}
    {target : String} {rest : Path} (hwalk : t.walk ending directory names = .ok (.atLink here target rest)) :
    IsOpen t here := by
  induction names generalizing directory with
  | nil => cases hwalk
  | cons name names ih =>
    rw [walk] at hwalk
    split at hwalk
    · cases hwalk
    split at hwalk
    · cases hwalk
    split at hwalk
    · exact ih hopen hwalk
    split at hwalk
    · exact ih (isOpen_above hopen) hwalk
    dsimp only at hwalk
    split at hwalk
    · rename_i hentry
      exact ih (isOpen_child hopen hentry) hwalk
    · split at hwalk
      · cases hwalk
      · cases hwalk
        exact hopen
    · split at hwalk <;> cases hwalk
    · split at hwalk <;> cases hwalk

/-- How a walk goes on along more names. -/
def goOn (t : Tree) (ending : Ending) (more : Path) : Except FileFault Stop → Except FileFault Stop
  | .error fault => .error fault
  | .ok (.atLink directory target rest) => .ok (.atLink directory target (rest ++ more))
  | .ok (.arrived path) =>
    match t.entry? path with
    | some .directory => t.walk ending path more
    | some _ => .error .notDirectory
    | none => .error .missing

-- Links on the way are followed, and what is on the way has to be a directory.
theorem walk_append (hending : ending ≠ .opening) {more : Path} (hmore : more ≠ []) {names : Path}
    {directory : Path} (hopen : IsOpen t directory) :
    t.walk ending directory (names ++ more) = t.goOn ending more (t.walk .following directory names) := by
  induction names generalizing directory with
  | nil =>
    rw [List.nil_append, walk, goOn]
    simp only [hopen directory List.prefix_rfl]
  | cons name rest ih =>
    have hlast : rest ++ more ≠ [] := by simp [hmore]
    have hclosed : ∀ {e : Ending}, e ≠ .opening → ∀ condition, ¬ (e = .opening ∧ condition) :=
      fun he _ h => he h.1
    rw [List.cons_append, walk, walk, if_neg (hclosed hending _),
      if_neg (hclosed (by decide : Ending.following ≠ .opening) _)]
    by_cases hlong : longestName < name.utf8ByteSize
    · rw [if_pos hlong, if_pos hlong]
      rfl
    rw [if_neg hlong, if_neg hlong]
    by_cases hself : name = "" ∨ name = "."
    · rw [if_pos hself, if_pos hself]
      exact ih hopen
    rw [if_neg hself, if_neg hself]
    by_cases hup : name = ".."
    · rw [if_pos hup, if_pos hup]
      exact ih (isOpen_above hopen)
    rw [if_neg hup, if_neg hup]
    dsimp only
    cases hentry : t.entry? (directory ++ [name]) with
    | none =>
      dsimp only
      rw [if_neg hlast]
      by_cases hend : rest = []
      · rw [if_pos hend, goOn, hentry]
      · rw [if_neg hend, goOn]
    | some entry =>
      cases entry with
      | directory => exact ih (isOpen_child hopen hentry)
      | link target =>
        dsimp only
        rw [if_neg (fun h : rest ++ more = [] ∧ _ => hlast h.1),
          if_neg (fun h : rest = [] ∧ Ending.following = .staying => absurd h.2 (by decide)), goOn]
      | file content =>
        dsimp only
        rw [if_neg hlast]
        by_cases hend : rest = []
        · rw [if_pos hend, goOn, hentry]
        · rw [if_neg hend, goOn]

-- What lies at the end of a longer path lies in the directory at the end of the shorter one.
theorem follow_append (hending : ending ≠ .opening) {more : Path} (hmore : more ≠ [])
    (hstays : ∀ here directory target rest, t.walk ending here more ≠ .ok (.atLink directory target rest))
    {links : Nat} {names directory path : Path} (hopen : IsOpen t directory)
    (hfollow : t.follow ending links directory (names ++ more) = .ok path) :
    ∃ here, t.follow .following links directory names = .ok here ∧
      t.entry? here = some .directory ∧ t.walk ending here more = .ok (.arrived path) := by
  induction links generalizing directory names with
  | zero => cases hfollow
  | succ links ih =>
    rw [follow, walk_append hending hmore hopen] at hfollow
    rw [follow]
    cases hwalk : t.walk .following directory names with
    | error fault =>
      rw [hwalk] at hfollow
      cases hfollow
    | ok stop =>
      rw [hwalk] at hfollow
      cases stop with
      | arrived here =>
        rw [goOn] at hfollow
        dsimp only
        split at hfollow
        · cases hfollow
        · rename_i stop hgone
          cases hfollow
          split at hgone
          · rename_i hentry
            exact ⟨here, rfl, hentry, hgone⟩
          · cases hgone
          · cases hgone
        · rename_i hgone
          split at hgone
          · exact absurd hgone (hstays _ _ _ _)
          · cases hgone
          · cases hgone
      | atLink here target rest =>
        -- the names behind the link and those that are added follow its target
        rw [goOn] at hfollow
        dsimp only at hfollow ⊢
        rw [← List.append_assoc] at hfollow
        exact ih (isOpen_start (isOpen_of_walk hopen hwalk) target) hfollow

-- From a directory that the shorter path leads to, the rest of the longer path is a walk.
theorem follow_append_of (hending : ending ≠ .opening) {more : Path} (hmore : more ≠ []) {links : Nat}
    {names directory here : Path} (hopen : IsOpen t directory)
    (hfollow : t.follow .following links directory names = .ok here)
    (hentry : t.entry? here = some .directory) :
    match t.walk ending here more with
    | .error fault => t.follow ending links directory (names ++ more) = .error fault
    | .ok (.arrived path) => t.follow ending links directory (names ++ more) = .ok path
    | .ok (.atLink ..) => True := by
  induction links generalizing directory names with
  | zero => cases hfollow
  | succ links ih =>
    rw [follow] at hfollow ⊢
    rw [walk_append hending hmore hopen]
    cases hwalk : t.walk .following directory names with
    | error fault =>
      rw [hwalk] at hfollow
      cases hfollow
    | ok stop =>
      rw [hwalk] at hfollow
      cases stop with
      | arrived path =>
        cases hfollow
        simp only [goOn, hentry]
        rcases t.walk ending here more with fault | ⟨path | ⟨directory, target, rest⟩⟩
        · rfl
        · rfl
        · trivial
      | atLink at' target rest =>
        simp only [goOn]
        rw [← List.append_assoc]
        exact ih (isOpen_start (isOpen_of_walk hopen hwalk) target) hfollow

end Registry.Tree
