import Registry.Proofs.Files.Walk
import Registry.Proofs.Text.ByteOrder

/-!
# Children — the entries of a directory by their names

The names in a directory are listed once each and in ascending order, and the path of a directory
with one of them behind it leads to the entry of that name and to nothing else.
-/

namespace Registry.Tree

variable {t : Tree} {directory : Path} {name : String}

/-! ## Listing -/

theorem isEntryName_iff : isEntryName name = true ↔ name ≠ "" ∧ name ≠ "." ∧ name ≠ ".." := by
  simp [isEntryName, and_assoc]

theorem childName?_eq_some {path : Path} :
    childName? directory path = some name ↔ path = directory ++ [name] ∧ isEntryName name = true := by
  unfold childName?
  rcases List.eq_nil_or_concat path with rfl | ⟨front, last, rfl⟩
  · simp
  · simp only [List.concat_eq_append, List.getLast?_append, List.getLast?_singleton, Option.some_or,
      List.dropLast_concat, Bool.and_eq_true, decide_eq_true_eq, Option.ite_none_right_eq_some,
      Option.some.injEq]
    constructor
    · rintro ⟨⟨rfl, hname⟩, rfl⟩
      exact ⟨rfl, hname⟩
    · rintro ⟨heq, hname⟩
      obtain ⟨rfl, hlast⟩ := List.append_inj' heq rfl
      cases hlast
      exact ⟨⟨rfl, hname⟩, rfl⟩

theorem mem_children {entry : Entry} : (name, entry) ∈ t.children directory ↔
    isEntryName name = true ∧ t.get? (directory ++ [name]) = some entry := by
  rw [children, List.mem_filterMap, ← SortedMap.mem_entries_iff]
  constructor
  · rintro ⟨⟨path, known⟩, hmem, hchild⟩
    obtain ⟨found, hfound, heq⟩ := Option.map_eq_some_iff.1 hchild
    cases heq
    obtain ⟨rfl, hname⟩ := childName?_eq_some.1 hfound
    exact ⟨hname, hmem⟩
  · rintro ⟨hname, hmem⟩
    refine ⟨_, hmem, ?_⟩
    rw [childName?_eq_some.2 ⟨rfl, hname⟩, Option.map_some]

theorem name_lt_of_path_lt {a b : String} (h : directory ++ [a] < directory ++ [b]) : a < b := by
  induction directory with
  | nil =>
    rcases List.cons_lt_cons_iff.1 h with hlt | ⟨-, hnil⟩
    · exact hlt
    · exact absurd hnil (List.not_lt_nil _)
  | cons first rest ih =>
    rw [List.cons_append, List.cons_append] at h
    rcases List.cons_lt_cons_iff.1 h with hlt | ⟨-, hrest⟩
    · exact absurd hlt (String.lt_irrefl first)
    · exact ih hrest

theorem children_ascending (t : Tree) (directory : Path) :
    (t.children directory).Pairwise fun a b => a.1 < b.1 := by
  apply List.Pairwise.filterMap _ _ t.ascending
  intro a b hlt x hx y hy
  obtain ⟨m, hm, rfl⟩ := Option.map_eq_some_iff.1 hx
  obtain ⟨n, hn, rfl⟩ := Option.map_eq_some_iff.1 hy
  obtain ⟨ha, -⟩ := childName?_eq_some.1 hm
  obtain ⟨hb, -⟩ := childName?_eq_some.1 hn
  rw [ha, hb] at hlt
  exact name_lt_of_path_lt hlt

/-! ## Finding -/

theorem pathFault?_of_append {path more : Path} (h : pathFault? (path ++ more) = none) :
    pathFault? path = none := by
  unfold pathFault? at h ⊢
  split at h
  · cases h
  rename_i hzero
  split at h
  · cases h
  rename_i hsize
  have hzero' : ¬ path.hasZero = true := by
    intro hpath
    apply hzero
    rw [Path.hasZero, List.any_append, Bool.or_eq_true]
    exact .inl hpath
  have hsize' : ¬ pathLimit ≤ path.byteSize := by
    intro hpath
    apply hsize
    rw [Path.byteSize, List.map_append, List.sum_append]
    rw [Path.byteSize] at hpath
    omega
  rw [if_neg hzero', if_neg hsize']

-- The walk along one name ends at the entry of that name, whatever it is.
theorem walk_staying_name (hname : isEntryName name = true) (here : Path) :
    t.walk .staying here [name] =
      if longestName < name.utf8ByteSize then .error .nameTooLong
      else .ok (.arrived (here ++ [name])) := by
  obtain ⟨hempty, hdot, hdots⟩ := isEntryName_iff.1 hname
  have hself : ¬ (name = "" ∨ name = ".") := not_or.2 ⟨hempty, hdot⟩
  rw [walk, if_neg (fun h : Ending.staying = .opening ∧ _ => absurd h.1 (by decide))]
  by_cases hlong : longestName < name.utf8ByteSize
  · rw [if_pos hlong, if_pos hlong]
  rw [if_neg hlong, if_neg hlong, if_neg hself, if_neg hdots]
  dsimp only
  split
  · rw [walk]
  · rw [if_pos ⟨rfl, rfl⟩]
  · rw [if_pos rfl]
  · rw [if_pos rfl]

theorem eq_arrived_of_walk (hname : isEntryName name = true) {here : Path} {stop : Stop}
    (hwalk : t.walk .staying here [name] = .ok stop) : stop = .arrived (here ++ [name]) := by
  rw [walk_staying_name hname] at hwalk
  split at hwalk
  · cases hwalk
  · cases hwalk
    rfl

theorem entry?_child (here : Path) (name : String) :
    t.entry? (here ++ [name]) = t.get? (here ++ [name]) := by
  rw [ entry?, if_neg (by simp)]

theorem openDirectory_eq_ok {path root : Path} :
    t.openDirectory path = .ok root ↔ t.find .following path = .ok (root, .directory) := by
  unfold openDirectory
  rcases t.find .following path with fault | ⟨here, entry⟩
  · simp
  · cases entry <;> simp

theorem openDirectory_of_isPart {part whole : Tree} (h : IsPart part whole) {path root : Path}
    (hopen : part.openDirectory path = .ok root) : whole.openDirectory path = .ok root :=
  openDirectory_eq_ok.2 (find_of_isPart h (openDirectory_eq_ok.1 hopen))

-- What is found under one more name lies under it in the directory that the path leads to.
theorem find_child (hname : isEntryName name = true) {path here : Path} {entry : Entry}
    (hfind : t.find .staying (path ++ [name]) = .ok (here, entry)) :
    ∃ root, t.openDirectory path = .ok root ∧ here = root ++ [name] ∧
      t.get? (root ++ [name]) = some entry := by
  obtain ⟨hfault, hfollow, hentry⟩ := find_eq_ok.1 hfind
  -- The last name is not followed where it is a link.
  have hnolink : ∀ (at' directory : Path) (target : String) (rest : Path),
      t.walk .staying at' [name] ≠ .ok (.atLink directory target rest) := by
    intro at' directory target rest hlink
    cases eq_arrived_of_walk hname hlink
  obtain ⟨root, hfront, hroot, hwalk⟩ := follow_append (by decide) (by simp) hnolink
    (isOpen_root t) hfollow
  cases eq_arrived_of_walk hname hwalk
  refine ⟨root, ?_, rfl, ?_⟩
  · exact openDirectory_eq_ok.2 (find_eq_ok.2 ⟨pathFault?_of_append hfault, hfront, hroot⟩)
  · rw [← entry?_child root name, hentry]

theorem pathFault?_ne_missing (path : Path) : pathFault? path ≠ some .missing := by
  unfold pathFault?
  split
  · simp
  · split <;> simp

-- A directory in the one that the path leads to is there under one more name, or the path is too
-- long with it.
theorem find_child_directory (hname : isEntryName name = true) {path root : Path}
    (hopen : t.openDirectory path = .ok root) (hget : t.get? (root ++ [name]) = some .directory) :
    t.find .staying (path ++ [name]) ≠ .error .missing := by
  have hentry : t.entry? (root ++ [name]) = some .directory := by rw [entry?_child root name, hget]
  obtain ⟨-, hfollow, hroot⟩ := find_eq_ok.1 (openDirectory_eq_ok.1 hopen)
  have hlonger := follow_append_of (by decide : Ending.staying ≠ .opening)
    (List.cons_ne_nil name []) (isOpen_root t) hfollow hroot
  rw [walk_staying_name hname] at hlonger
  unfold find locate
  cases hfault : pathFault? (path ++ [name]) with
  | some fault =>
    intro hmissing
    cases hmissing
    exact pathFault?_ne_missing _ hfault
  | none =>
    dsimp only
    by_cases hlong : longestName < name.utf8ByteSize
    · rw [if_pos hlong] at hlonger
      dsimp only at hlonger
      rw [hlonger]
      simp
    · rw [if_neg hlong] at hlonger
      dsimp only at hlonger
      rw [hlonger]
      dsimp only
      rw [hentry]
      simp

end Registry.Tree
