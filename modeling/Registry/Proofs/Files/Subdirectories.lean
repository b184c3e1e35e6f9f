import Registry.Proofs.Files.Children

/-!
# Subdirectories — the directories in a directory, and the tree without them

A path with the name of a subdirectory behind it leads to this subdirectory, as long as it is not too
long.  What lies in a subdirectory decides on its size alone.  The bare tree has no subdirectories; it
becomes no smaller where one of them is taken away.
-/

namespace Registry.Tree

variable {t before after : Tree} {ending : Ending} {path root : Path} {name : String}

/-! ## Finding -/

theorem walk_subdirectory (hending : ending ≠ .opening) (hname : isEntryName name = true)
    (hentry : t.entry? (root ++ [name]) = some .directory) :
    t.walk ending root [name] =
      if longestName < name.utf8ByteSize then .error .nameTooLong
      else .ok (.arrived (root ++ [name])) := by
  obtain ⟨hempty, hdot, hdots⟩ := isEntryName_iff.1 hname
  rw [walk, if_neg fun hopening => hending hopening.1]
  by_cases hlong : longestName < name.utf8ByteSize
  · rw [if_pos hlong, if_pos hlong]
  rw [if_neg hlong, if_neg hlong, if_neg (not_or.2 ⟨hempty, hdot⟩), if_neg hdots]
  dsimp only
  rw [hentry]
  dsimp only
  rw [walk]

/-- The path of a directory can be asked for with a name behind it. -/
def CanName (path : Path) (name : String) : Prop :=
  pathFault? (path ++ [name]) = none ∧ name.utf8ByteSize ≤ longestName

section

variable (hname : isEntryName name = true) (hopen : t.openDirectory path = .ok root)
  (hget : t.get? (root ++ [name]) = some .directory)
include hname hopen hget

theorem follow_subdirectory (hending : ending ≠ .opening) :
    t.follow ending linkLimit [] (path ++ [name]) =
      if longestName < name.utf8ByteSize then .error .nameTooLong else .ok (root ++ [name]) := by
  have hentry : t.entry? (root ++ [name]) = some .directory := by rw [entry?_child root name, hget]
  obtain ⟨-, hfollow, hroot⟩ := find_eq_ok.1 (openDirectory_eq_ok.1 hopen)
  have hlonger := follow_append_of hending (List.cons_ne_nil name []) (isOpen_root t) hfollow hroot
  rw [walk_subdirectory hending hname hentry] at hlonger
  by_cases hlong : longestName < name.utf8ByteSize
  · rw [if_pos hlong] at hlonger ⊢
    exact hlonger
  · rw [if_neg hlong] at hlonger ⊢
    exact hlonger

theorem find_subdirectory (hending : ending ≠ .opening) (hcan : CanName path name) :
    t.find ending (path ++ [name]) = .ok (root ++ [name], .directory) := by
  have hfollow := follow_subdirectory hname hopen hget hending
  rw [if_neg (Nat.not_lt.2 hcan.2)] at hfollow
  exact find_eq_ok.2 ⟨hcan.1, hfollow, by rw [entry?_child root name, hget]⟩

-- What is found was asked for.
theorem canName_of_find (hending : ending ≠ .opening) {found : Path × Entry}
    (hfind : t.find ending (path ++ [name]) = .ok found) : CanName path name := by
  obtain ⟨hfault, hfollow, -⟩ := find_eq_ok.1 hfind
  refine ⟨hfault, Nat.not_lt.1 fun hlong => ?_⟩
  rw [follow_subdirectory hname hopen hget hending, if_pos hlong] at hfollow
  cases hfollow

end

/-! ## Parts of a directory -/

theorem isWithin_iff {directory : Path} : isWithin directory path = true ↔ directory <+: path :=
  List.isPrefixOf_iff_prefix

-- What lies in a directory lies in the one above.
theorem isWithin_of_child {p : Path} (h : isWithin (root ++ [name]) p = true) :
    isWithin root p = true :=
  isWithin_iff.2 ((List.prefix_append root [name]).trans (isWithin_iff.1 h))

theorem isWithin_child (root : Path) (name : String) : isWithin root (root ++ [name]) = true :=
  isWithin_iff.2 (List.prefix_append root [name])

-- A path lies in one child at most.
theorem eq_of_isWithin_child {other : String} {p : Path} (h : isWithin (root ++ [name]) p = true)
    (hother : isWithin (root ++ [other]) p = true) : name = other := by
  obtain ⟨rest, rfl⟩ := isWithin_iff.1 h
  obtain ⟨rest', heq⟩ := isWithin_iff.1 hother
  rw [List.append_assoc, List.append_assoc] at heq
  have htail := List.append_cancel_left heq
  exact (List.cons.inj htail).1.symm

/-- Two trees have the same entries in a directory. -/
def AgreeWithin (directory : Path) (before after : Tree) : Prop :=
  ∀ p, isWithin directory p = true → after.get? p = before.get? p

theorem AgreeWithin.sizeBelow {directory : Path} (h : AgreeWithin directory before after) :
    after.sizeBelow directory = before.sizeBelow directory := by
  -- A tree of the entries in the directory alone has the same size.
  have hsame : (after.filter fun p _ => isWithin directory p) =
      before.filter fun p _ => isWithin directory p := by
    apply SortedMap.ext_get?
    intro p
    rw [SortedMap.get?_filter, SortedMap.get?_filter]
    by_cases hp : isWithin directory p = true
    · rw [h p hp]
    · have hnone : ∀ entry : Option Entry, (entry.filter fun _ => isWithin directory p) = none := by
        intro entry
        rw [Option.filter_eq_none_iff]
        exact fun _ _ => hp
      rw [hnone, hnone]
  exact congrArg (fun part : Tree =>
    part.entries.foldl (fun sum e => sum + UInt64.ofNat e.2.size) 0) hsame

attribute [local instance (2000)] Zero.ofOfNat0

-- Sizes that are added up in 64 bits come to the last 64 bits of their sum.
theorem foldl_size (entries : List (Path × Entry)) (sum : UInt64) :
    entries.foldl (fun sum e => sum + UInt64.ofNat e.2.size) sum =
      sum + .ofNat (entries.map fun e => e.2.size).sum := by
  induction entries generalizing sum with
  | nil => exact (UInt64.add_zero sum).symm
  | cons e rest ih =>
    rw [List.foldl_cons, ih, List.map_cons, List.sum_cons, UInt64.ofNat_add, UInt64.add_assoc]

theorem sizeBelow_eq (t : Tree) (directory : Path) :
    t.sizeBelow directory = .ofNat (t.totalBelow directory) := by
  rw [Tree.sizeBelow, foldl_size, UInt64.zero_add, totalBelow]

-- A new entry adds its bytes.
theorem totalBelow_insert {directory : Path} {entry : Entry} (hnew : t.get? path = none)
    (hwithin : isWithin directory path = true) :
    totalBelow (t.insert path entry) directory = t.totalBelow directory + entry.size := by
  have hperm : (t.insert path entry).entries.Perm ((path, entry) :: t.entries) :=
    SortedMap.perm_insertEntry hnew
  rw [totalBelow, ((hperm.filter _).map _).sum_nat,
    List.filter_cons_of_pos (p := fun e : Path × Entry => isWithin directory e.1) hwithin,
    List.map_cons, List.sum_cons, totalBelow, Nat.add_comm]

/-! ## The bare tree -/

/-- The path lies in a subdirectory of a directory, or is one. -/
def inSubdirectory (t : Tree) (root p : Path) : Bool :=
  (t.children root).any fun e => e.2.isDirectory && isWithin (root ++ [e.1]) p

theorem inSubdirectory_iff {p : Path} : t.inSubdirectory root p = true ↔
    ∃ name, isEntryName name = true ∧ t.get? (root ++ [name]) = some .directory ∧
      isWithin (root ++ [name]) p = true := by
  rw [inSubdirectory, List.any_eq_true]
  constructor
  · rintro ⟨⟨name, entry⟩, hmem, hwithin⟩
    obtain ⟨hdirectory, hwithin⟩ := Bool.and_eq_true_iff.1 hwithin
    obtain ⟨hname, hget⟩ := mem_children.1 hmem
    cases entry with
    | directory => exact ⟨name, hname, hget, hwithin⟩
    | file content => cases hdirectory
    | link target => cases hdirectory
  · rintro ⟨name, hname, hget, hwithin⟩
    exact ⟨(name, .directory), mem_children.2 ⟨hname, hget⟩, hwithin⟩

/-- The tree without the subdirectories of a directory. -/
def bare (t : Tree) (root : Path) : Tree := t.filter fun p _ => !t.inSubdirectory root p

theorem get?_bare_eq_some {p : Path} {entry : Entry} : (t.bare root).get? p = some entry ↔
    t.get? p = some entry ∧ t.inSubdirectory root p = false := by
  rw [bare, SortedMap.get?_filter, Option.filter_eq_some_iff, Bool.not_eq_true']

theorem isPart_bare (t : Tree) (root : Path) : IsPart (t.bare root) t :=
  fun _ _ h => (get?_bare_eq_some.1 h).1

theorem isPart_prune (t : Tree) (gone : Path) : IsPart (t.prune gone) t := by
  intro p entry h
  rw [get?_prune] at h
  split at h
  · cases h
  · exact h

-- A subdirectory is not in the bare tree, so it may as well be gone.
theorem isPart_bare_prune (hname : isEntryName name = true)
    (hget : t.get? (root ++ [name]) = some .directory) :
    IsPart (t.bare root) ((t.prune (root ++ [name])).bare root) := by
  intro p entry h
  obtain ⟨hentry, hout⟩ := get?_bare_eq_some.1 h
  have hkept : ¬ isWithin (root ++ [name]) p = true := by
    intro hwithin
    rw [inSubdirectory_iff.2 ⟨name, hname, hget, hwithin⟩] at hout
    cases hout
  refine get?_bare_eq_some.2 ⟨by rw [get?_prune, if_neg hkept, hentry], ?_⟩
  rw [Bool.eq_false_iff] at hout ⊢
  intro hin
  obtain ⟨other, hother, hthere, hwithin⟩ := inSubdirectory_iff.1 hin
  exact hout (inSubdirectory_iff.2 ⟨other, hother, isPart_prune _ _ _ _ hthere, hwithin⟩)

end Registry.Tree
