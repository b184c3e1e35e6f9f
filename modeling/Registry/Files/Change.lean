import Registry.Files.Tree

/-! # Change — trees with other entries

Each operation gives the tree after it, or the fault for which it is refused. A refusal leaves the
tree as it was, except that directories made on the way to another one stay. The removal of a directory
takes one entry after the other, so it may also stop half-way. -/

namespace Registry

/-- What stops the removal of a directory half-way. -/
structure Halt where
  fault : FileFault
  -- What is gone already stops no removal.
  fault_ne : fault ≠ .missing
  -- The entry at a path was removed before, with all that lay below it.
  gone : Path → Bool

namespace Tree

/-! ## Directories -/

def makeDirectory (t : Tree) (path : Path) : Except FileFault Tree :=
  match t.place path with
  | .error fault => .error fault
  | .ok { directory, name := some name, .. } =>
    match t.child? directory name with
    | .error fault => .error fault
    | .ok (some _) => .error .present
    | .ok none => .ok (t.insert (directory ++ [name]) .directory)
  | .ok _ => .error .present

-- There is a directory at a path, links followed.
def hasDirectory (t : Tree) (path : Path) : Bool := (t.openDirectory path).isOk

/-- The tree with a directory at a path, made there if there is none. -/
def ensureDirectory (t : Tree) (path : Path) : Except FileFault Tree :=
  match t.makeDirectory path with
  | .ok t => .ok t
  | .error fault => if t.hasDirectory path then .ok t else .error fault

/-- The outcome of a change, with the tree that was there if it failed. -/
def changed (t : Tree) : Except FileFault Tree → Except FileFault Unit × Tree
  | .error fault => (.error fault, t)
  | .ok t => (.ok (), t)

/-- The tree with a directory at a path and with the directories above it, as far as the bound
goes. Those above it stay where the last one fails. -/
def makeDirectoriesWithin (t : Tree) : Nat → Path → Except FileFault Unit × Tree
  | 0, path => t.changed (t.ensureDirectory path)
  | bound + 1, path =>
    match t.makeDirectory path, path.above? with
    | .error .missing, some above =>
      match t.makeDirectoriesWithin bound above with
      | (.error fault, t) => (.error fault, t)
      | (.ok (), t) => t.changed (t.ensureDirectory path)
    | _, _ => t.changed (t.ensureDirectory path)

/-- The tree with a directory at a path and with the directories above it. -/
def makeDirectories (t : Tree) (path : Path) : Except FileFault Unit × Tree :=
  t.makeDirectoriesWithin path.length path

/-! ## Files -/

/-- Where a file is that is opened to be written, links followed, and its content if it is there. -/
def openFile (t : Tree) (path : Path) : Except FileFault (Path × Option ByteArray) :=
  match t.locate .opening path with
  | .error fault => .error fault
  | .ok here =>
    match t.entry? here with
    | none => .ok (here, none)
    | some (.file content) => .ok (here, some content)
    | some _ => .error .isDirectory

/-- The tree with a file at a path, links followed; a file that is there is replaced. -/
def write (t : Tree) (path : Path) (content : ByteArray) : Except FileFault Tree :=
  (t.openFile path).map fun (here, _) => t.insert here (.file content)

/-- The tree with a file at a path, links followed; a file that is there stays as it is. -/
def touch (t : Tree) (path : Path) : Except FileFault Tree :=
  (t.openFile path).map fun (here, content) =>
    t.insert here (.file (content.getD ByteArray.empty))

/-! ## Removal -/

-- The tree without an entry and all that lies below it.
def prune (t : Tree) (path : Path) : Tree := t.filter fun p _ => !isWithin path p

-- The tree without what lies below a directory.
def clear (t : Tree) (directory : Path) : Tree :=
  t.filter fun p _ => !isWithin directory p || p = directory

/-- The tree without an entry and what lies below it, and whether the entry is gone. Of a link, only
the link goes. A directory is emptied first; if its path is not that of its own name, then it
stays. -/
def remove (t : Tree) (path : Path) : Bool × Tree :=
  match t.find .staying path with
  | .error _ => (false, t)
  | .ok (here, .directory) =>
    let cleared := t.clear here
    match cleared.place path with
    | .ok { directory, name := some name, .. } =>
      if here = directory ++ [name] then (true, cleared.prune here) else (false, cleared)
    | _ => (false, cleared)
  | .ok (here, _) => (true, t.prune here)

/-- The tree without those entries below a directory that are gone, each with all that lies below
it. -/
def thin (t : Tree) (directory : Path) (gone : Path → Bool) : Tree :=
  t.filter fun p _ => !(isWithin directory p &&
    (List.range (p.length - directory.length)).any fun n => gone (p.take (directory.length + n + 1)))

/-- The tree without a directory and what lies below it, or without a part of that if the removal
stops; of a link, only the link goes, and a file is refused. -/
def removeDirectory (t : Tree) (halt : Option Halt) (path : Path) : Except FileFault Unit × Tree :=
  match t.find .staying path, halt with
  | .error fault, _ => (.error fault, t)
  | .ok (_, .file _), _ => (.error .notDirectory, t)
  | .ok (here, _), none => (.ok (), t.prune here)
  | .ok (here, _), some halt => (.error halt.fault, t.thin here halt.gone)

/-! ## Links -/

/-- From this number of bytes on, what a link leads to is too long. -/
def targetLimit : Nat := 4096

def makeLink (t : Tree) (target : String) (path : Path) : Except FileFault Tree :=
  if target.toList.contains '\x00' || path.hasZero then .error .zeroInName
  else if target = "" then .error .missing
  else if targetLimit ≤ target.utf8ByteSize then .error .nameTooLong
  else
    match t.place path with
    | .error fault => .error fault
    | .ok { directory, name := some name, slash } =>
      match t.child? directory name with
      | .error fault => .error fault
      | .ok (some _) => .error .present
      | .ok none =>
        if slash then .error .missing else .ok (t.insert (directory ++ [name]) (.link target))
    | .ok _ => .error .present

/-! ## Moves -/

/-- The tree with an entry and what lies below it at another path. -/
def move (t : Tree) (source target : Path) : Tree :=
  t.entries.foldl (fun moved e =>
    if isWithin source e.1 then moved.insert (target ++ e.1.drop source.length) e.2 else moved)
    ((t.prune source).prune target)

/-- The tree with the entry at one path moved to another one. What is there is replaced, if it is
of the same kind and, where it is a directory, empty. -/
def replace (t : Tree) (here there : Path) (entry : Entry) : Except FileFault Tree :=
  if here = there then .ok t
  else if isWithin here there then .error .invalid
  else if isWithin there here then .error .notEmpty
  else
    match t.entry? there with
    | none => .ok (t.move here there)
    | some old =>
      if entry.isDirectory && !old.isDirectory then .error .notDirectory
      else if !entry.isDirectory && old.isDirectory then .error .isDirectory
      else if old.isDirectory && !(t.children there).isEmpty then .error .notEmpty
      else .ok (t.move here there)

/-- The tree with an entry moved to another path. Both directories are looked for before either
entry, and only a directory may have a slash behind its name. -/
def rename (t : Tree) (source target : Path) : Except FileFault Tree :=
  if source.hasZero || target.hasZero then .error .zeroInName
  else
    match t.place source, t.place target with
    | .error fault, _ | _, .error fault => .error fault
    | .ok { directory := above, name := some old, slash := oldSlash },
      .ok { directory, name := some new, slash := newSlash } =>
      match t.child? above old, t.child? directory new with
      | .error fault, _ => .error fault
      | .ok none, _ => .error .missing
      | _, .error fault => .error fault
      | .ok (some entry), _ =>
        if (oldSlash || newSlash) && !entry.isDirectory then .error .notDirectory
        else t.replace (above ++ [old]) (directory ++ [new]) entry
    | _, _ => .error .busy

end Tree

end Registry
