import Registry.Files.Change

/-! # Step — a change that is made to a tree from outside

Deliveries arrive and operators tidy up while an inbox is watched. Each such change is a step on
the tree; one that fails leaves the tree as it was, except for the directories that were made on the
way to a file. -/

namespace Registry

attribute [local instance (2000)] ByteArray.instDecidableEq

inductive FileStep where
  -- A directory, with those above it.
  | makeDirectory (path : Path)
  -- A file, with the directories above it.
  | write (path : Path) (content : ByteArray)
  | remove (path : Path)
  | rename (source target : Path)
  | link (target : String) (path : Path)
  deriving DecidableEq

namespace FileStep

/-- The outcome of a change, which is false where there was nothing to remove. -/
def run (t : Tree) : FileStep → Except FileFault Bool × Tree
  | makeDirectory path => done (t.makeDirectories path)
  | write path content =>
    match path.above?.elim (.ok (), t) t.makeDirectories with
    | (.error fault, t) => (.error fault, t)
    | (.ok (), t) => done (t.changed (t.write path content))
  | remove path =>
    let (gone, t) := t.remove path
    (.ok gone, t)
  | rename source target => done (t.changed (t.rename source target))
  | link target path => done (t.changed (t.makeLink target path))
where
  done : Except FileFault Unit × Tree → Except FileFault Bool × Tree
    | (answer, t) => (answer.map fun _ => true, t)

end FileStep

end Registry
