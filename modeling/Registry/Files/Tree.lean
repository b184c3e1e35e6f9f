import Registry.Files.Fault
import Registry.Files.Path
import Registry.SortedMap

/-! # Tree — directories, files and links

A tree has an entry for every path below its root: a directory, a file with its content, or a link
to another path. Its root is the topmost directory of all, so every path starts there. The entries are
kept in the order of their paths, so the names in a directory come in ascending order. `locate` follows
links and gives the path where something is; `place` gives the directory in which a new entry would be,
and its name there. -/

namespace Registry

attribute [local instance (2000)] ByteArray.instDecidableEq

inductive Entry where
  | directory
  | file (content : ByteArray)
  | link (target : String)
  deriving DecidableEq

namespace Entry

/-- The number of bytes that an entry counts; only files count any. -/
def size : Entry → Nat
  | file content => content.size
  | _ => 0

def isDirectory : Entry → Bool
  | directory => true
  | _ => false

end Entry

abbrev Tree := SortedMap Path Entry

namespace Tree

/-- The entry at a path; the root is a directory. -/
def entry? (t : Tree) (path : Path) : Option Entry :=
  if path = [] then some .directory else t.get? path

/-! ## Following links -/

/-- Where a walk ends: at a path whose entry may be missing, or in front of a link. -/
inductive Stop where
  | arrived (path : Path)
  | atLink (directory : Path) (target : String) (rest : Path)

/-- What a walk does at its very end. -/
inductive Ending where
  -- A link is not followed.
  | staying
  | following
  -- A link is followed to a file, which may be new; so the last name has to be one.
  | opening
  deriving DecidableEq

def longestName : Nat := 255

/-- A walk from a directory along some names, up to the first link that has to be followed. The
directory above the root is the root. -/
def walk (t : Tree) (ending : Ending) (directory : Path) : Path → Except FileFault Stop
  | [] => .ok (.arrived directory)
  | name :: rest =>
    if ending = .opening ∧ (rest = [""] ∨ rest = [] ∧ (name = "." ∨ name = "..")) then
      .error .isDirectory
    else if longestName < name.utf8ByteSize then .error .nameTooLong
    else if name = "" ∨ name = "." then t.walk ending directory rest
    else if name = ".." then t.walk ending directory.dropLast rest
    else
      let here := directory ++ [name]
      match t.entry? here with
      | some .directory => t.walk ending here rest
      | some (.link target) =>
        if rest = [] ∧ ending = .staying then .ok (.arrived here)
        else .ok (.atLink directory target rest)
      | some (.file _) => if rest = [] then .ok (.arrived here) else .error .notDirectory
      | none => if rest = [] then .ok (.arrived here) else .error .missing

/-- Where a walk along the target of a link starts, with the names that it goes along. -/
def start (directory : Path) (target : String) : Path × Path :=
  (if target.startsWith "/" then [] else directory, Path.ofText target)

/-- A walk that goes on at the target of each link, for a limited number of links. -/
def follow (t : Tree) (ending : Ending) : Nat → Path → Path → Except FileFault Path
  | 0, _, _ => .error .tooManyLinks
  | links + 1, directory, names =>
    match t.walk ending directory names with
    | .error fault => .error fault
    | .ok (.arrived path) => .ok path
    | .ok (.atLink directory target rest) =>
      let (directory, names) := start directory target
      t.follow ending links directory (names ++ rest)

/-- The number of links that are followed on the way to one entry. -/
def linkLimit : Nat := 41

/-- From this number of bytes on, the text of a path behind its first slash is too long. -/
def pathLimit : Nat := 4095

def pathFault? (path : Path) : Option FileFault :=
  if path.hasZero then some .zeroInName
  else if pathLimit ≤ path.byteSize then some .nameTooLong
  else none

/-- The path that is meant by a path: the same without links and dots in it. The entry there may be
missing, but its directory is not. -/
def locate (t : Tree) (ending : Ending) (path : Path) : Except FileFault Path :=
  match pathFault? path with
  | some fault => .error fault
  | none => t.follow ending linkLimit [] path

/-- The entry that is meant by a path, with the path where it is. -/
def find (t : Tree) (ending : Ending) (path : Path) : Except FileFault (Path × Entry) :=
  match t.locate ending path with
  | .error fault => .error fault
  | .ok here =>
    match t.entry? here with
    | some entry => .ok (here, entry)
    | none => .error .missing

-- There is an entry at a path, links followed.
def present (t : Tree) (path : Path) : Bool := (t.find .following path).isOk

-- The directory that is meant by a path, where it is.
def openDirectory (t : Tree) (path : Path) : Except FileFault Path :=
  match t.find .following path with
  | .error fault => .error fault
  | .ok (here, .directory) => .ok here
  | .ok _ => .error .notDirectory

/-- Where the last name of a path stands. -/
structure Place where
  -- The directory in which it stands.
  directory : Path
  -- The last name; the path may end with dots instead.
  name : Option String
  -- A slash stands behind it.
  slash : Bool
  deriving DecidableEq

-- The entry with a name in a directory, if there is one.
def child? (t : Tree) (directory : Path) (name : String) : Except FileFault (Option Entry) :=
  if longestName < name.utf8ByteSize then .error .nameTooLong
  else .ok (t.entry? (directory ++ [name]))

/-- The place of the last name of a path, which may be new; a link there is not followed. -/
def place (t : Tree) (path : Path) : Except FileFault Place :=
  let names := path.withoutSlash
  match pathFault? path with
  | some fault => .error fault
  | none =>
    match t.openDirectory names.dropLast with
    | .error fault => .error fault
    | .ok directory =>
      let slash := names ≠ path
      match names.getLast? with
      | none | some "." | some ".." => .ok { directory, name := none, slash }
      | some name => .ok { directory, name := some name, slash }

/-! ## Reading -/

/-- The name is one of an entry, and leads neither to a directory itself nor out of it. -/
def isEntryName (name : String) : Bool := name != "" && name != "." && name != ".."

def childName? (directory path : Path) : Option String :=
  match path.getLast? with
  | some name => if path.dropLast = directory && isEntryName name then some name else none
  | none => none

/-- The names and entries directly in a directory, in the order of the names. -/
def children (t : Tree) (directory : Path) : List (String × Entry) :=
  t.entries.filterMap fun e => (childName? directory e.1).map (·, e.2)

def names (t : Tree) (path : Path) : Except FileFault (List String) :=
  (t.openDirectory path).map fun here => (t.children here).map (·.1)

def read (t : Tree) (path : Path) : Except FileFault ByteArray :=
  match t.find .following path with
  | .error fault => .error fault
  | .ok (_, .file content) => .ok content
  | .ok _ => .error .isDirectory

-- The path lies in a directory or is the directory.
def isWithin (directory path : Path) : Bool := directory.isPrefixOf path

attribute [local instance (2000)] Zero.ofOfNat0

-- The number of bytes of all files below a directory.
def totalBelow (t : Tree) (directory : Path) : Nat :=
  ((t.entries.filter fun e => isWithin directory e.1).map fun e => e.2.size).sum

/-- The sizes of all files below a directory, added up in 64 bits; a sum that they do not hold starts
again at zero. -/
def sizeBelow (t : Tree) (directory : Path) : UInt64 :=
  (t.entries.filter fun e => isWithin directory e.1).foldl (fun sum e => sum + .ofNat e.2.size) 0

end Tree

end Registry
