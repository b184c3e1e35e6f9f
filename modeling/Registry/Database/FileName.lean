import Registry.Database.Fault
import Registry.Files.Change
import Registry.Text.Percent

/-! # FileName — the file that the name of a database stands for

A name is the path of a file, or it begins with a scheme; then bytes may be written behind percent
signs, and options may follow a question mark. In the path of a database two points take back the
name in front of them, whether there is such a directory or not. -/

namespace Registry

open Registry.Text

/-- How a database is opened. -/
structure Request where
  path : String
  inMemory : Bool
  writes : Bool
  -- A file that is not there is made.
  creates : Bool
  -- The name of the way in which files are accessed.
  access : Option String
  deriving DecidableEq, Repr

namespace Request

/-! ## Options in a name -/

/-- What a part of a name stands for: up to a byte zero, bytes may be written behind percent signs. -/
def partText (part : List Char) : String :=
  mended ((percentDecoded (String.ofList part).toUTF8.data.toList).takeWhile (· != 0))

-- How much a way to open allows, to compare two of them.
def extent (inMemory writes creates : Bool) : Nat :=
  (if inMemory then 128 else 0) + (if creates then 4 else 0) + (if writes then 2 else 1)

/-- The request with a way to open; it may not go beyond the one before. -/
def withMode (r : Request) (mode : String) : Except DatabaseFault Request :=
  let set (inMemory writes creates : Bool) : Except DatabaseFault Request :=
    if !inMemory && extent r.inMemory r.writes r.creates < extent false writes creates then
      .error (.modeNotAllowed mode)
    else .ok { r with inMemory, writes, creates }
  match mode with
  | "ro" => set false false false
  | "rw" => set false true false
  | "rwc" => set false true true
  | "memory" => set true false false
  | _ => .error (.noMode "access" mode)

/-- The request with an option of the name; options that mean nothing are passed over. -/
def withOption (r : Request) (option : String × String) : Except DatabaseFault Request :=
  match option with
  | ("vfs", value) => .ok { r with access := some value }
  | ("mode", value) => r.withMode value
  | ("cache", value) =>
    if value = "shared" || value = "private" then .ok r else .error (.noMode "cache" value)
  | _ => .ok r

def options (text : List Char) : List (String × String) :=
  ((String.ofList text).splitOn "&").filterMap fun part =>
    let (name, value) := cut '=' part.toList
    if partText name = "" then none else some (partText name, partText (value.getD []))

def scheme : List Char := "file:".toList

/-- A name without the machine that may stand between two slashes and the path. -/
def withoutMachine (name : List Char) : Except DatabaseFault (List Char) :=
  match name with
  | '/' :: '/' :: rest =>
    let machine := rest.takeWhile (· != '/')
    if machine.isEmpty || machine = "localhost".toList then .ok (rest.dropWhile (· != '/'))
    else .error (.foreignFile (String.ofList machine))
  | name => .ok name

/-- The request with a name that has a scheme, from behind the scheme. -/
def withName (r : Request) (name : List Char) : Except DatabaseFault Request :=
  match withoutMachine name with
  | .error fault => .error fault
  | .ok name =>
    let (path, rest) := cut '?' (name.takeWhile (· != '#'))
    (options (rest.getD [])).foldlM withOption { r with path := partText path }

/-- The request with the path or the options that its name stands for. -/
def interpreted (r : Request) : Except DatabaseFault Request :=
  let text := r.path.toList
  if scheme.isPrefixOf text then r.withName (text.drop scheme.length) else .ok r

/-! ## Opening -/

def accesses : List String := ["unix", "unix-dotfile", "unix-excl", "unix-none", memoryAccess]
where
  memoryAccess : String := "memdb"

/-- The names of a path; two points take back the name in front of them, if there is one. -/
def resolve (path : String) : Path :=
  (path.splitOn "/").foldl (fun names name =>
    if name = "" || name = "." then names
    else if name = ".." then names.dropLast
    else names ++ [name]) []

/-- Why a directory is no database: it can be opened only to be read, but not be read. -/
def directoryFault (r : Request) : DatabaseFault := if r.writes then .cannotOpen else .cannotRead

-- The files after the file at a path is opened.
def openWithin (r : Request) (path : Path) (t : Tree) : Except DatabaseFault Tree :=
  match t.find .following path with
  | .ok (_, .directory) => .error r.directoryFault
  | .ok _ => .ok t
  | .error _ =>
    if r.creates then (t.touch path).mapError fun _ => .cannotOpen else .error .cannotOpen

/-- The files after a database is opened; a path that does not start at the root starts at the
directory that everything runs in. -/
def openFile (r : Request) (current : Path) (t : Tree) : Except DatabaseFault Tree :=
  let path := resolve r.path
  if path = [] then .error .cannotOpen
  else r.openWithin (if r.path.startsWith "/" then path else current ++ path) t

/-- The files after the database that is asked for is opened. One in memory, or without a name, has
no file. -/
def opened (r : Request) (current : Path) (t : Tree) : Except DatabaseFault Tree :=
  match r.access.filter (!accesses.contains ·) with
  | some name => .error (.noAccess name)
  | none =>
    if r.inMemory || r.access = some accesses.memoryAccess || r.path = "" || r.path = ":memory:" then
      .ok t
    else r.openFile current t

end Request

end Registry
