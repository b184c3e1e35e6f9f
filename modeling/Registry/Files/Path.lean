/-! # Path — where something is in a tree of files

A path is a list of names, read from a text with slashes. The text decides more than the names do:
a slash at its end says that a directory is meant, and dots at its end stand for no name.

A name is a text, and names are compared by the bytes of their texts. A file system may also hold names
whose bytes are those of no text; they are not represented here. -/

namespace Registry

/-- A path from the root of a tree, as a list of names. One dot stands for the directory that it
stands in, two for the one above; an empty name at the end is that of a directory. -/
abbrev Path := List String

namespace Path

attribute [local instance (2000)] Zero.ofOfNat0

/-- The names in a text with slashes between them; only a slash at the end leaves an empty name. -/
def ofText (text : String) : Path :=
  let names := (text.splitOn "/").filter (· != "")
  if text.endsWith "/" && !names.isEmpty then names ++ [""] else names

-- A name holds the character that ends every name.
def hasZero (path : Path) : Bool := path.any fun name => name.toList.contains '\x00'

def byteSize (path : Path) : Nat := (path.map fun name => name.utf8ByteSize + 1).sum - 1

-- The path without the slash at its end.
def withoutSlash (path : Path) : Path := if path.getLast? = some "" then path.dropLast else path

/-- The path without what stands at its end for the directory in front of it. -/
def withoutSelf (path : Path) : Path :=
  (path.reverse.dropWhile fun name => name = "" || name = ".").reverse

/-- The path of the directory above, as the text of the path has it; the root has none. -/
def above? (path : Path) : Option Path :=
  match path.withoutSelf with
  | [] => none
  | names => some (withoutSelf names.dropLast)

def joinText (base : String) (rest : String) : String :=
  if base.endsWith "/" then base ++ rest else base ++ "/" ++ rest

end Path

end Registry
