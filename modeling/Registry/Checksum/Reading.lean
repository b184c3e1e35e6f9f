import Registry.Checksum.Md5
import Registry.Files.Tree

/-! # Reading — the digest of what a source delivers

A source delivers pieces until an empty one, or until it fails. The digest of a file is that of its
pieces, so only one piece of it is looked at together. -/

namespace Registry

/-- What each read of a source yields, in order. A source that has nothing more yields an empty
piece, so a list that ends says the same. -/
abbrev Reads (ε : Type) := List (Except ε (List UInt8))

/-- The digest of what a source delivers up to its first empty piece, or its first failure. -/
def Md5.Context.digest {ε : Type} (c : Context) : Reads ε → Except ε String
  | [] => .ok c.finish
  | .error e :: _ => .error e
  | .ok [] :: _ => .ok c.finish
  | .ok (byte :: more) :: reads => (c.consume (byte :: more)).digest reads

def Reads.checksum {ε : Type} (reads : Reads ε) : Except ε String := Md5.Context.empty.digest reads

-- The most bytes that one read takes.
def pieceLimit : Nat := 16384

/-- Some bytes in pieces of at most a length, the last of them empty. -/
def pieces {ε : Type} (limit : Nat) (bytes : List UInt8) : Reads ε :=
  match bytes with
  | [] => [.ok []]
  | byte :: more => .ok (byte :: more.take (limit - 1)) :: pieces limit (more.drop (limit - 1))
termination_by bytes.length
decreasing_by simp only [List.length_drop, List.length_cons]; omega

namespace Tree

/-- The reads of the file at a path. A directory is opened like a file, and fails on the first
read. -/
def reads (t : Tree) (path : Path) : Except FileFault (Reads FileFault) := do
  match ← t.find .following path with
  | (_, .directory) => return [.error .isDirectory]
  | (_, .file content) => return pieces pieceLimit content.data.toList
  | (_, .link _) => throw .tooManyLinks

def checksum (t : Tree) (path : Path) : Except FileFault String := do (← t.reads path).checksum

end Tree

/-- Why a file has no digest. -/
structure ChecksumFault where
  path : String
  cause : FileFault
  deriving DecidableEq, Repr

def ChecksumFault.message (fault : ChecksumFault) : String :=
  s!"Could not read '{fault.path}': {fault.cause.message}"

end Registry
