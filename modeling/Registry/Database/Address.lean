import Registry.Database.FileName
import Registry.Text.Quoted

/-! # Address — where a database is kept

An address names a file or the memory. It may start with the name of the scheme, and parameters may
follow it behind a question mark. Opening a file makes it if it is not there. -/

namespace Registry

/-- Where a database is kept, and how it is to be used. -/
structure Location where
  -- The name of its file.
  name : String
  inMemory : Bool
  readOnly : Bool
  -- Nothing changes its file while it is open.
  immutable : Bool
  -- The name of the way in which files are accessed.
  access : Option String
  deriving DecidableEq, Repr

/-- Why an address is no address. -/
inductive AddressFault where
  | unknownValue (value parameter : String)
  | unknownParameter (name : String)
  -- The bytes that the path stands for are no text.
  | notText (flaw : Text.Flaw)
  deriving DecidableEq, Repr

def AddressFault.message : AddressFault → String
  | unknownValue value parameter =>
    s!"error with configuration: unknown value {Text.quoted value} for `{parameter}`"
  | unknownParameter name =>
    s!"error with configuration: unknown query parameter `{name}` while parsing connection URL"
  | notText flaw => s!"error with configuration: {flaw.message}"

namespace Location

/-! ## Reading an address -/

/-- A text without a word in front of it, however often it stands there. -/
def dropLeading (word text : List Char) : List Char :=
  if _h : word ≠ [] ∧ word.isPrefixOf text then dropLeading word (text.drop word.length) else text
termination_by text.length
decreasing_by
  obtain ⟨hw, hp⟩ := _h
  have := (List.isPrefixOf_iff_prefix.1 hp).length_le
  have := List.length_pos_iff.2 hw
  simp only [List.length_drop]
  omega

-- The location with a parameter taken into account.
def withParameter (l : Location) (name value : String) : Except AddressFault Location :=
  match name, value with
  | "mode", "ro" => .ok { l with readOnly := true }
  | "mode", "rw" | "mode", "rwc" => .ok l
  | "mode", "memory" => .ok { l with inMemory := true }
  | "cache", "private" | "cache", "shared" => .ok l
  | "immutable", "true" | "immutable", "1" => .ok { l with immutable := true }
  | "immutable", "false" | "immutable", "0" => .ok { l with immutable := false }
  | "vfs", value => .ok { l with access := some value }
  | "mode", value | "cache", value | "immutable", value => .error (.unknownValue value name)
  | name, _ => .error (.unknownParameter name)

def memoryName : String := ":memory:"

def ofAddress (address : String) : Except AddressFault Location := do
  let bare := dropLeading "sqlite:".toList (dropLeading "sqlite://".toList address.toList)
  let (name, parameters) := Text.cut '?' bare
  let inMemory := String.ofList name = memoryName
  let name ← (Text.percentText (String.ofList name)).mapError .notText
  (Text.formParts (String.ofList (parameters.getD []))).foldlM
    (fun l part => l.withParameter part.1 part.2)
    { name, inMemory, readOnly := false, immutable := false, access := none }

/-! ## Opening -/

-- A text up to the character zero.
def beforeZero (text : String) : String := String.ofList (text.toList.takeWhile (· != '\x00'))

/-- How the database at a location is to be opened. Where nothing is said of the way to access
files, the name may say more. -/
def request (l : Location) : Except DatabaseFault Request :=
  let r : Request :=
    { path := l.name, inMemory := l.inMemory, writes := !l.readOnly, creates := !l.readOnly
      access := none }
  if l.immutable || l.access.isSome then
    .ok { r with path := beforeZero l.name, access := l.access.map beforeZero }
  else if l.name.contains '\x00' then .error .invalidFileName
  else r.interpreted

/-- The files after the database at a location was opened, where `current` is the directory that
everything runs in. -/
def opened (l : Location) (current : Path) (t : Tree) : Except DatabaseFault Tree :=
  match l.request with
  | .error fault => .error fault
  | .ok r => r.opened current t

end Location

end Registry
