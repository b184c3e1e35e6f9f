/-! # Fault — why a file system refuses an operation -/

namespace Registry

inductive FileFault where
  | missing
  | denied
  | busy
  | present
  | notDirectory
  | isDirectory
  | invalid
  | nameTooLong
  | notEmpty
  | tooManyLinks
  -- A name holds the character that ends every name.
  | zeroInName
  deriving DecidableEq, Repr

namespace FileFault

/-- The number of a refusal; a name that cannot even be asked for has none. -/
def number? : FileFault → Option Nat
  | missing => some 2
  | denied => some 13
  | busy => some 16
  | present => some 17
  | notDirectory => some 20
  | isDirectory => some 21
  | invalid => some 22
  | nameTooLong => some 36
  | notEmpty => some 39
  | tooManyLinks => some 40
  | zeroInName => none

def detail : FileFault → String
  | missing => "No such file or directory"
  | denied => "Permission denied"
  | busy => "Device or resource busy"
  | present => "File exists"
  | notDirectory => "Not a directory"
  | isDirectory => "Is a directory"
  | invalid => "Invalid argument"
  | nameTooLong => "File name too long"
  | notEmpty => "Directory not empty"
  | tooManyLinks => "Too many levels of symbolic links"
  | zeroInName => "file name contained an unexpected NUL byte"

def message (fault : FileFault) : String :=
  match fault.number? with
  | some number => s!"{fault.detail} (os error {number})"
  | none => fault.detail

end FileFault

end Registry
