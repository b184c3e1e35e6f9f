import Registry.Database.Address
import Registry.Database.Pool
import Registry.Settings.Basic

/-! # Connection — a pool for the database that the settings name -/

namespace Registry

/-- Why there is no database to work on. -/
inductive ConnectionFault where
  | noAddress
  | badAddress (address : String) (cause : AddressFault)
  | database (fault : DatabaseFault)
  deriving DecidableEq, Repr

namespace ConnectionFault

def settingMessage (wrong : String) : String :=
  s!"Database configuration error: {wrong}. Check {DatabaseSettings.addressName} and connection settings."

def message : ConnectionFault → String
  | noAddress => settingMessage s!"{DatabaseSettings.addressName} not set"
  | badAddress address cause =>
    settingMessage s!"invalid {DatabaseSettings.addressName} '{address}': {cause.message}"
  | database fault => s!"Database query failed: {fault.message}"

end ConnectionFault

namespace DatabaseSettings

/-- The database that an environment names; unlike the other settings, the address has to be
there. -/
def named (e : Environment) : Except ConnectionFault DatabaseSettings :=
  match e.get? addressName with
  | some address => .ok (ofEnvironment e address)
  | none => .error .noAddress

/-- A pool for the database that settings name, with the files after it was opened, where `current` is
the directory that everything runs in. -/
def connect (s : DatabaseSettings) (current : Path) (t : Tree) :
    Except ConnectionFault (Pool × Tree) :=
  match Location.ofAddress s.address with
  | .error cause => .error (.badAddress s.address cause)
  | .ok location =>
    match location.opened current t with
    | .error fault => .error (.database fault)
    | .ok t => .ok (.fresh, t)

end DatabaseSettings

end Registry
