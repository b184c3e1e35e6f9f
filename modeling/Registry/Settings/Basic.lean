import Registry.Settings.Environment

/-! # Settings — what an importer is told from outside

Each setting has a name in the environment and a usual value, which also stands in for a text that
cannot be read. Settings are used only if they make sense together: `fault?` tells the first thing
that is wrong with them. -/

namespace Registry

/-! ## The database -/

structure DatabaseSettings where
  address : String
  maxConnections : Nat
  minConnections : Nat
  -- Seconds to wait for a connection.
  connectTimeout : Nat
  idleTimeout : Option Nat
  maxLifetime : Option Nat
  deriving DecidableEq, Repr

namespace DatabaseSettings

def usual : DatabaseSettings :=
  { address := "sqlite://stamdata.db", maxConnections := 5, minConnections := 1, connectTimeout := 30
    idleTimeout := some 600, maxLifetime := some 1800 }

def addressName : String := "DATABASE_URL"

-- A number of connections is below this.
def countLimit : Nat := 2 ^ 32

-- A number of seconds is below this.
def secondsLimit : Nat := 2 ^ 64

/-- The settings of an environment for the database at an address. -/
def ofEnvironment (e : Environment) (address : String) : DatabaseSettings :=
  { address
    maxConnections := (e.nat? countLimit "DB_MAX_CONNECTIONS").getD usual.maxConnections
    minConnections := (e.nat? countLimit "DB_MIN_CONNECTIONS").getD usual.minConnections
    connectTimeout := (e.nat? secondsLimit "DB_CONNECT_TIMEOUT").getD usual.connectTimeout
    idleTimeout := (e.nat? secondsLimit "DB_IDLE_TIMEOUT").or usual.idleTimeout
    maxLifetime := (e.nat? secondsLimit "DB_MAX_LIFETIME").or usual.maxLifetime }

end DatabaseSettings

/-! ## All settings -/

structure Settings where
  -- The directory with one inbox for each register.
  inboxRoot : String
  -- Seconds that the size of a data set stands still before it is ready.
  stabilization : Nat
  -- Seconds that a sample of a size is kept after the last look at it.
  sizeCacheExpiry : Nat
  -- Milliseconds between runs.
  runDelay : Nat
  -- Days without a run after which one is overdue.
  maxDays : Int
  database : DatabaseSettings
  deriving DecidableEq, Repr

/-- Why settings make no sense. -/
inductive SettingsFault where
  | noInboxRoot
  | noSizeCacheExpiry
  | noRunDelay
  | negativeMaxDays (days : Int)
  | noAddress
  | noConnections
  | moreMinThanMax (min max : Nat)
  deriving DecidableEq, Repr

def SettingsFault.message : SettingsFault → String
  | noInboxRoot => "Inbox root cannot be empty"
  | noSizeCacheExpiry => "Size cache expiry must be greater than 0"
  | noRunDelay => "Run delay must be greater than 0"
  | negativeMaxDays days => s!"Max days between runs cannot be negative (got {days})"
  | noAddress => "Database URL cannot be empty"
  | noConnections => "Database max_connections must be greater than 0"
  | moreMinThanMax min max =>
    s!"Database min_connections ({min}) cannot be greater than max_connections ({max})"

namespace Settings

def usual : Settings :=
  { inboxRoot := "./inbox", stabilization := 10, sizeCacheExpiry := 600, runDelay := 1000
    maxDays := 1, database := .usual }

def fault? (s : Settings) : Option SettingsFault :=
  if s.inboxRoot = "" then some .noInboxRoot
  else if s.sizeCacheExpiry = 0 then some .noSizeCacheExpiry
  else if s.runDelay = 0 then some .noRunDelay
  else if s.maxDays < 0 then some (.negativeMaxDays s.maxDays)
  else if s.database.address = "" then some .noAddress
  else if s.database.maxConnections = 0 then some .noConnections
  else if s.database.maxConnections < s.database.minConnections then
    some (.moreMinThanMax s.database.minConnections s.database.maxConnections)
  else none

def checked (s : Settings) : Except SettingsFault Settings :=
  match s.fault? with
  | some fault => .error fault
  | none => .ok s

/-- What an environment says, with the usual value for what it does not say. -/
def read (e : Environment) : Settings :=
  { inboxRoot := (e.get? "STAMDATA_INBOX_ROOT").getD usual.inboxRoot
    stabilization := seconds "STAMDATA_STABILIZATION_SECS" usual.stabilization
    sizeCacheExpiry := seconds "STAMDATA_SIZE_CACHE_EXPIRY_SECS" usual.sizeCacheExpiry
    runDelay := seconds "STAMDATA_RUN_DELAY_MS" usual.runDelay
    maxDays := (e.int? "STAMDATA_MAX_DAYS_BETWEEN_RUNS").getD usual.maxDays
    database := .ofEnvironment e
      ((e.get? DatabaseSettings.addressName).getD DatabaseSettings.usual.address) }
where
  seconds (name : String) (usual : Nat) : Nat :=
    (e.nat? DatabaseSettings.secondsLimit name).getD usual

def load (e : Environment) (file : Option String) : Except SettingsFault Settings :=
  (read (file.elim e e.withFile)).checked

theorem checked_usual : usual.checked = .ok usual := rfl

end Settings

end Registry
