import Registry.Files.Change
import Registry.Number.Power
import Registry.Text.Quoted
import Registry.Time.Instant

/-! # Inbox — data sets that wait to be imported

An inbox is a directory, and its data sets are the directories in it. A data set is ready once its
size has stood still for a period, and never before an earlier one by name. What was seen of a data
set is kept as a sample, until nobody has looked at it for too long. While an entry with the name of
the lock is there, an inbox does nothing but tell so. -/

namespace Registry

/-- Why an inbox refuses an operation; the texts are paths as they are shown. -/
inductive InboxFault where
  | locked (root : String)
  | nothingReady (root : String)
  -- A path cannot be read, or not measured.
  | unreadable (path : String) (measured : Bool) (fault : FileFault)
  | notDeleted (path : String) (fault : FileFault)
  | notLockable (path : String) (fault : FileFault)
  deriving DecidableEq, Repr

-- The fault of a walk that measures a path.
def FileFault.walkMessage (path : String) (fault : FileFault) : String :=
  s!"IO error for operation on {path}: {fault.message}"

def InboxFault.message : InboxFault → String
  | locked root => s!"Inbox '{root}' is locked"
  | nothingReady root => s!"Inbox '{root}' has no ready data set to advance past"
  | unreadable path false fault => s!"Could not read '{path}': {fault.message}"
  | unreadable path true fault => s!"Could not read '{path}': {fault.walkMessage path}"
  | notDeleted path fault => s!"Could not delete data set '{path}': {fault.message}"
  | notLockable path fault => s!"Could not create lock file '{path}': {fault.message}"

/-! ## Spans of time -/

/-- The longest span between instants, in nanoseconds. A longer wait never ends. -/
def longestSpan : Nat := (2 ^ 63 - 1) * 1000000

/-- A span that a difference between instants can reach, for any span. -/
def boundedSpan (nanos : Nat) : Nat := min nanos longestSpan

/-- How long the size of a data set stands still before it is ready, where nothing else is said. -/
def usualPeriod : Nat := 10 * nanosPerSecond

/-- How long a sample is kept after the last look at it, where nothing else is said. -/
def usualExpiry : Nat := 600 * nanosPerSecond

/-! ## Samples -/

/-- What was seen of a data set. -/
structure Sample where
  size : UInt64
  -- When this size was first seen.
  since : Instant
  lastSeen : Instant
  deriving DecidableEq

abbrev Samples := SortedMap String Sample

namespace Sample

def seen (size : UInt64) (now : Instant) : Option Sample → Sample
  | some s => if s.size = size then { s with lastSeen := now } else ⟨size, now, now⟩
  | none => ⟨size, now, now⟩

-- A look at a size finds it as it was for a whole period.
def isStable (period : Nat) (size : UInt64) (now : Instant) : Option Sample → Bool
  | some s => s.size = size && (period : Int) ≤ now.nanosSince s.since
  | none => false

end Sample

-- The samples that were looked at not too long ago.
def Samples.purged (samples : Samples) (expiry : Nat) (now : Instant) : Samples :=
  samples.filter fun _ s => now.nanosSince s.lastSeen < (expiry : Int)

/-- How far a scan has come: what was seen, whether a data set is not ready yet, and those that
were ready before it. -/
structure Scan where
  samples : Samples
  blocked : Bool
  ready : List String

namespace Scan

/-- The scan after a data set with its size; one without has just disappeared. -/
def step (period : Nat) (now : Instant) (s : Scan) (name : String) : Option UInt64 → Scan
  | none => { s with samples := s.samples.erase name }
  | some size =>
    let sample := s.samples.get? name
    let stable := Sample.isStable period size now sample
    { samples := s.samples.insert name (Sample.seen size now sample)
      blocked := s.blocked || !stable
      ready := if stable && !s.blocked then s.ready ++ [name] else s.ready }

/-- A scan of data sets in the order of their names, up to the first that cannot be measured. -/
def run (period : Nat) (now : Instant) (measure : String → Except InboxFault (Option UInt64))
    (s : Scan) :
    List String → Except InboxFault Unit × Scan
  | [] => (.ok (), s)
  | name :: rest =>
    match measure name with
    | .error fault => (.error fault, s)
    | .ok size => (s.step period now name size).run period now measure rest

end Scan

/-! ## Inboxes -/

structure Inbox where
  -- The directory as it is shown.
  root : String
  path : Path
  period : Nat
  expiry : Nat
  samples : Samples
  ready : List String
  deriving DecidableEq

namespace Inbox

def lockName : String := "LOCKED"

/-- The inbox of a home below a base directory, which is at a place in the tree, before anything was
seen. -/
def fresh (place : Path) (base home : String) (period expiry : Nat) : Inbox :=
  { root := Path.joinText base home
    path := place ++ Path.ofText home
    period := boundedSpan period
    expiry := boundedSpan expiry
    samples := .empty
    ready := [] }

-- The inbox as if nothing was seen yet.
def forgotten (b : Inbox) : Inbox := { b with samples := .empty, ready := [] }

def shown (b : Inbox) (name : String) : String := Path.joinText b.root name

def establish (b : Inbox) (t : Tree) : Except InboxFault Unit × Tree :=
  let (answer, t) := t.makeDirectories b.path
  (answer.mapError (.unreadable b.root false), t)

/-- The inbox as if nothing was seen yet, with its directory, which is made again if it is gone. -/
def reopen (b : Inbox) (t : Tree) : Except InboxFault Unit × Inbox × Tree :=
  match b.establish t with
  | (.error fault, t) => (.error fault, b, t)
  | (.ok (), t) => (.ok (), b.forgotten, t)

-- The lock is there, links followed.
def isLocked (b : Inbox) (t : Tree) : Bool := t.present (b.path ++ [lockName])

def dataSets (b : Inbox) (t : Tree) : Except FileFault (List String) :=
  match t.openDirectory b.path with
  | .error fault => .error fault
  | .ok here => .ok (((t.children here).filter fun e => e.2.isDirectory).map (·.1))

-- The size of a data set, or none if it has disappeared.
def measure (b : Inbox) (t : Tree) (name : String) : Except InboxFault (Option UInt64) :=
  match t.find .following (b.path ++ [name]) with
  | .error .missing => .ok none
  | .error fault => .error (.unreadable (b.shown name) true fault)
  | .ok (here, _) => .ok (some (t.sizeBelow here))

/-- The inbox after a look at its data sets, each measured in the tree that is there when its turn
comes. Where the look fails, the data sets stay as ready as they were. -/
def updateDuring (b : Inbox) (t : Tree) (meanwhile : String → Tree) (now : Instant) :
    Except InboxFault Unit × Inbox :=
  if b.isLocked t then (.error (.locked b.root), b)
  else
    let samples := b.samples.purged b.expiry now
    match b.dataSets t with
    | .error fault => (.error (.unreadable b.root false fault), { b with samples })
    | .ok names =>
      let measure (name : String) := b.measure (meanwhile name) name
      match Scan.run b.period now measure { samples, blocked := false, ready := [] } names with
      | (.error fault, scan) => (.error fault, { b with samples := scan.samples })
      | (.ok (), scan) => (.ok (), { b with samples := scan.samples, ready := scan.ready })

/-- The inbox after a look at its data sets while nothing changes. -/
def update (b : Inbox) (t : Tree) (now : Instant) : Except InboxFault Unit × Inbox :=
  b.updateDuring t (fun _ => t) now

def top (b : Inbox) (t : Tree) : Except InboxFault (Option String) :=
  if b.isLocked t then .error (.locked b.root) else .ok b.ready.head?

def readyCount (b : Inbox) (t : Tree) : Except InboxFault Nat :=
  if b.isLocked t then .error (.locked b.root) else .ok b.ready.length

/-- The tree without the first data set that is ready, and the inbox behind it. It may be gone
already. Where its removal stops half-way, the inbox still has it in front. -/
def advance (b : Inbox) (t : Tree) (halt : Option Halt) : Except InboxFault Unit × Inbox × Tree :=
  if b.isLocked t then (.error (.locked b.root), b, t)
  else
    match b.ready with
    | [] => (.error (.nothingReady b.root), b, t)
    | head :: rest =>
      let past := { b with ready := rest, samples := b.samples.erase head }
      match t.removeDirectory halt (b.path ++ [head]) with
      | (.ok (), t) => (.ok (), past, t)
      | (.error .missing, t) => (.ok (), past, t)
      | (.error fault, t) => (.error (.notDeleted (b.shown head) fault), b, t)

def lock (b : Inbox) (t : Tree) : Except InboxFault Tree :=
  (t.touch (b.path ++ [lockName])).mapError (.notLockable (b.shown lockName))

/-! ## Descriptions -/

def display (b : Inbox) : String := s!"Inbox[{b.root}]"

def description (b : Inbox) : String :=
  let ready := ", ".intercalate (b.ready.map fun name => Text.quotedPath (b.shown name))
  s!"DirectoryInbox \x7b root: {Text.quotedPath b.root}, ready: [{ready}], .. \x7d"

end Inbox

end Registry
