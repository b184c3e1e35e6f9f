/-! # Instant — points of time and their milliseconds

An instant is a second counted from 1970-01-01T00:00:00Z and the nanoseconds in it. A second that
ends a minute may be a leap second: its nanoseconds run on to two thousand million, so the leap
second follows every other instant of its second and comes before the next second. Stored times
are whole milliseconds; `toMillis` and `ofMillis` convert, and `truncated` is one after the other.

The main facts: the order of instants is a linear order, `ofMillis` is a section of `toMillis`
within the range of instants, and neither direction reorders. -/

namespace Registry

/-- The first second that an instant can have, 262143 years before our era. -/
def firstSecond : Int := -8334601228800

/-- The last second that an instant can have, the end of the year 262142. -/
def lastSecond : Int := 8210266876799

/-- One second in nanoseconds, the unit of every difference between instants. -/
def nanosPerSecond : Nat := 1000000000

structure Instant where
  second : Int
  nano : Nat
  first_le : firstSecond ≤ second := by decide
  le_last : second ≤ lastSecond := by decide
  nano_lt : nano < 2 * nanosPerSecond := by decide
  leap_ends_minute : nanosPerSecond ≤ nano → second % 60 = 59 := by decide
  deriving DecidableEq

namespace Instant

-- 1970-01-01T00:00:00Z.
def epoch : Instant := { second := 0, nano := 0 }

instance : Inhabited Instant := ⟨epoch⟩

/-- The instant with that second and those nanoseconds, if there is one. -/
def ofParts? (second : Int) (nano : Nat) : Option Instant :=
  if h : firstSecond ≤ second ∧ second ≤ lastSecond ∧ nano < 2 * nanosPerSecond ∧
      (nanosPerSecond ≤ nano → second % 60 = 59) then
    some ⟨second, nano, h.1, h.2.1, h.2.2.1, h.2.2.2⟩
  else none

theorem ofParts?_parts (i : Instant) : ofParts? i.second i.nano = some i := by
  simp only [ofParts?, dif_pos (And.intro i.first_le (And.intro i.le_last
    (And.intro i.nano_lt i.leap_ends_minute)))]

theorem ofParts?_eq_some {second : Int} {nano : Nat} {i : Instant} (h : ofParts? second nano = some i) :
    i.second = second ∧ i.nano = nano := by
  unfold ofParts? at h
  split at h
  · cases h; exact ⟨rfl, rfl⟩
  · cases h

def isLeap (i : Instant) : Bool := nanosPerSecond ≤ i.nano

theorem isLeap_eq_false {i : Instant} : i.isLeap = false ↔ i.nano < 1000000000 :=
  decide_eq_false_iff_not.trans Nat.not_le

theorem ext_parts {a b : Instant} (hs : a.second = b.second) (hn : a.nano = b.nano) : a = b := by
  cases a; cases b; simp_all

/-! ## Order -/

instance : LT Instant :=
  ⟨fun a b => a.second < b.second ∨ (a.second = b.second ∧ a.nano < b.nano)⟩

instance : LE Instant :=
  ⟨fun a b => a.second < b.second ∨ (a.second = b.second ∧ a.nano ≤ b.nano)⟩

theorem lt_def {a b : Instant} :
    a < b ↔ a.second < b.second ∨ (a.second = b.second ∧ a.nano < b.nano) := Iff.rfl

theorem le_def {a b : Instant} :
    a ≤ b ↔ a.second < b.second ∨ (a.second = b.second ∧ a.nano ≤ b.nano) := Iff.rfl

instance (a b : Instant) : Decidable (a < b) := decidable_of_iff _ lt_def.symm

instance (a b : Instant) : Decidable (a ≤ b) := decidable_of_iff _ le_def.symm

theorem le_refl (a : Instant) : a ≤ a := Or.inr ⟨rfl, Nat.le_refl _⟩

theorem le_trans {a b c : Instant} (hab : a ≤ b) (hbc : b ≤ c) : a ≤ c := by
  simp only [le_def] at *; omega

theorem not_le {a b : Instant} : ¬ a ≤ b ↔ b < a := by
  simp only [le_def, lt_def]; omega

theorem not_lt {a b : Instant} : ¬ a < b ↔ b ≤ a := by
  simp only [le_def, lt_def]; omega

/-! ## Milliseconds -/

/-- Milliseconds since the epoch; what is less than a millisecond is dropped. A leap second counts
on into the milliseconds of the second after it. -/
def toMillis (i : Instant) : Int := i.second * 1000 + (i.nano / 1000000 : Nat)

/-- The instant with exactly those milliseconds, if it lies in the range of instants. -/
def ofMillis? (ms : Int) : Option Instant :=
  if h : firstSecond ≤ ms / 1000 ∧ ms / 1000 ≤ lastSecond then
    some ⟨ms / 1000, (ms % 1000).toNat * 1000000, h.1, h.2,
      by simp only [nanosPerSecond]; omega, by simp only [nanosPerSecond]; omega⟩
  else none

/-- The instant with exactly those milliseconds, and the epoch outside the range of instants. -/
def ofMillis (ms : Int) : Instant := (ofMillis? ms).getD epoch

/-- An instant as it comes back from storage: without what is less than a millisecond. -/
def truncated (i : Instant) : Instant := ofMillis i.toMillis

-- The milliseconds of the instants that are no leap second.
def MillisInRange (ms : Int) : Prop := firstSecond * 1000 ≤ ms ∧ ms ≤ lastSecond * 1000 + 999

instance (ms : Int) : Decidable (MillisInRange ms) := inferInstanceAs (Decidable (_ ∧ _))

theorem ofMillis?_isSome_iff {ms : Int} : (ofMillis? ms).isSome = true ↔ MillisInRange ms := by
  unfold ofMillis? MillisInRange
  split <;> simp only [Option.isSome_some, Option.isSome_none, true_iff, Bool.false_eq_true, false_iff] <;>
    simp only [firstSecond, lastSecond] at * <;> omega

theorem toMillis_ofMillis {ms : Int} (h : MillisInRange ms) : (ofMillis ms).toMillis = ms := by
  simp only [MillisInRange, firstSecond, lastSecond] at h
  have hr : firstSecond ≤ ms / 1000 ∧ ms / 1000 ≤ lastSecond := by
    simp only [firstSecond, lastSecond]; omega
  simp only [ofMillis, ofMillis?, dif_pos hr, Option.getD_some, toMillis]
  omega

theorem ofMillis_of_not_inRange {ms : Int} (h : ¬ MillisInRange ms) : ofMillis ms = epoch := by
  have hn : ofMillis? ms = none := by
    rw [← Option.not_isSome_iff_eq_none]
    exact fun hs => h (ofMillis?_isSome_iff.1 hs)
  simp [ofMillis, hn]

-- The milliseconds of an instant that is no leap second are in range.
theorem inRange_toMillis {i : Instant} (h : i.isLeap = false) : MillisInRange i.toMillis := by
  have h1 := i.first_le
  have h2 := i.le_last
  have h3 := isLeap_eq_false.1 h
  simp only [MillisInRange, toMillis, firstSecond, lastSecond] at *
  omega

-- What comes back from storage lies in no leap second.
theorem isLeap_ofMillis (ms : Int) : (ofMillis ms).isLeap = false := by
  rw [isLeap_eq_false]
  unfold ofMillis ofMillis?
  split
  · simp only [Option.getD_some]; omega
  · decide

theorem toMillis_le_toMillis {a b : Instant} (ha : a.isLeap = false) (h : a ≤ b) :
    a.toMillis ≤ b.toMillis := by
  have ha' := isLeap_eq_false.1 ha
  simp only [le_def, toMillis] at *
  omega

/-! ## Differences -/

/-- The nanoseconds from `earlier` to `later`. A leap second inside a day is counted where the time
of day of one lies behind the leap second of the other. -/
def nanosSince (later earlier : Instant) : Int :=
  let timeOfDay := later.second % 86400
  let timeOfDay' := earlier.second % 86400
  let leap : Int :=
    if timeOfDay' < timeOfDay then (if earlier.isLeap then 1 else 0)
    else if timeOfDay < timeOfDay' then (if later.isLeap then -1 else 0)
    else 0
  (later.second - earlier.second + leap) * nanosPerSecond + (later.nano - earlier.nano : Int)

/-- Whole seconds of a difference; the part of a second is dropped on either side of zero. -/
def wholeSeconds (nanos : Int) : Int := nanos.tdiv nanosPerSecond

-- Without leap seconds a difference is plain arithmetic.
theorem nanosSince_of_not_leap {a b : Instant} (ha : a.isLeap = false) (hb : b.isLeap = false) :
    nanosSince a b = (a.second - b.second) * nanosPerSecond + (a.nano - b.nano) := by
  simp [nanosSince, ha, hb]

-- The instant that many nanoseconds away, by plain arithmetic.
def shiftPlain? (second : Int) (nano : Nat) (nanos : Int) : Option Instant :=
  let total := second * nanosPerSecond + nano + nanos
  ofParts? (total / nanosPerSecond) (total % nanosPerSecond).toNat

/-- The instant that many nanoseconds after `i` (before it, if negative), if it lies in the range of
instants. A shift by less than a second may stay in a leap second; a longer one leaves it. -/
def shift? (i : Instant) (nanos : Int) : Option Instant :=
  if i.isLeap then
    let whole := nanos.tdiv nanosPerSecond
    let part := nanos.tmod nanosPerSecond
    if 0 < whole ∨ (0 < part ∧ 2 * (nanosPerSecond : Int) ≤ i.nano + part) then
      shiftPlain? i.second (i.nano - nanosPerSecond) nanos
    else if whole < 0 then shiftPlain? (i.second + 1) (i.nano - nanosPerSecond) nanos
    else ofParts? i.second (i.nano + part).toNat
  else shiftPlain? i.second i.nano nanos

/-- A clock that is moved on by milliseconds; where no instant is, it stands still. -/
def advanced (i : Instant) (ms : Int) : Instant := (i.shift? (ms * 1000000)).getD i

end Instant

end Registry
