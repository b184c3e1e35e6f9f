import Registry.Record.Layout

/-! # Version — a record with the time in which it holds

A version of a record holds from one instant up to another, which is not part of it, or without
end. A stored version has a number, its PID, and the instant of its last change. -/

namespace Registry

structure Version where
  pid : Option Int
  record : Record
  validFrom : Instant
  -- There is none for a version that holds without end.
  validTo : Option Instant
  modified : Option Instant
  deriving DecidableEq

namespace Version

def unstored (record : Record) (validFrom : Instant) (validTo : Option Instant) : Version :=
  { pid := none, record, validFrom, validTo, modified := none }

def isValidAt (v : Version) (t : Instant) : Bool :=
  v.validFrom ≤ t &&
    match v.validTo with
    | none => true
    | some stop => t < stop

theorem isValidAt_iff {v : Version} {t : Instant} :
    v.isValidAt t = true ↔ v.validFrom ≤ t ∧ ∀ stop, v.validTo = some stop → t < stop := by
  unfold isValidAt
  cases v.validTo <;> simp

end Version

end Registry
