import Registry.Proofs.Status.Attempts
import Registry.Proofs.Time.Span

/-!
# Overdue — when imports are overdue, by exact arithmetic

A deadline is found in two steps, each with a range of its own: the days have to make a difference
between instants, and the clock less that difference has to be an instant.  The first range is so much
wider than the second that only the second is ever seen.  So the deadline is what exact arithmetic says,
and it moves with the clock and against the days.
-/

namespace Registry

open Instant (NanosInRange)

namespace Ledger

variable {g : Ledger} {db db' before : Database} {now now' : Instant}

/-! ## The deadline -/

/-- The nanoseconds from the epoch to so many days before an instant. -/
def due (g : Ledger) (now : Instant) : Int := now.nanos - g.maxDays * 86400 * nanosPerSecond

-- The days that make no difference between instants lead out of all instants.
theorem not_inRange_due (hnow : now.isLeap = false) (h : longestDays < g.maxDays.natAbs) :
    ¬ NanosInRange (g.due now) := by
  have hrange := Instant.inRange_nanos hnow
  simp only [NanosInRange, due, firstSecond, lastSecond, nanosPerSecond, longestDays] at *
  omega

theorem deadline?_eq_some_iff (hnow : now.isLeap = false) {t : Instant} :
    g.deadline? now = some t ↔ t.isLeap = false ∧ t.nanos = g.due now := by
  unfold deadline?
  split
  · have hdue : now.nanos + -(g.maxDays * nanosPerDay) = g.due now := by
      simp only [due, nanosPerDay, nanosPerSecond]
      omega
    rw [Instant.shift?_eq_some_iff hnow, hdue]
  · rename_i hlong
    refine iff_of_false nofun ?_
    rintro ⟨hleap, hdue⟩
    exact not_inRange_due hnow (Nat.lt_of_not_le hlong) (hdue ▸ Instant.inRange_nanos hleap)

/-- By exact arithmetic the deadline is an instant, and later than a start. -/
def IsPastDue (g : Ledger) (now start : Instant) : Prop :=
  NanosInRange (g.due now) ∧ start.nanos < g.due now

instance (g : Ledger) (now start : Instant) : Decidable (g.IsPastDue now start) :=
  inferInstanceAs (Decidable (_ ∧ _))

theorem exists_deadline_iff (hnow : now.isLeap = false) {start : Instant} (hstart : start.isLeap = false) :
    (∃ t, g.deadline? now = some t ∧ start < t) ↔ g.IsPastDue now start := by
  constructor
  · rintro ⟨t, hdeadline, hlt⟩
    obtain ⟨hleap, hdue⟩ := (deadline?_eq_some_iff hnow).1 hdeadline
    rw [Instant.lt_iff_nanos hstart hleap] at hlt
    rw [IsPastDue, ← hdue]
    exact ⟨Instant.inRange_nanos hleap, hlt⟩
  · rintro ⟨hrange, hlt⟩
    obtain ⟨t, hleap, hdue⟩ := Instant.exists_nanos_eq hrange
    refine ⟨t, (deadline?_eq_some_iff hnow).2 ⟨hleap, hdue⟩, ?_⟩
    rwa [Instant.lt_iff_nanos hstart hleap, hdue]

-- A later clock or fewer days do not bring the deadline forward, nor do they lead behind all instants.
theorem IsPastDue.mono {g' : Ledger} {start : Instant} (h : g.IsPastDue now start)
    (hnow' : now'.isLeap = false) (hle : now.nanos ≤ now'.nanos) (hdays : 0 ≤ g'.maxDays)
    (hfewer : g'.maxDays ≤ g.maxDays) : g'.IsPastDue now' start := by
  obtain ⟨⟨hfirst, -⟩, hlt⟩ := h
  obtain ⟨-, hlast⟩ := Instant.inRange_nanos hnow'
  simp only [IsPastDue, NanosInRange, due, nanosPerSecond] at *
  omega

/-! ## The answer -/

theorem readTime_eq_some {row : Cells} {column : String} {optional : Bool} {t : Instant}
    (h : readTime row column optional = .ok (some t)) : ∃ ms, t = .ofMillis ms := by
  unfold readTime at h
  split at h
  · cases h
  · cases h
  · cases h
    exact ⟨_, rfl⟩
  · cases h

theorem readAttempt_eq_ok {row : Cells} {attempt : Attempt} (h : readAttempt row = .ok attempt) :
    ∃ ms, attempt.start = .ofMillis ms := by
  unfold readAttempt at h
  split at h
  · cases h
  split at h
  · cases h
  · cases h
  · rename_i start hstart
    cases hstop : readTime row stopColumn true with
    | error fault =>
      rw [hstop] at h
      cases h
    | ok stop =>
      rw [hstop] at h
      cases h
      exact readTime_eq_some hstart

-- A start that is told comes from storage, and lies in no leap second.
theorem isLeap_start {attempt : Attempt} (h : g.latest db = .ok (some attempt)) :
    attempt.start.isLeap = false := by
  unfold latest at h
  split at h
  · cases h
  split at h
  · cases h
  · rename_i row hrow
    cases hread : readAttempt row with
    | error fault =>
      rw [hread] at h
      cases h
    | ok told =>
      rw [hread] at h
      cases h
      obtain ⟨ms, hms⟩ := readAttempt_eq_ok hread
      rw [hms]
      exact Instant.isLeap_ofMillis ms

theorem isOverdue_iff (db : Database) (hnow : now.isLeap = false) :
    g.isOverdue now db = .ok true ↔
      ∃ attempt, g.latest db = .ok (some attempt) ∧ g.IsPastDue now attempt.start := by
  unfold isOverdue
  cases hlatest : g.latest db with
  | error fault => simp
  | ok latest =>
    cases latest with
    | none => simp
    | some attempt =>
      simp only [Except.ok.injEq, Option.some.injEq, exists_eq_left',
        ← exists_deadline_iff hnow (isLeap_start hlatest)]
      cases g.deadline? now <;> simp

-- A ledger that tells of its latest attempt also tells whether imports are overdue.
theorem isOverdue_isOk {latest : Option Attempt} (h : g.latest db = .ok latest) (now : Instant) :
    ∃ answer, g.isOverdue now db = .ok answer := by
  unfold isOverdue
  rw [h]
  cases latest <;> exact ⟨_, rfl⟩

theorem latest_congr {g' : Ledger} (h : g'.home = g.home) (db : Database) : g'.latest db = g.latest db := by
  rw [latest, latest, table, table, h]

/-! ## Histories -/

namespace Holds

theorem latest_isOk {log : List Entry} (h : g.Holds db log) : ∃ latest, g.latest db = .ok latest := by
  by_cases hlog : log = []
  · subst hlog
    exact ⟨_, h.latest_none⟩
  · obtain ⟨attempt, -, hlatest, -⟩ := h.latest_start hlog
    exact ⟨_, hlatest⟩

-- The start of the latest attempt is known from all starts.
theorem start_congr {log log' : List Entry} (h : g.Holds db log) (h' : g.Holds db' log')
    (hstarts : log'.map Entry.start = log.map Entry.start) {attempt : Attempt}
    (hlatest : g.latest db = .ok (some attempt)) :
    ∃ attempt', g.latest db' = .ok (some attempt') ∧ attempt'.start = attempt.start := by
  have hlog : log ≠ [] := by
    rintro rfl
    rw [h.latest_none] at hlatest
    cases hlatest
  have hlog' : log' ≠ [] := by
    rintro rfl
    exact hlog (List.map_eq_nil_iff.1 hstarts.symm)
  obtain ⟨told, ms, htold, hms, hmem, hgreatest⟩ := h.latest_start hlog
  obtain ⟨told', ms', htold', hms', hmem', hgreatest'⟩ := h'.latest_start hlog'
  rw [htold] at hlatest
  cases hlatest
  rw [hstarts] at hmem' hgreatest'
  have hsame : ms' = ms := Int.le_antisymm (hgreatest ms' hmem') (hgreatest' ms hmem)
  exact ⟨told', htold', by rw [hms', hms, hsame]⟩

end Holds

/-- Whether imports are overdue is what exact arithmetic says, for any number of days: there is a latest
attempt, and the clock less the days is an instant and later than its start.  Of a table that calls have
written there is always an answer.  With days that are not negative, overdue imports stay so while the
clock goes on and no attempt begins, whatever ends, and they are overdue with fewer days too. -/
theorem isOverdue_exact (g : Ledger) :
    (∀ now db, now.isLeap = false → (g.isOverdue now db = .ok true ↔
      ∃ attempt, g.latest db = .ok (some attempt) ∧ g.IsPastDue now attempt.start)) ∧
    (∀ before calls db, g.Created before → g.Calls before calls db →
      (∀ now, ∃ answer, g.isOverdue now db = .ok answer) ∧
      ∀ now more now' db', 0 ≤ g.maxDays → now.isLeap = false → g.isOverdue now db = .ok true →
        g.Calls db more db' → LedgerCall.starts more = [] → now'.isLeap = false → now ≤ now' →
        g.isOverdue now' db' = .ok true) ∧
    ∀ (g' : Ledger) now db, g'.home = g.home → 0 ≤ g'.maxDays → g'.maxDays ≤ g.maxDays →
      now.isLeap = false → g.isOverdue now db = .ok true → g'.isOverdue now db = .ok true := by
  refine ⟨fun now db hnow => isOverdue_iff db hnow, fun before calls db hcreated hcalls => ⟨?_, ?_⟩, ?_⟩
  · obtain ⟨log, hholds, -⟩ := hcalls.holds hcreated.holds (by decide)
    obtain ⟨latest, hlatest⟩ := hholds.latest_isOk
    exact fun now => isOverdue_isOk hlatest now
  · intro now more now' db' hdays hnow hoverdue hmore hnone hnow' hle
    obtain ⟨log, hholds, hstarts⟩ := hcalls.holds hcreated.holds (by decide)
    have hroom : log.length < 2 ^ 63 := by
      have hlength := congrArg List.length hstarts
      rw [List.length_map, List.length_take] at hlength
      omega
    obtain ⟨log', hholds', hstarts'⟩ := hmore.holds hholds hroom
    rw [hnone, List.append_nil, List.take_of_length_le (by rw [List.length_map]; omega)] at hstarts'
    obtain ⟨attempt, hlatest, hpast⟩ := (isOverdue_iff db hnow).1 hoverdue
    obtain ⟨attempt', hlatest', hstart⟩ := hholds.start_congr hholds' hstarts' hlatest
    refine (isOverdue_iff db' hnow').2 ⟨attempt', hlatest', hstart ▸ ?_⟩
    exact hpast.mono hnow' ((Instant.le_iff_nanos hnow hnow').1 hle) hdays (Int.le_refl _)
  · intro g' now db hhome hdays hfewer hnow hoverdue
    obtain ⟨attempt, hlatest, hpast⟩ := (isOverdue_iff db hnow).1 hoverdue
    refine (isOverdue_iff db hnow).2 ⟨attempt, (latest_congr hhome db).trans hlatest, ?_⟩
    exact hpast.mono hnow (Int.le_refl _) hdays hfewer

/-- The ledger of persons after the newest of its attempts has failed. -/
def personsFailed : Database := (LedgerCall.finish (.ofMillis 9500) .failure).after persons personsBegun

-- A day and a millisecond after the latest start, then later and after a failure, and with no days at all.
theorem isOverdue_exact_persons :
    persons.isOverdue (.ofMillis 86409001) personsBegun = .ok true ∧
      persons.isOverdue (.ofMillis 86500000) personsFailed = .ok true ∧
      { persons with maxDays := 0 }.isOverdue (.ofMillis 86409001) personsBegun = .ok true := by
  obtain ⟨hexact, hhistory, hfewer⟩ := isOverdue_exact persons
  have hoverdue : persons.isOverdue (.ofMillis 86409001) personsBegun = .ok true :=
    (hexact _ _ (by decide)).2
      ⟨{ start := .ofMillis 9000, stop := none, outcome := none }, by decide +kernel, by decide⟩
  refine ⟨hoverdue, ?_, hfewer _ _ _ rfl (by decide) (by decide) (by decide) hoverdue⟩
  exact (hhistory _ _ _ personsCreated_created personsBegun_calls).2 _ [.finish (.ofMillis 9500) .failure]
    _ _ (by decide) (by decide) hoverdue (.next .nil rfl _) rfl (by decide) (by decide)

-- A deadline behind all instants is never met, however early the start.
example : { persons with maxDays := -9223372036854775808 }.isOverdue (.ofMillis 86409001) personsBegun =
    .ok false := by
  decide +kernel

end Ledger

end Registry
