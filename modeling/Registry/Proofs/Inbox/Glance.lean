import Mathlib.Data.List.Chain
import Registry.Inbox
import Registry.Proofs.Time.Span

/-!
# Glance — what was seen of a data set, and what a sample remembers of it

Glances at a data set tell its sizes one after the other.  It stands since a glance when it had its
size in every glance from there on and no two of them lie too far apart, so a glance that starts anew
is the first since which it can stand.  A sample remembers of all glances the last one and the one
that started anew, and that is enough to tell since when the data set stands.
-/

namespace Registry

/-! ## Glances -/

/-- What a call of an inbox tells of one data set: its size at an instant, or that it is gone. -/
inductive Glance (σ : Type) where
  | seen (size : σ) (now : Instant)
  | gone
  deriving DecidableEq

namespace Glance

variable {σ τ : Type}

def time? : Glance σ → Option Instant
  | seen _ now => some now
  | gone => none

/-- The glance as it is told in other sizes. -/
def map (f : σ → τ) : Glance σ → Glance τ
  | seen size now => seen (f size) now
  | gone => gone

/-- The two instants lie less than the expiry apart. -/
def Near (expiry : Int) (earlier later : Instant) : Prop := later.nanosSince earlier < expiry

instance (expiry : Int) (earlier later : Instant) : Decidable (Near expiry earlier later) :=
  inferInstanceAs (Decidable (_ < _))

/-- From the glance at an instant on the data set was there with one size, in glances near to each
other up to now. -/
def StandsSince (expiry : Int) (glances : List (Glance σ)) (size : σ) (now since : Instant) : Prop :=
  ∃ earlier times, glances = earlier ++ (since :: times).map (seen size) ∧
    (since :: times ++ [now]).IsChain (Near expiry)

/-- The data set stands for a whole period. -/
def IsSettled (period expiry : Int) (glances : List (Glance σ)) (size : σ) (now : Instant) : Prop :=
  ∃ since, StandsSince expiry glances size now since ∧ period ≤ now.nanosSince since

/-- A glance at this size now starts anew: there was none before, or the data set was gone since the
last one, or had another size in it, or the last one lies too far back. -/
def StartsAnew (expiry : Int) (glances : List (Glance σ)) (size : σ) (now : Instant) : Prop :=
  match glances.getLast? with
  | some (seen old last) => old ≠ size ∨ ¬ Near expiry last now
  | _ => True

/-- The glances come in the order of time, outside of leap seconds, and none is later than the
latest reading of the clock. -/
structure InOrder (glances : List (Glance σ)) (latest : Instant) : Prop where
  ascending : (glances.filterMap time?).Pairwise (· ≤ ·)
  bounded : ∀ t ∈ glances.filterMap time?, t ≤ latest
  plain : ∀ t ∈ glances.filterMap time?, t.isLeap = false
  latest_plain : latest.isLeap = false

variable {period expiry : Int} {now since latest : Instant}

section

variable {glances earlier later : List (Glance σ)} {size : σ}

/-! ### Order -/

namespace InOrder

theorem time_mem {time : Instant} (hmem : seen size time ∈ glances) :
    time ∈ glances.filterMap time? :=
  List.mem_filterMap.2 ⟨_, hmem, rfl⟩

theorem nil (hplain : latest.isLeap = false) : InOrder ([] : List (Glance σ)) latest :=
  ⟨List.Pairwise.nil, (fun _ h => by cases h), (fun _ h => by cases h), hplain⟩

theorem mono (h : InOrder glances latest) (hle : latest ≤ now) (hplain : now.isLeap = false) :
    InOrder glances now :=
  ⟨h.ascending, fun t ht => Instant.le_trans (h.bounded t ht) hle, h.plain, hplain⟩

theorem append_seen (h : InOrder glances now) (size : σ) : InOrder (glances ++ [seen size now]) now := by
  have htimes : (glances ++ [seen size now]).filterMap time? = glances.filterMap time? ++ [now] := by
    rw [List.filterMap_append]
    rfl
  have hmem : ∀ t ∈ glances.filterMap time? ++ [now], t ∈ glances.filterMap time? ∨ t = now := by
    intro t ht
    rwa [List.mem_append, List.mem_singleton] at ht
  refine ⟨?_, ?_, ?_, h.latest_plain⟩ <;> rw [htimes]
  · rw [List.pairwise_append]
    refine ⟨h.ascending, List.pairwise_singleton _ _, fun t ht s hs => ?_⟩
    rw [List.mem_singleton.1 hs]
    exact h.bounded t ht
  · intro t ht
    rcases hmem t ht with ht | rfl
    · exact h.bounded t ht
    · exact Instant.le_refl _
  · intro t ht
    rcases hmem t ht with ht | rfl
    · exact h.plain t ht
    · exact h.latest_plain

theorem append_gone (h : InOrder glances latest) : InOrder (glances ++ [gone]) latest := by
  have htimes : (glances ++ [gone]).filterMap time? = glances.filterMap time? := by
    rw [List.filterMap_append]
    exact List.append_nil _
  refine ⟨?_, ?_, ?_, h.latest_plain⟩ <;> rw [htimes]
  · exact h.ascending
  · exact h.bounded
  · exact h.plain

-- Of two glances, the one behind the other is no earlier.
theorem le_of_split (h : InOrder (earlier ++ seen size since :: later) latest) {size' : σ}
    {time : Instant} (hmem : seen size' time ∈ seen size since :: later) : since ≤ time := by
  rcases List.mem_cons.1 hmem with heq | hmem
  · cases heq
    exact Instant.le_refl _
  · have hascending := h.ascending
    rw [List.filterMap_append, List.filterMap_cons_some (rfl : time? (seen size since) = some since),
      List.pairwise_append] at hascending
    exact List.rel_of_pairwise_cons hascending.2.1 (time_mem hmem)

end InOrder

/-! ### Standing and starting anew -/

theorem startsAnew_nil : StartsAnew expiry [] size now := trivial

theorem startsAnew_append_gone : StartsAnew expiry (glances ++ [gone]) size now := by
  rw [StartsAnew, List.getLast?_concat]
  trivial

theorem startsAnew_append_seen {old : σ} {last : Instant} :
    StartsAnew expiry (glances ++ [seen old last]) size now ↔ old ≠ size ∨ ¬ Near expiry last now := by
  rw [StartsAnew, List.getLast?_concat]

theorem exists_last (since : Instant) (times : List Instant) :
    ∃ front last, since :: times = front ++ [last] :=
  ⟨_, _, (List.dropLast_append_getLast (List.cons_ne_nil since times)).symm⟩

-- Where a glance starts anew, the data set stands since no glance before it.
theorem not_standsSince_of_startsAnew (hanew : StartsAnew expiry glances size now) :
    ¬ StandsSince expiry glances size now since := by
  rintro ⟨earlier, times, rfl, hchain⟩
  obtain ⟨front, last, hlast⟩ := exists_last since times
  rw [hlast, List.map_append, ← List.append_assoc] at hanew
  rw [hlast, List.append_assoc, List.isChain_append] at hchain
  rcases startsAnew_append_seen.1 hanew with hother | hfar
  · exact hother rfl
  · apply hfar
    exact List.isChain_cons_cons.1 hchain.2.1 |>.1

-- A data set stands since no glance in front of one that starts anew.
theorem le_of_standsSince {start : Instant} {old : σ} (hordered : InOrder glances latest)
    (hglances : glances = earlier ++ seen old start :: later)
    (hanew : StartsAnew expiry earlier old start) (hstands : StandsSince expiry glances size now since) :
    start ≤ since := by
  obtain ⟨before, times, hstanding, hchain⟩ := hstands
  have hsince : seen size since ∈ (since :: times).map (seen size) := List.mem_cons_self ..
  subst hglances
  rcases List.append_eq_append_iff.1 hstanding with ⟨between, -, hrest⟩ | ⟨between, hearlier, hrest⟩
  -- The glance since which it stands is the one that starts anew or lies behind it ...
  · have hbehind : seen size since ∈ seen old start :: later := by
      rw [hrest]
      exact List.mem_append_right _ hsince
    exact hordered.le_of_split hbehind
  -- ... or before it, and then it would stand up to that glance without a new start.
  · obtain ⟨front, rear, htimes, rfl, hrear⟩ := List.map_eq_append_iff.1 hrest
    obtain ⟨start', rest, rfl, hstart, -⟩ := List.map_eq_cons_iff.1 hrear
    cases hstart
    cases front with
    | nil =>
      cases htimes
      exact Instant.le_refl _
    | cons first front =>
      cases htimes
      have hstands : StandsSince expiry earlier size start since := by
        refine ⟨before, front, hearlier, hchain.prefix ⟨rest ++ [now], ?_⟩⟩
        simp
      exact absurd hstands (not_standsSince_of_startsAnew hanew)

theorem not_isSettled_of_startsAnew (hanew : StartsAnew expiry glances size now) :
    ¬ IsSettled period expiry glances size now := by
  rintro ⟨since, hstands, -⟩
  exact not_standsSince_of_startsAnew hanew hstands

-- So it has not stood for a period before the period has gone by since that glance.
theorem IsSettled.le_nanosSince {start : Instant} {old : σ}
    (hsettled : IsSettled period expiry glances size now) (hordered : InOrder glances now)
    (hglances : glances = earlier ++ seen old start :: later)
    (hanew : StartsAnew expiry earlier old start) : period ≤ now.nanosSince start := by
  obtain ⟨since, hstands, hperiod⟩ := hsettled
  have hle := le_of_standsSince hordered hglances hanew hstands
  have hstart : seen old start ∈ glances := by
    rw [hglances]
    exact List.mem_append_right _ (List.mem_cons_self ..)
  have hsince : seen size since ∈ glances := by
    obtain ⟨before, times, hstanding, -⟩ := hstands
    rw [hstanding]
    exact List.mem_append_right _ (List.mem_cons_self ..)
  exact Int.le_trans hperiod (Instant.nanosSince_mono (Instant.le_refl _) hle hordered.latest_plain
    (hordered.plain _ (InOrder.time_mem hsince)) hordered.latest_plain
    (hordered.plain _ (InOrder.time_mem hstart)))

/-! ### The verdict that glances call for -/

/-- The verdict on a data set is the one that glances call for: it is stable just where it stands for
the period, so not where this glance starts anew, and not before the period has gone by since the last
one that did. -/
structure IsVerdict (period expiry : Int) (glances : List (Glance σ)) (size : σ) (now : Instant)
    (stable : Bool) : Prop where
  settled : stable = true ↔ IsSettled period expiry glances size now
  anew : StartsAnew expiry glances size now → stable = false
  since : ∀ earlier old start later, glances = earlier ++ .seen old start :: later →
    StartsAnew expiry earlier old start → stable = true → period ≤ now.nanosSince start

theorem isVerdict_of_settled {stable : Bool} (hordered : InOrder glances now)
    (hsettled : stable = true ↔ IsSettled period expiry glances size now) :
    IsVerdict period expiry glances size now stable where
  settled := hsettled
  anew hanew := by
    rw [Bool.eq_false_iff]
    exact fun hstable => not_isSettled_of_startsAnew hanew (hsettled.1 hstable)
  since _ _ _ _ hglances hanew hstable := (hsettled.1 hstable).le_nanosSince hordered hglances hanew

/-! ### Glances in other sizes -/

theorem filterMap_time?_map (f : σ → τ) (glances : List (Glance σ)) :
    (glances.map (Glance.map f)).filterMap time? = glances.filterMap time? := by
  induction glances with
  | nil => rfl
  | cons g rest ih =>
    cases g with
    | seen size now => exact congrArg (now :: ·) ih
    | gone => exact ih

theorem inOrder_map {f : σ → τ} (h : InOrder (glances.map (Glance.map f)) latest) :
    InOrder glances latest := by
  obtain ⟨hascending, hbounded, hplain, hlatest⟩ := h
  rw [filterMap_time?_map] at hascending hbounded hplain
  exact ⟨hascending, hbounded, hplain, hlatest⟩

-- Glances that are told with one size have it, where no other size is told like it.
theorem eq_map_seen_of_told {f : σ → τ} {times : List Instant}
    (honly : ∀ other time, seen other time ∈ glances → f other = f size → other = size)
    (htold : glances.map (Glance.map f) = times.map (seen (f size))) :
    glances = times.map (seen size) := by
  induction glances generalizing times with
  | nil =>
    cases times with
    | nil => rfl
    | cons time times => cases htold
  | cons g rest ih =>
    cases times with
    | nil => cases htold
    | cons time times =>
      rw [List.map_cons, List.map_cons] at htold
      obtain ⟨hfirst, hrest⟩ := List.cons.inj htold
      cases g with
      | gone => cases hfirst
      | seen other now =>
        injection hfirst with hsize htime
        rw [List.map_cons, honly other now (List.mem_cons_self ..) hsize, htime,
          ih (fun other time hmem => honly other time (List.mem_cons_of_mem _ hmem)) hrest]

theorem isSettled_map_iff {f : σ → τ}
    (honly : ∀ other time, seen other time ∈ glances → f other = f size → other = size) :
    IsSettled period expiry (glances.map (Glance.map f)) (f size) now ↔
      IsSettled period expiry glances size now := by
  constructor
  · rintro ⟨since, ⟨earlier, times, hglances, hchain⟩, hperiod⟩
    obtain ⟨front, rear, rfl, -, hrear⟩ := List.map_eq_append_iff.1 hglances
    rw [eq_map_seen_of_told (fun other time hmem => honly other time (List.mem_append_right _ hmem)) hrear]
    exact ⟨since, ⟨front, times, rfl, hchain⟩, hperiod⟩
  · rintro ⟨since, ⟨earlier, times, rfl, hchain⟩, hperiod⟩
    refine ⟨since, ⟨earlier.map (Glance.map f), times, ?_, hchain⟩, hperiod⟩
    rw [List.map_append, List.map_map]
    rfl

end

/-! ## What a sample remembers -/

section

variable {glances earlier later : List (Glance UInt64)} {size : UInt64}

/-- The sample tells the last glance and the one that started anew, since which the data set stands;
without a sample, every glance from now on starts anew. -/
def Remembers (expiry : Int) (glances : List (Glance UInt64)) (latest : Instant) : Option Sample → Prop
  | none => ∀ size now, latest ≤ now → now.isLeap = false → StartsAnew expiry glances size now
  | some s => ∃ earlier front, glances = earlier ++ (front ++ [s.lastSeen]).map (seen s.size) ∧
      (front ++ [s.lastSeen]).IsChain (Near expiry) ∧ (front ++ [s.lastSeen]).head? = some s.since ∧
      StartsAnew expiry earlier s.size s.since

namespace Remembers

variable {sample : Option Sample}

theorem exists_glances_some {s : Sample} (h : Remembers expiry glances latest (some s)) :
    ∃ before, glances = before ++ [seen s.size s.lastSeen] := by
  obtain ⟨earlier, front, rfl, -⟩ := h
  exact ⟨earlier ++ front.map (seen s.size), by simp⟩

theorem mono (h : Remembers expiry glances latest sample) (hle : latest ≤ now) :
    Remembers expiry glances now sample := by
  cases sample with
  | none => exact fun size later hlater hplain => h size later (Instant.le_trans hle hlater) hplain
  | some s => exact h

theorem none_of_gone : Remembers expiry (glances ++ [gone]) latest none :=
  fun _ _ _ _ => startsAnew_append_gone

/-- The sample was looked at not too long ago. -/
def IsFresh (expiry : Int) (now : Instant) (sample : Option Sample) : Prop :=
  ∀ s ∈ sample, Near expiry s.lastSeen now

-- A sample that was not looked at for too long tells no more than no sample.
theorem purged (h : Remembers expiry glances now sample) (hordered : InOrder glances now) :
    Remembers expiry glances now (sample.filter fun s => Near expiry s.lastSeen now) := by
  cases sample with
  | none => exact h
  | some s =>
    by_cases hnear : Near expiry s.lastSeen now
    · have hkept : ((some s).filter fun s => Near expiry s.lastSeen now) = some s := by simp [hnear]
      rw [hkept]
      exact h
    · have hdropped : ((some s).filter fun s => Near expiry s.lastSeen now) = none := by
        simp [hnear]
      rw [hdropped]
      obtain ⟨before, rfl⟩ := h.exists_glances_some
      have hlast : s.lastSeen ∈ (before ++ [seen s.size s.lastSeen]).filterMap time? :=
        InOrder.time_mem (List.mem_append_right _ (List.mem_singleton_self _))
      intro size later hle hplain
      refine startsAnew_append_seen.2 (.inr fun hnear' => hnear ?_)
      exact Int.lt_of_le_of_lt (Instant.nanosSince_mono hle (Instant.le_refl _) hordered.latest_plain
        (hordered.plain _ hlast) hplain (hordered.plain _ hlast)) hnear'

theorem isFresh_purged (sample : Option Sample) :
    IsFresh expiry now (sample.filter fun s => Near expiry s.lastSeen now) := by
  intro s hs
  exact of_decide_eq_true (Option.filter_eq_some_iff.1 hs).2

-- A glance at a size makes the sample that tells of it.
theorem seen (h : Remembers expiry glances now sample) (hfresh : IsFresh expiry now sample)
    (hplain : now.isLeap = false) (size : UInt64) :
    Remembers expiry (glances ++ [seen size now]) now (some (Sample.seen size now sample)) := by
  have hstart : StartsAnew expiry glances size now →
      Remembers expiry (glances ++ [.seen size now]) now (some ⟨size, now, now⟩) := fun hanew =>
    ⟨glances, [], rfl, List.isChain_singleton _, rfl, hanew⟩
  cases sample with
  | none => exact hstart (h size now (Instant.le_refl _) hplain)
  | some s =>
    rw [Sample.seen]
    by_cases hsize : s.size = size
    · -- The same size goes on from the last glance, which is not too far back.
      obtain ⟨earlier, front, rfl, hchain, hhead, hanew⟩ := h
      rw [if_pos hsize]
      subst hsize
      refine ⟨earlier, front ++ [s.lastSeen], by simp, ?_, ?_, hanew⟩
      · refine List.isChain_append.2 ⟨hchain, List.isChain_singleton _, ?_⟩
        intro last hlast next hnext
        rw [List.getLast?_concat] at hlast
        cases hlast
        cases hnext
        exact hfresh s rfl
      · rw [List.head?_append, hhead]
        rfl
    · rw [if_neg hsize]
      obtain ⟨before, rfl⟩ := h.exists_glances_some
      exact hstart (startsAnew_append_seen.2 (.inl hsize))

theorem exists_glances_since {s : Sample} (h : Remembers expiry glances latest (some s)) :
    ∃ earlier later, glances = earlier ++ .seen s.size s.since :: later ∧
      StartsAnew expiry earlier s.size s.since := by
  obtain ⟨earlier, front, rfl, -, hhead, hanew⟩ := h
  obtain ⟨rest, hrest⟩ : ∃ rest, front ++ [s.lastSeen] = s.since :: rest :=
    ⟨_, List.eq_cons_of_mem_head? hhead⟩
  exact ⟨earlier, rest.map (.seen s.size), by rw [hrest, List.map_cons], hanew⟩

theorem isLeap_since {s : Sample} (h : Remembers expiry glances latest (some s))
    (hordered : InOrder glances latest) : s.since.isLeap = false := by
  obtain ⟨earlier, later, rfl, -⟩ := h.exists_glances_since
  exact hordered.plain _ (InOrder.time_mem (List.mem_append_right _ (List.mem_cons_self ..)))

/-! ### The verdict -/

-- A data set stands since the glance that its sample tells, and since none before it.
theorem isSettled_iff (h : Remembers expiry glances now sample) (hfresh : IsFresh expiry now sample)
    (hordered : InOrder glances now) : IsSettled period expiry glances size now ↔
      ∃ s ∈ sample, s.size = size ∧ period ≤ now.nanosSince s.since := by
  cases sample with
  | none =>
    have hanew := h size now (Instant.le_refl _) hordered.latest_plain
    simpa using not_isSettled_of_startsAnew hanew
  | some s =>
    simp only [Option.mem_def, Option.some.injEq, exists_eq_left']
    constructor
    · intro hsettled
      constructor
      · apply Classical.byContradiction
        intro hsize
        obtain ⟨before, rfl⟩ := h.exists_glances_some
        exact not_isSettled_of_startsAnew (startsAnew_append_seen.2 (.inl hsize)) hsettled
      · obtain ⟨earlier, later, hglances, hanew⟩ := h.exists_glances_since
        exact hsettled.le_nanosSince hordered hglances hanew
    · rintro ⟨rfl, hperiod⟩
      obtain ⟨earlier, front, rfl, hchain, hhead, hanew⟩ := h
      obtain ⟨rest, hrest⟩ : ∃ rest, front ++ [s.lastSeen] = s.since :: rest :=
        ⟨_, List.eq_cons_of_mem_head? hhead⟩
      refine ⟨s.since, ⟨earlier, rest, by rw [hrest], ?_⟩, hperiod⟩
      rw [← hrest]
      refine List.isChain_append.2 ⟨hchain, List.isChain_singleton _, ?_⟩
      intro last hlast next hnext
      rw [List.getLast?_concat] at hlast
      cases hlast
      cases hnext
      exact hfresh s rfl

end Remembers

end

end Glance

end Registry
