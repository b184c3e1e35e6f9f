import Registry.Proofs.History.RoundTrip
import Registry.Proofs.History.Written
import Registry.Record.Line

/-!
# Redelivery — a line that is delivered again

The date-times of a delivered line are whole seconds or leap seconds.  A record that was decoded from
a line and stored has the same stored values when it is read, and is found unchanged when the line is
delivered again, if none of its stored values lies in a leap second.  A leap second comes back as the
second that follows it, so a line with one is taken for news each time.
-/

namespace Registry

open Registry.Text

/-! ## Delivered values -/

-- A delivered date-time is a whole second, and second 60 is a leap second.
theorem Instant.nano_of_ofCompact? {text : List Char} {t : Instant} (h : ofCompact? text = some t) :
    t.nano = if numberAt text 12 2 = 60 then nanosPerSecond else 0 := by
  unfold ofCompact? ofCivil? at h
  split at h
  · dsimp only at h
    split at h
    · split at h
      · rename_i hleap
        rw [(ofParts?_eq_some h).2, if_pos hleap, Nat.zero_add]
      · rename_i hleap
        rw [(ofParts?_eq_some h).2, if_neg hleap]
    · cases h
  · cases h

namespace Value

/-- The value is no instant, or one that a line can denote. -/
def IsDelivered : Value → Prop
  | datetime t => t.nano = 0 ∨ t.nano = nanosPerSecond
  | _ => True

/-- The value is an instant in a leap second. -/
def IsLeap : Value → Prop
  | datetime t => t.isLeap = true
  | _ => False

instance : (v : Value) → Decidable v.IsLeap
  | datetime t => inferInstanceAs (Decidable (t.isLeap = true))
  | null | text _ | integer _ | decimal _ => instDecidableFalse

-- Of the values that a line can denote, storage keeps just those outside of leap seconds.
theorem IsDelivered.isWholeMilli_iff {v : Value} (h : v.IsDelivered) : v.IsWholeMilli ↔ ¬ v.IsLeap := by
  cases v with
  | datetime t =>
    rw [IsWholeMilli, IsLeap, Instant.IsWholeMilli, Bool.not_eq_true]
    constructor
    · exact fun hwhole => hwhole.1
    · intro hleap
      refine ⟨hleap, ?_⟩
      rcases h with hzero | hsecond
      · rw [hzero]
      · rw [hsecond]
        rfl
  | _ => simp [IsWholeMilli, IsLeap]

end Value

theorem FieldType.isDelivered_of_read {type : FieldType} {content : List Char} {v : Value}
    (h : type.read content = .ok v) : v.IsDelivered := by
  cases type with
  | text =>
    cases h
    trivial
  | integer =>
    unfold read at h
    dsimp only at h
    split at h
    · cases h
    · split at h
      · cases h
      · cases h
        trivial
  | decimal =>
    unfold read at h
    dsimp only at h
    split at h
    · cases h
      trivial
    · cases h
  | datetime =>
    unfold read at h
    dsimp only at h
    split at h
    · rename_i t ht
      cases h
      rw [Value.IsDelivered, Instant.nano_of_ofCompact? ht]
      split
      · exact .inr rfl
      · exact .inl rfl
    · cases h

theorem Field.isDelivered_of_read {f : Field} {offset : Nat} {slice : List Char} {v : Value}
    (h : f.read offset slice = .ok v) : v.IsDelivered := by
  unfold read at h
  split at h
  · rename_i v' hread
    cases h
    exact FieldType.isDelivered_of_read hread
  · cases h

/-! ## Decoded lines -/

/-- All values of the record are such that a line can denote. -/
def Record.IsDelivered (r : Record) : Prop := ∀ name v, r.get? name = some v → v.IsDelivered

theorem Record.IsDelivered.insert {r : Record} (h : r.IsDelivered) {v : Value} (hv : v.IsDelivered)
    (name : String) : Record.IsDelivered (r.insert name v) := by
  intro other value hget
  rw [SortedMap.get?_insert] at hget
  split at hget
  · cases hget
    exact hv
  · exact h other value hget

-- Reading fields keeps the layout of a draft and puts delivered values into it.
theorem Draft.readFields_eq_ok {fields : List Field} {d d' : Draft} {offset : Nat} {line : List Char}
    (h : d.readFields offset line fields = .ok d') (hd : d.record.IsDelivered) :
    d'.layout = d.layout ∧ d'.record.IsDelivered := by
  induction fields generalizing d offset line with
  | nil =>
    cases h
    exact ⟨rfl, hd⟩
  | cons f rest ih =>
    rw [readFields] at h
    split at h
    · exact ih h hd
    · split at h
      · exact ih h hd
      · split at h
        · cases h
        · rename_i v hread
          split at h
          · cases h
          · rename_i next hput
            obtain ⟨-, rfl⟩ := put_eq_ok_iff.1 hput
            have hrest := ih h (hd.insert (Field.isDelivered_of_read hread) f.name)
            exact hrest

namespace Layout

variable {l : Layout} {line : String} {r : Record}

-- A decoded record conforms to its layout and has values that a line can denote.
theorem decode_eq_ok (h : l.decode line = .ok r) : l.conforms r = true ∧ r.IsDelivered := by
  unfold decode decodeChars at h
  split at h
  · cases h
  · split at h
    · cases h
    · rename_i d hread
      obtain ⟨hlayout, hdelivered⟩ := Draft.readFields_eq_ok hread fun _ _ hget => by cases hget
      obtain ⟨hconforms, rfl⟩ := Draft.finish_eq_ok_iff.1 h
      rw [hlayout] at hconforms
      exact ⟨hconforms, hdelivered⟩

/-- A stored value of the record lies in a leap second. -/
def HasLeap (l : Layout) (r : Record) : Prop := ∃ f ∈ l.persisted, (r.valueOrNull f.name).IsLeap

instance (l : Layout) (r : Record) : Decidable (l.HasLeap r) :=
  inferInstanceAs (Decidable (∃ f ∈ l.persisted, _))

theorem isWholeMilli_iff_not_hasLeap (h : r.IsDelivered) : l.IsWholeMilli r ↔ ¬ l.HasLeap r := by
  have hvalue : ∀ name, (r.valueOrNull name).IsWholeMilli ↔ ¬ (r.valueOrNull name).IsLeap := by
    intro name
    rw [Record.valueOrNull]
    cases hget : r.get? name with
    | none => exact ⟨fun _ hleap => hleap, fun _ => trivial⟩
    | some v => exact (h name v hget).isWholeMilli_iff
  simp only [IsWholeMilli, HasLeap, hvalue, not_exists, not_and]

end Layout

/-! ## The same line again -/

theorem Recorder.insert_eq_ok {w : Recorder} {l : Layout} {r : Record} {db after : Database}
    {new : Version} (h : w.insert l r db = (.ok new, after)) :
    ∃ pid, new.pid = some pid ∧ w.insertRow l (w.openVersion r) db = (.ok pid, after) := by
  obtain ⟨pid, hinsert, rfl⟩ := insertVersion_eq_ok h
  exact ⟨pid, rfl, hinsert⟩

/-- A record that was decoded from a line is added to a register whose fields have plain names, where
nothing holds of its key and a number is left, and reconciling the record does the same.  Later, where
nothing else holds of the key, the version that a lookup finds has the stored values of the record just
when none of them lies in a leap second; then the line is unchanged when it is delivered again, and the
register is left as it was.
With a leap second the line replaces the version, unless no number is left. -/
theorem reconcile_redelivered {l : Layout} (hplain : l.NamesPlain) {line : String} {r : Record}
    (hdecode : l.decode line = .ok r) {db : Database} (hwritten : l.Written db) {w : Recorder}
    (hnone : w.fetchCurrent l (r.valueOrNull l.key) db = .ok none) :
    (l.HasRoom db → ∃ new after, w.insert l r db = (.ok new, after)) ∧
      ∀ new after, w.insert l r db = (.ok new, after) →
        ∃ pid, new.pid = some pid ∧ w.reconcile l r db = (.ok (.inserted pid), after) ∧
          ∀ w' : Recorder, w.time ≤ w'.time →
            w'.fetchCurrent l (r.valueOrNull l.key) db = .ok none →
            (∃ found, w'.fetchCurrent l (r.valueOrNull l.key) after = .ok (some found) ∧
              (l.samePersisted found.record r = true ↔ ¬ l.HasLeap r)) ∧
            (¬ l.HasLeap r → w'.reconcile l r after = (.ok (.unchanged pid), after)) ∧
            (l.HasLeap r → ∀ answer, (w'.reconcile l r after).1 = .ok answer →
              ∃ next, answer = .replaced pid next) := by
  obtain ⟨hconforms, hdelivered⟩ := Layout.decode_eq_ok hdecode
  obtain ⟨versions, given, hrecorded⟩ := hwritten.isRecorded hplain.key
  constructor
  · intro hroom
    obtain ⟨after, hinsert, -⟩ :=
      hrecorded.insertRow_eq (hrecorded.hasRoom_iff.1 hroom) w (v := w.openVersion r) hconforms
    exact ⟨_, after, by rw [Recorder.insert, Recorder.insertVersion, hinsert]⟩
  · intro new after hadded
    obtain ⟨pid, hpid, hinsert⟩ := Recorder.insert_eq_ok hadded
    obtain ⟨-, rfl, hafter⟩ := hrecorded.insertRow_eq_ok hconforms hinsert
    refine ⟨_, hpid, ?_, fun w' hlater hnone' => ?_⟩
    · rw [w.reconcile_eq, hnone]
      show w.add l r .inserted db = _
      rw [w.add_eq, hinsert]
    · have hle := Instant.toMillis_le_toMillis w.isLeap_time hlater
      have hfound := Versions.found_opened hrecorded.lt_next (hrecorded.found_eq_nil hplain.key hnone') hle
      have hsame : l.samePersisted ((w.openVersion r).stored l w.time).record.restored r = true ↔
          ¬ l.HasLeap r :=
        Layout.samePersisted_stored_restored_iff.trans (Layout.isWholeMilli_iff_not_hasLeap hdelivered)
      refine ⟨⟨_, hafter.fetchAt_some hplain (Layout.key_fits hconforms) hfound, hsame⟩,
        fun hnoLeap => ?_, fun hleap answer hok => ?_⟩
      · exact hafter.reconcile_same hplain w' hconforms hfound (hsame.2 hnoLeap)
      · have hdifferent : l.samePersisted ((w.openVersion r).stored l w.time).record.restored r = false := by
          rw [← Bool.not_eq_true]
          exact fun heq => hsame.1 heq hleap
        obtain ⟨_, hrun, -⟩ :=
          hafter.reconcile_different hplain w' (.inr ⟨answer, hok⟩) hconforms hfound hdifferent
        rw [hrun] at hok
        cases hok
        exact ⟨_, rfl⟩

/-! ### A small register -/

/-- A register of events and the seconds in which they were. -/
def eventLayout : Layout where
  table := "event"
  key := "name"
  fields := [Field.required "name" 4, (Field.required "at" 14).withType .datetime]
  table_identifier := by decide
  names_identifier := by decide
  names_nodup := by decide
  key_persisted := ⟨_, List.mem_cons_self .., rfl, rfl⟩

def event (second : Instant) : Record := .ofList [("name", .text "boot"), ("at", .datetime second)]

/-- The last second of the year 2016 before its leap second. -/
def lastOf2016 : Instant := .ofMillis 1483228799000

/-- The leap second at the end of the year 2016. -/
def leapOf2016 : Instant := { second := 1483228799, nano := 1000000000 }

theorem eventLayout_created : eventLayout.Created (eventLayout.createTable .empty).2 :=
  Layout.created_of_isOk rfl (by decide +kernel)

theorem eventLayout_plain : eventLayout.NamesPlain := by decide +kernel

theorem reconcile_redelivered_event :
    ∃ new after pid, eventLayout.decode "boot20161231235959" = .ok (event lastOf2016) ∧
      (Recorder.pinnedAt (.ofMillis 1000)).insert eventLayout (event lastOf2016)
        (eventLayout.createTable .empty).2 = (.ok new, after) ∧ new.pid = some pid ∧
      (Recorder.pinnedAt (.ofMillis 2000)).reconcile eventLayout (event lastOf2016) after =
        (.ok (.unchanged pid), after) := by
  have hdecode : eventLayout.decode "boot20161231235959" = .ok (event lastOf2016) := by decide +kernel
  have hnone : ∀ asOf, Recorder.fetchAt eventLayout (.text "boot") asOf
      (eventLayout.createTable .empty).2 = .ok none :=
    fun asOf => eventLayout_created.recorded.fetchAt_none eventLayout_plain.key
      eventLayout_plain.queryFault? rfl rfl
  obtain ⟨hadded, hagain⟩ := reconcile_redelivered eventLayout_plain hdecode (.created eventLayout_created)
    (w := .pinnedAt (.ofMillis 1000)) (hnone _)
  obtain ⟨new, after, hinsert⟩ := hadded eventLayout_created.hasRoom
  obtain ⟨pid, hpid, -, hlater⟩ := hagain new after hinsert
  obtain ⟨-, hunchanged, -⟩ := hlater (.pinnedAt (.ofMillis 2000)) (by decide +kernel) (hnone _)
  exact ⟨new, after, pid, hdecode, hinsert, hpid, hunchanged (by decide +kernel)⟩

-- An event in a leap second is read with the second that follows, and replaced by itself.
theorem reconcile_leapEvent :
    eventLayout.decode "boot20161231235960" = .ok (event leapOf2016) ∧
      ∃ after, (Recorder.pinnedAt (.ofMillis 1000)).reconcile eventLayout (event leapOf2016)
          (eventLayout.createTable .empty).2 = (.ok (.inserted 1), after) ∧
        (Recorder.pinnedAt (.ofMillis 2000)).fetchCurrent eventLayout (.text "boot") after =
          .ok (some { pid := some 1, record := event (.ofMillis 1483228800000)
                      validFrom := .ofMillis 1000, validTo := none, modified := some (.ofMillis 1000) }) ∧
        eventLayout.samePersisted (event (.ofMillis 1483228800000)) (event leapOf2016) = false ∧
        ((Recorder.pinnedAt (.ofMillis 2000)).reconcile eventLayout (event leapOf2016) after).1 =
          .ok (.replaced 1 2) :=
  ⟨by decide +kernel,
    ((Recorder.pinnedAt (.ofMillis 1000)).reconcile eventLayout (event leapOf2016)
      (eventLayout.createTable .empty).2).2, by decide +kernel⟩

end Registry
