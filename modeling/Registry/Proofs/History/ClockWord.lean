import Registry.Proofs.History.Recorded

/-!
# ClockWord — fields whose names are words for the clock

A field may have the name of one of the words that a statement reads as the clock.  Its values are
stored, but a lookup shows the clock in their place, whatever the row holds; where the field is no text
such a lookup fails as soon as it finds a row.
-/

namespace Registry

variable {l : Layout}

-- A text is read in the column of a text only, and as it is.
theorem Field.type_of_readCell {f : Field} {text : String} {value : Value}
    (h : f.readCell (.text text) = .ok value) : f.type = .text ∧ value = .text text := by
  unfold readCell at h
  split at h
  · rename_i hcell
    cases hcell
  · rename_i htype hcell
    cases hcell
    cases h
    exact ⟨htype, rfl⟩
  · rename_i hcell
    cases hcell
  · rename_i hcell
    cases hcell
  · rename_i hcell
    cases hcell
  · cases h

namespace StoredVersion

variable {v : StoredVersion}

-- The clock stands in the row of a version under its words.
theorem clock_of_readVersion (hnames : l.NamesApart) {pid : Int} {now : Instant} {read : Version}
    (hread : l.readVersion (answerOf l pid (v.shownCell now)) = .ok read) {f : Field}
    (hf : f ∈ l.persisted) {text : String} (hclock : clockText? now f.name = some text) :
    f.type = .text ∧ read.record.valueOrNull f.name = .text text := by
  rw [readVersion_answerOf hnames pid fun c hc => shownCell_of_column (Layout.sense_time hc) now v] at hread
  cases hfields : readFields (answerOf l pid (v.shownCell now)) l.persisted with
  | error fault =>
    rw [hfields] at hread
    cases hread
  | ok record =>
    rw [hfields] at hread
    cases hread
    have hnodup : (l.persisted.map Field.name).Nodup :=
      l.names_nodup.sublist (List.filter_sublist.map Field.name)
    have hcell : v.shownCell now f.name = .text text := by rw [shownCell, hclock]
    have hcolumn := readColumn_answerOf hnames pid (v.shownCell now) (Layout.column_mem hf)
    have hvalue := readCell_of_readFields hnodup hfields hf
    rw [show f.column.name = f.name from rfl, hcell] at hcolumn
    rw [hcolumn] at hvalue
    exact f.type_of_readCell hvalue

end StoredVersion

/-- A lookup that answers with a version shows the clock in each field that has a word for it as its
name, and each such field is a text. -/
theorem Recorded.clock_of_fetchAt {db : Database} {versions : Versions} {given : Nat}
    (h : Recorded l db versions given) (hsense : senseOf l.key = .column) {key : Value} {asOf : Instant}
    {v : Version} (hfetch : Recorder.fetchAt l key asOf db = .ok (some v)) {f : Field}
    (hf : f ∈ l.persisted) {text : String} (hclock : clockText? db.clock f.name = some text) :
    f.type = .text ∧ v.record.valueOrNull f.name = .text text := by
  obtain ⟨t, -, hdesign, -⟩ := h.table
  obtain ⟨e, -, hread⟩ := h.exists_of_fetchAt hsense hfetch
  exact StoredVersion.clock_of_readVersion (Table.namesApart_of_design hdesign) hread hf hclock

/-! ### A small register -/

/-- A register of devices and the number of moments that were counted at each, under a word for the
clock. -/
def momentLayout : Layout where
  table := "moment"
  key := "device"
  fields := [Field.required "device" 4, ((Field.required "Current_Timestamp" 4).withType .integer).asOptional]
  table_identifier := by decide
  names_identifier := by decide
  names_nodup := by decide
  key_persisted := ⟨_, List.mem_cons_self .., rfl, rfl⟩

/-- A device at which nothing was counted, or some moments. -/
def moments (device : String) (counted : Option Int) : Record :=
  .ofList (("device", .text device) :: (counted.map fun n => ("Current_Timestamp", .integer n)).toList)

/-- How a lookup fails that reads the clock where it wants the moments. -/
def clockFault : HistoryFault := .database (.mismatch "Current_Timestamp" true .integer .text)

theorem momentLayout_created : momentLayout.Created (momentLayout.createTable .empty).2 :=
  Layout.created_of_isOk rfl (by decide +kernel)

end Registry
