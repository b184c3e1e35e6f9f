import Registry.Proofs.Number.DecimalText
import Registry.Proofs.Time.CompactText
import Registry.Record.Line

/-!
# Grammar — the lines of a layout

A line has a slice for each field that is not computed, in declared order, and each type has its own
texts.  The reader of lines accepts a line just when it has the right length and each slice that is read
holds a text of its type, and then the record has the values of these texts and no others.  Otherwise
the fault is the length, or the first field whose slice holds no such text.  Nothing that a slice can
hold is refused when it is put into the record, and nothing is missing in the end.
-/

namespace Registry

open Registry.Text

/-! ## Contents -/

namespace FieldType

/-- The content is a text of the type, and denotes the value. -/
inductive Denotes : FieldType → List Char → Value → Prop
  | text (content : List Char) : Denotes .text content (.text (String.ofList content))
  | integer {content : List Char} (hne : content ≠ []) (hdigits : allDigits content = true)
      (hle : natOfDigits content ≤ largestInteger) :
      Denotes .integer content (.integer (natOfDigits content))
  | decimal {content : List Char} {d : Decimal} (h : Decimal.IsText content d) :
      Denotes .decimal content (.decimal d)
  | datetime {content : List Char} {t : Instant} (h : Instant.IsText content t) :
      Denotes .datetime content (.datetime t)

/-- The content is no text of the type, for the reason. -/
inductive Refuses : FieldType → List Char → FieldReading → Prop
  | digits {content : List Char} (h : ¬ (content ≠ [] ∧ allDigits content = true)) :
      Refuses .integer content .digitsExpected
  | range {content : List Char} (hne : content ≠ []) (hdigits : allDigits content = true)
      (hlt : largestInteger < natOfDigits content) : Refuses .integer content .integerOutOfRange
  | decimal {content : List Char} (h : ¬ ∃ d, Decimal.IsText content d) :
      Refuses .decimal content .decimalExpected
  | datetime {content : List Char} (h : ¬ ∃ t, Instant.IsText content t) :
      Refuses .datetime content .datetimeExpected

theorem Denotes.read_eq {type : FieldType} {content : List Char} {v : Value}
    (h : type.Denotes content v) : type.read content = .ok v := by
  cases h with
  | text => rfl
  | integer hne hdigits hle =>
    simp only [read]
    rw [if_neg (by simp [hne, hdigits]), if_neg (by omega)]
  | decimal h => simp only [read, Decimal.ofDigits?_eq_some_iff.2 h]
  | datetime h => simp only [read, Instant.ofCompact?_eq_some_iff.2 h]

theorem Refuses.read_eq {type : FieldType} {content : List Char} {reason : FieldReading}
    (h : type.Refuses content reason) : type.read content = .error reason := by
  cases h with
  | digits h =>
    simp only [read]
    rw [if_pos (by simpa [Classical.or_iff_not_imp_left] using h)]
  | range hne hdigits hlt =>
    simp only [read]
    rw [if_neg (by simp [hne, hdigits]), if_pos hlt]
  | decimal h =>
    simp only [read]
    cases hread : Decimal.ofDigits? content with
    | none => rfl
    | some d => exact absurd ⟨d, Decimal.ofDigits?_eq_some_iff.1 hread⟩ h
  | datetime h =>
    simp only [read]
    cases hread : Instant.ofCompact? content with
    | none => rfl
    | some t => exact absurd ⟨t, Instant.ofCompact?_eq_some_iff.1 hread⟩ h

/-- Every content is a text of the type, or refused for a reason. -/
theorem denotes_or_refuses (type : FieldType) (content : List Char) :
    (∃ v, type.Denotes content v) ∨ ∃ reason, type.Refuses content reason := by
  cases type with
  | text => exact .inl ⟨_, .text content⟩
  | integer =>
    by_cases hform : content ≠ [] ∧ allDigits content = true
    · by_cases hle : natOfDigits content ≤ largestInteger
      · exact .inl ⟨_, .integer hform.1 hform.2 hle⟩
      · exact .inr ⟨_, .range hform.1 hform.2 (Nat.lt_of_not_le hle)⟩
    · exact .inr ⟨_, .digits hform⟩
  | decimal =>
    by_cases htext : ∃ d, Decimal.IsText content d
    · obtain ⟨d, hd⟩ := htext
      exact .inl ⟨_, .decimal hd⟩
    · exact .inr ⟨_, .decimal htext⟩
  | datetime =>
    by_cases htext : ∃ t, Instant.IsText content t
    · obtain ⟨t, ht⟩ := htext
      exact .inl ⟨_, .datetime ht⟩
    · exact .inr ⟨_, .datetime htext⟩

theorem read_eq_ok_iff {type : FieldType} {content : List Char} {v : Value} :
    type.read content = .ok v ↔ type.Denotes content v := by
  refine ⟨fun h => ?_, Denotes.read_eq⟩
  rcases type.denotes_or_refuses content with ⟨v', hv'⟩ | ⟨reason, hrefused⟩
  · rw [hv'.read_eq] at h
    cases h
    exact hv'
  · rw [hrefused.read_eq] at h
    cases h

theorem Refuses.not_denotes {type : FieldType} {content : List Char} {reason : FieldReading}
    (h : type.Refuses content reason) : ¬ ∃ v, type.Denotes content v := by
  rintro ⟨v, hv⟩
  have hread := hv.read_eq
  rw [h.read_eq] at hread
  cases hread

namespace Denotes

variable {type : FieldType} {content : List Char} {v : Value} (h : type.Denotes content v)
include h

theorem isNull_eq : v.isNull = false := by
  cases h <;> rfl

theorem fits : v.fits type = true := by
  cases h <;> rfl

end Denotes

end FieldType

/-! ## Slices -/

/-- A line has characters for the field, and they are read. -/
def Field.IsRead (f : Field) : Prop := f.computed = false ∧ f.ignored = false

instance (f : Field) : Decidable f.IsRead := inferInstanceAs (Decidable (_ ∧ _))

/-- The number of characters that a line has for the fields in front of a field. -/
def offsetIn (fields : List Field) (f : Field) : Nat :=
  ((fields.takeWhile (·.name != f.name)).map Field.lineWidth).sum

/-- The characters of a field in a line. -/
def sliceIn (fields : List Field) (line : List Char) (f : Field) : List Char :=
  (line.drop (offsetIn fields f)).take f.width

/-- The characters of a field in a line, without the padding. -/
def contentIn (fields : List Field) (line : List Char) (f : Field) : List Char :=
  trim (sliceIn fields line f)

section

variable (f : Field) (rest : List Field)

theorem offsetIn_self : offsetIn (f :: rest) f = 0 := by
  simp [offsetIn]

theorem sliceIn_self (line : List Char) : sliceIn (f :: rest) line f = line.take f.width := by
  rw [sliceIn, offsetIn_self, List.drop_zero]

variable {f rest} {g : Field} (h : ((f :: rest).map Field.name).Nodup) (hg : g ∈ rest)
include h hg

theorem offsetIn_cons : offsetIn (f :: rest) g = f.lineWidth + offsetIn rest g := by
  have hne : (f.name != g.name) = true := by
    rw [List.map_cons, List.nodup_cons] at h
    rw [bne_iff_ne]
    exact fun heq => h.1 (heq ▸ List.mem_map_of_mem hg)
  rw [offsetIn, List.takeWhile_cons_of_pos (by exact hne), List.map_cons, List.sum_cons, offsetIn]

theorem sliceIn_cons (line : List Char) :
    sliceIn (f :: rest) line g = sliceIn rest (line.drop f.lineWidth) g := by
  rw [sliceIn, sliceIn, offsetIn_cons h hg, ← List.drop_drop]

theorem contentIn_cons (line : List Char) :
    contentIn (f :: rest) line g = contentIn rest (line.drop f.lineWidth) g := by
  rw [contentIn, contentIn, sliceIn_cons h hg]

end

theorem Text.length_trim_le (text : List Char) : (trim text).length ≤ text.length := by
  have hfirst := (List.dropWhile_suffix (l := text) isBlank).length_le
  have hlast := (List.dropWhile_suffix (l := (trimLeft text).reverse) isBlank).length_le
  rw [List.length_reverse] at hlast
  rw [trim, List.length_reverse]
  exact Nat.le_trans hlast hfirst

/-- What a slice of the width of a field denotes may stand in the field. -/
theorem Field.fault?_of_denotes {f : Field} (hread : f.IsRead) {slice : List Char} {v : Value}
    (hwidth : slice.length ≤ f.width) (h : f.type.Denotes (trim slice) v) : f.fault? v = none := by
  have hfits := h.fits
  unfold fault?
  rw [if_neg (by simp [hread.2]), if_neg (by simp [hfits])]
  generalize f.type = type at *
  cases h with
  | text =>
    have htrim := Text.length_trim_le slice
    simp only [String.length_ofList]
    rw [if_neg (by omega)]
  | _ => rfl

/-! ## Reading a line -/

namespace Draft

variable (d : Draft) (offset : Nat) (line : List Char) {f : Field} (rest : List Field)

theorem readFields_skip (h : ¬ f.IsRead) : d.readFields offset line (f :: rest) =
    d.readFields (offset + f.lineWidth) (line.drop f.lineWidth) rest := by
  rw [readFields, Field.lineWidth]
  by_cases hcomputed : f.computed = true
  · rw [if_pos hcomputed, if_pos hcomputed]
    rfl
  · have hignored : f.ignored = true := by
      rw [← Bool.not_eq_false]
      exact fun hnot => h ⟨Bool.eq_false_iff.2 hcomputed, hnot⟩
    rw [if_neg hcomputed, if_neg hcomputed, if_pos hignored]

variable {d} in
theorem readFields_read (h : f.IsRead) {v : Value} (hfield : d.layout.field? f.name = some f)
    (hdenotes : f.type.Denotes (trim (line.take f.width)) v) :
    d.readFields offset line (f :: rest) =
      readFields { d with record := d.record.insert f.name v } (offset + f.lineWidth)
        (line.drop f.lineWidth) rest := by
  have hread : f.read offset (line.take f.width) = .ok v := by
    rw [Field.read, hdenotes.read_eq]
  have hput : d.put f.name v = .ok { d with record := d.record.insert f.name v } := by
    apply put_eq_ok_iff.2 ⟨_, rfl⟩
    rw [Layout.entryFault?, hfield]
    exact Field.fault?_of_denotes h (List.length_take_le ..) hdenotes
  rw [readFields, Field.lineWidth, h.1, h.2, hread]
  simp only [hput, Bool.false_eq_true, if_false]

theorem readFields_refuse (h : f.IsRead) {reason : FieldReading}
    (hrefuses : f.type.Refuses (trim (line.take f.width)) reason) :
    d.readFields offset line (f :: rest) =
      .error (.fieldReading f.name offset (String.ofList (line.take f.width)) reason) := by
  have hread : f.read offset (line.take f.width) =
      .error (.fieldReading f.name offset (String.ofList (line.take f.width)) reason) := by
    rw [Field.read, hrefuses.read_eq]
  rw [readFields, h.1, h.2, hread]
  simp only [Bool.false_eq_true, if_false]

end Draft

/-- Some field that is read has the name, and its slice denotes the value. -/
def DenotesIn (fields : List Field) (line : List Char) (name : String) (v : Value) : Prop :=
  ∃ f ∈ fields, f.IsRead ∧ f.name = name ∧ f.type.Denotes (contentIn fields line f) v

theorem denotesIn_cons {f : Field} {rest : List Field} (hnodup : ((f :: rest).map Field.name).Nodup)
    {line : List Char} {name : String} {v : Value} :
    DenotesIn (f :: rest) line name v ↔
      (f.IsRead ∧ f.name = name ∧ f.type.Denotes (trim (line.take f.width)) v) ∨
        DenotesIn rest (line.drop f.lineWidth) name v := by
  constructor
  · rintro ⟨g, hg, hread, hname, hdenotes⟩
    rcases List.mem_cons.1 hg with rfl | hg
    · rw [contentIn, sliceIn_self] at hdenotes
      exact .inl ⟨hread, hname, hdenotes⟩
    · rw [contentIn_cons hnodup hg] at hdenotes
      exact .inr ⟨g, hg, hread, hname, hdenotes⟩
  · rintro (⟨hread, hname, hdenotes⟩ | ⟨g, hg, hread, hname, hdenotes⟩)
    · rw [← sliceIn_self f rest line] at hdenotes
      exact ⟨f, List.mem_cons_self .., hread, hname, hdenotes⟩
    · rw [← contentIn_cons hnodup hg] at hdenotes
      exact ⟨g, List.mem_cons_of_mem f hg, hread, hname, hdenotes⟩

/-- Where each slice holds a text of its field, all values are put in, and nothing else changes. -/
theorem Draft.readFields_of_denotes {fields : List Field} (d : Draft) (offset : Nat) {line : List Char}
    (hnodup : (fields.map Field.name).Nodup)
    (hfield : ∀ f ∈ fields, d.layout.field? f.name = some f)
    (hdenotes : ∀ f ∈ fields, f.IsRead → ∃ v, f.type.Denotes (contentIn fields line f) v) :
    ∃ record, d.readFields offset line fields = .ok { d with record } ∧
      ∀ name v, record.get? name = some v ↔ DenotesIn fields line name v ∨
        (∀ f ∈ fields, f.IsRead → f.name ≠ name) ∧ d.record.get? name = some v := by
  induction fields generalizing d offset line with
  | nil => exact ⟨d.record, rfl, fun name v => by simp [DenotesIn]⟩
  | cons f rest ih =>
    have hrest : ∀ g ∈ rest, g.IsRead →
        ∃ v, g.type.Denotes (contentIn rest (line.drop f.lineWidth) g) v := by
      intro g hg hread
      rw [← contentIn_cons hnodup hg]
      exact hdenotes g (List.mem_cons_of_mem f hg) hread
    have hnodup' := (List.nodup_cons.1 hnodup).2
    have hnew : ∀ g ∈ rest, g.name ≠ f.name := fun g hg heq =>
      (List.nodup_cons.1 hnodup).1 (heq ▸ List.mem_map_of_mem hg)
    by_cases hread : f.IsRead
    · obtain ⟨v, hv⟩ := hdenotes f (List.mem_cons_self ..) hread
      rw [contentIn, sliceIn_self] at hv
      rw [readFields_read _ _ _ hread (hfield f (List.mem_cons_self ..)) hv]
      obtain ⟨record, hrun, hget⟩ := ih { d with record := d.record.insert f.name v }
        (offset + f.lineWidth) hnodup' (fun g hg => hfield g (List.mem_cons_of_mem f hg)) hrest
      refine ⟨record, hrun, fun name value => ?_⟩
      rw [hget, denotesIn_cons hnodup, SortedMap.get?_insert]
      by_cases hname : f.name = name
      · have hvalue : v = value ↔ f.type.Denotes (trim (line.take f.width)) value := by
          rw [← FieldType.read_eq_ok_iff, hv.read_eq, Except.ok.injEq]
        have hlater : ¬ DenotesIn rest (line.drop f.lineWidth) name value := by
          rintro ⟨g, hg, -, hsame, -⟩
          exact hnew g hg (hsame.trans hname.symm)
        have hnone : ∀ g ∈ rest, g.IsRead → g.name ≠ name := fun g hg _ hsame =>
          hnew g hg (hsame.trans hname.symm)
        simpa [hname, hread, hlater, hvalue] using fun _ => hnone
      · simp [hname]
    · rw [readFields_skip d _ _ _ hread]
      obtain ⟨record, hrun, hget⟩ := ih d (offset + f.lineWidth) hnodup'
        (fun g hg => hfield g (List.mem_cons_of_mem f hg)) hrest
      refine ⟨record, hrun, fun name value => ?_⟩
      rw [hget, denotesIn_cons hnodup]
      simp [hread]

/-- The first field whose slice holds no text of its type is at fault. -/
theorem Draft.readFields_of_refuses {earlier later : List Field} {f : Field} (d : Draft) (offset : Nat)
    (line : List Char) {reason : FieldReading}
    (hnodup : ((earlier ++ f :: later).map Field.name).Nodup)
    (hfield : ∀ g ∈ earlier, d.layout.field? g.name = some g)
    (hdenotes : ∀ g ∈ earlier, g.IsRead →
      ∃ v, g.type.Denotes (contentIn (earlier ++ f :: later) line g) v)
    (hread : f.IsRead) (hrefuses : f.type.Refuses (contentIn (earlier ++ f :: later) line f) reason) :
    d.readFields offset line (earlier ++ f :: later) =
      .error (.fieldReading f.name (offset + offsetIn (earlier ++ f :: later) f)
        (String.ofList (sliceIn (earlier ++ f :: later) line f)) reason) := by
  induction earlier generalizing d offset line with
  | nil =>
    rw [List.nil_append] at *
    rw [contentIn, sliceIn_self] at hrefuses
    rw [d.readFields_refuse _ _ _ hread hrefuses, sliceIn_self, offsetIn_self, Nat.add_zero]
  | cons g earlier ih =>
    rw [List.cons_append] at *
    have hmem : f ∈ earlier ++ f :: later := List.mem_append_right _ (List.mem_cons_self ..)
    rw [contentIn_cons hnodup hmem] at hrefuses
    rw [offsetIn_cons hnodup hmem, sliceIn_cons hnodup hmem, ← Nat.add_assoc]
    have hrest : ∀ g' ∈ earlier, g'.IsRead →
        ∃ v, g'.type.Denotes (contentIn (earlier ++ f :: later) (line.drop g.lineWidth) g') v := by
      intro g' hg' hread'
      rw [← contentIn_cons hnodup (List.mem_append_left _ hg')]
      exact hdenotes g' (List.mem_cons_of_mem g hg') hread'
    have hnodup' := (List.nodup_cons.1 hnodup).2
    have hfield' : ∀ g' ∈ earlier, d.layout.field? g'.name = some g' := fun g' hg' =>
      hfield g' (List.mem_cons_of_mem g hg')
    by_cases hreadg : g.IsRead
    · obtain ⟨v, hv⟩ := hdenotes g (List.mem_cons_self ..) hreadg
      rw [contentIn, sliceIn_self] at hv
      rw [readFields_read _ _ _ hreadg (hfield g (List.mem_cons_self ..)) hv]
      exact ih _ _ _ hnodup' hfield' hrest hrefuses
    · rw [d.readFields_skip _ _ _ hreadg]
      exact ih _ _ _ hnodup' hfield' hrest hrefuses

/-! ## Accepted lines -/

namespace Layout

variable (l : Layout) (line : List Char)

/-- Every slice that is read holds a text of the type of its field. -/
def IsReadable : Prop :=
  ∀ f ∈ l.fields, f.IsRead → ∃ v, f.type.Denotes (contentIn l.fields line f) v

/-- The field is the first one whose slice holds no text of its type, for the reason. -/
def IsFirstRefused (f : Field) (reason : FieldReading) : Prop :=
  ∃ earlier later, l.fields = earlier ++ f :: later ∧ f.IsRead ∧
    (∀ g ∈ earlier, g.IsRead → ∃ v, g.type.Denotes (contentIn l.fields line g) v) ∧
    f.type.Refuses (contentIn l.fields line f) reason

theorem isReadable_or_refused :
    l.IsReadable line ∨ ∃ f reason, l.IsFirstRefused line f reason := by
  classical
  let fails : Field → Bool := fun f =>
    decide (f.IsRead ∧ ¬ ∃ v, f.type.Denotes (contentIn l.fields line f) v)
  cases hfind : l.fields.find? fails with
  | none =>
    refine .inl fun f hf hread => ?_
    by_contra hnot
    have hfails := List.find?_eq_none.1 hfind f hf
    exact hfails (decide_eq_true ⟨hread, hnot⟩)
  | some f =>
    obtain ⟨hfails, earlier, later, hfields, hearlier⟩ := List.find?_eq_some_iff_append.1 hfind
    obtain ⟨hread, hnot⟩ := of_decide_eq_true hfails
    obtain ⟨reason, hrefuses⟩ := (f.type.denotes_or_refuses _).resolve_left hnot
    refine .inr ⟨f, reason, earlier, later, hfields, hread, fun g hg hreadg => ?_, hrefuses⟩
    by_contra hnotg
    have hpasses := hearlier g hg
    rw [Bool.not_eq_true'] at hpasses
    exact of_decide_eq_false hpasses ⟨hreadg, hnotg⟩

variable {l line}

theorem IsFirstRefused.not_isReadable {f : Field} {reason : FieldReading}
    (h : l.IsFirstRefused line f reason) : ¬ l.IsReadable line := by
  obtain ⟨earlier, later, hfields, hread, -, hrefuses⟩ := h
  intro hreadable
  have hf : f ∈ l.fields := hfields ▸ List.mem_append_right _ (List.mem_cons_self ..)
  exact hrefuses.not_denotes (hreadable f hf hread)

-- What was read from every field that is read conforms: no value is refused, and no required one
-- is missing.
theorem conforms_of_denotesIn {r : Record} (hreadable : l.IsReadable line)
    (hget : ∀ name v, r.get? name = some v ↔ DenotesIn l.fields line name v) : l.conforms r = true := by
  rw [conforms_iff]
  constructor
  · rintro ⟨name, v⟩ hentry
    obtain ⟨f, hf, hread, rfl, hdenotes⟩ := (hget name v).1 (SortedMap.mem_entries_iff.1 hentry)
    rw [entryFault?, field?_eq_some_iff.2 ⟨hf, rfl⟩]
    exact Field.fault?_of_denotes hread (List.length_take_le ..) hdenotes
  · intro f hf
    obtain ⟨hf, -⟩ := List.mem_filter.1 hf
    rw [missing?]
    by_cases hoptional : f.optional = true
    · rw [if_neg (by simp [hoptional])]
    · have hread : f.IsRead :=
        ⟨Bool.eq_false_iff.2 fun h => hoptional (f.optional_of_computed h),
          Bool.eq_false_iff.2 fun h => hoptional (f.optional_of_ignored h)⟩
      obtain ⟨v, hv⟩ := hreadable f hf hread
      have hvalue : r.valueOrNull f.name = v := by
        rw [Record.valueOrNull, (hget f.name v).2 ⟨f, hf, hread, rfl, hv⟩, Option.getD_some]
      rw [hvalue, hv.isNull_eq, Bool.and_false, if_neg Bool.false_ne_true]

theorem decodeChars_of_isReadable (hlength : line.length = l.width) (h : l.IsReadable line) :
    ∃ r, l.decodeChars line = .ok r ∧ l.conforms r = true ∧
      ∀ name v, r.get? name = some v ↔ DenotesIn l.fields line name v := by
  obtain ⟨r, hrun, hget⟩ := Draft.readFields_of_denotes (.start l) 0 l.names_nodup
    (fun f hf => field?_eq_some_iff.2 ⟨hf, rfl⟩) h
  have hvalues : ∀ name v, r.get? name = some v ↔ DenotesIn l.fields line name v := by
    intro name v
    rw [hget]
    simp [Draft.start, SortedMap.get?_empty]
  have hconforms := conforms_of_denotesIn h hvalues
  refine ⟨r, ?_, hconforms, hvalues⟩
  rw [decodeChars, if_neg (not_not.2 hlength), hrun]
  exact Draft.finish_eq_ok_iff.2 ⟨hconforms, rfl⟩

theorem decodeChars_of_isFirstRefused (hlength : line.length = l.width) {f : Field}
    {reason : FieldReading} (h : l.IsFirstRefused line f reason) :
    l.decodeChars line = .error
      (.fieldReading f.name (offsetIn l.fields f) (String.ofList (sliceIn l.fields line f)) reason) := by
  obtain ⟨earlier, later, hfields, hread, hdenotes, hrefuses⟩ := h
  have hrun := Draft.readFields_of_refuses (.start l) 0 line (hfields ▸ l.names_nodup)
    (fun g hg => field?_eq_some_iff.2 ⟨hfields ▸ List.mem_append_left _ hg, rfl⟩)
    (hfields ▸ hdenotes) hread (hfields ▸ hrefuses)
  rw [← hfields, Nat.zero_add] at hrun
  rw [decodeChars, if_neg (not_not.2 hlength), hrun]

/-- The reader of lines accepts the lines that have the length of the layout and whose slices hold texts
of their fields; what it gives has just the values of these texts, and conforms.  It refuses a line of
another length for its length, and any other one for the first field whose slice holds no text of its
type, with its offset, its slice and the reason.  There are no other outcomes. -/
theorem decode_outcome_iff (l : Layout) (line : String) :
    (∀ r, l.decode line = .ok r ↔
      line.toList.length = l.width ∧ l.IsReadable line.toList ∧
        ∀ name v, r.get? name = some v ↔ DenotesIn l.fields line.toList name v) ∧
    (∀ r, l.decode line = .ok r → l.conforms r = true) ∧
    ∀ fault, l.decode line = .error fault ↔
      (line.toList.length ≠ l.width ∧ fault = .lineLength l.width line.toList.length) ∨
      (line.toList.length = l.width ∧ ∃ f reason, l.IsFirstRefused line.toList f reason ∧
        fault = .fieldReading f.name (offsetIn l.fields f)
          (String.ofList (sliceIn l.fields line.toList f)) reason) := by
  unfold decode
  generalize line.toList = line
  by_cases hlength : line.length = l.width
  · rcases l.isReadable_or_refused line with hreadable | ⟨f, reason, hrefused⟩
    · obtain ⟨r, hrun, hconforms, hvalues⟩ := decodeChars_of_isReadable hlength hreadable
      have hnone : ∀ f reason, ¬ l.IsFirstRefused line f reason :=
        fun f reason h => h.not_isReadable hreadable
      rw [hrun]
      refine ⟨fun r' => ?_, fun r' h => ?_, fun fault => ?_⟩
      · constructor
        · intro h
          cases h
          exact ⟨hlength, hreadable, hvalues⟩
        · rintro ⟨-, -, hvalues'⟩
          have hsame : r = r' := SortedMap.ext_get? fun name => Option.ext fun v =>
            (hvalues name v).trans (hvalues' name v).symm
          rw [hsame]
      · cases h
        exact hconforms
      · simp [hlength, hnone]
    · have hnot := hrefused.not_isReadable
      rw [decodeChars_of_isFirstRefused hlength hrefused]
      refine ⟨fun r' => ?_, fun r' h => ?_, fun fault => ?_⟩
      · simp [hnot]
      · cases h
      · constructor
        · intro h
          cases h
          exact .inr ⟨hlength, f, reason, hrefused, rfl⟩
        · rintro (⟨hother, -⟩ | ⟨-, f', reason', hrefused', rfl⟩)
          · exact absurd hlength hother
          · exact (decodeChars_of_isFirstRefused hlength hrefused).symm.trans
              (decodeChars_of_isFirstRefused hlength hrefused')
  · have hrun : l.decodeChars line = .error (.lineLength l.width line.length) := by
      rw [decodeChars, if_pos hlength]
    rw [hrun]
    refine ⟨fun r' => ?_, fun r' h => ?_, fun fault => ?_⟩
    · simp [hlength]
    · cases h
    · simp [hlength, eq_comm]

end Layout

end Registry
