import Registry.Proofs.Number.WrittenDecimal
import Registry.Proofs.Record.Grammar
import Registry.Proofs.Time.WrittenCompact

/-!
# Rendering — lines that are written from a record

A value is written in digits or as its text, and padded with white space on either side to the width of
its field.  A line is what is written for the fields one after another, with anything at all in the
fields that nobody reads.  The reader of lines undoes this: padding is blank and what is written starts
and ends with no blank, so each slice without its padding is what was written, and that denotes the
value.
-/

namespace Registry

open Registry.Text

/-! ## Padding -/

namespace Text

/-- The text neither starts nor ends with a blank. -/
def IsTrimmed (text : List Char) : Prop :=
  text.head?.any isBlank = false ∧ text.getLast?.any isBlank = false

instance (text : List Char) : Decidable (IsTrimmed text) := inferInstanceAs (Decidable (_ ∧ _))

/-- The slice is the content with blanks on either side. -/
def IsPadded (content slice : List Char) : Prop :=
  ∃ before after, slice = before ++ (content ++ after) ∧ before.all isBlank = true ∧
    after.all isBlank = true

theorem isTrimmed_of_forall {text : List Char} (h : ∀ c ∈ text, isBlank c = false) : IsTrimmed text := by
  constructor
  · rw [Option.any_eq_false]
    exact fun c hc => h c (List.mem_of_head? hc)
  · rw [Option.any_eq_false]
    exact fun c hc => h c (List.mem_of_getLast? hc)

-- Nothing is taken from a text that starts with no blank.
theorem trimLeft_of_head? {text : List Char} (h : text.head?.any isBlank = false) :
    trimLeft text = text := by
  cases text with
  | nil => rfl
  | cons c rest => exact trimLeft_cons_of_not_blank h

theorem trimLeft_append {pad : List Char} (h : pad.all isBlank = true) (rest : List Char) :
    trimLeft (pad ++ rest) = trimLeft rest :=
  trimLeft_append_of_blank (List.all_eq_true.1 h)

/-- What is left of a slice without its padding is its content. -/
theorem IsPadded.trim_eq {content slice : List Char} (h : IsPadded content slice)
    (htrimmed : IsTrimmed content) : trim slice = content := by
  obtain ⟨before, after, rfl, hbefore, hafter⟩ := h
  rw [trim, trimLeft_append hbefore]
  cases content with
  | nil =>
    -- where nothing was written, all of the slice is padding
    have hnothing := trimLeft_append hafter []
    rw [List.append_nil] at hnothing
    rw [List.nil_append, hnothing]
    rfl
  | cons c rest =>
    have hlast : (c :: rest).reverse.head?.any isBlank = false := by
      rw [List.head?_reverse]
      exact htrimmed.2
    have hbehind : after.reverse.all isBlank = true := by rwa [List.all_reverse]
    rw [List.cons_append, trimLeft_cons_of_not_blank htrimmed.1, ← List.cons_append,
      List.reverse_append, trimLeft_append hbehind, trimLeft_of_head? hlast, List.reverse_reverse]

theorem isBlank_of_isDigit {c : Char} (h : c.isDigit = true) : isBlank c = false := by
  have hrange := isDigit_iff.1 h
  simp only [isBlank, Bool.or_eq_false_iff, Bool.and_eq_false_iff, decide_eq_false_iff_not,
    beq_eq_false_iff_ne]
  omega

theorem isBlank_of_allDigits {text : List Char} (h : allDigits text = true) :
    ∀ c ∈ text, isBlank c = false := by
  simp only [allDigits, List.all_eq_true] at h
  exact fun c hc => isBlank_of_isDigit (h c hc)

theorem isTrimmed_of_allDigits {text : List Char} (h : allDigits text = true) : IsTrimmed text :=
  isTrimmed_of_forall (isBlank_of_allDigits h)

theorem allDigits_zeros_digitsOf (zeros n : Nat) :
    allDigits (List.replicate zeros '0' ++ digitsOf n) = true := by
  have hzeros : allDigits (List.replicate zeros '0') = true := by simp [allDigits]
  rw [allDigits_append, hzeros, allDigits_digitsOf, Bool.and_self]

end Text

theorem Decimal.isTrimmed_digits (d : Decimal) : Text.IsTrimmed d.digits := by
  apply Text.isTrimmed_of_forall
  intro c hc
  rw [digits, List.append_assoc, List.mem_append, List.mem_append, List.mem_cons] at hc
  rcases hc with hsign | hwhole | rfl | hfraction
  · split at hsign
    · rw [List.mem_singleton.1 hsign]
      decide
    · cases hsign
  · exact Text.isBlank_of_allDigits (allDigits_digitsOf _) c hwhole
  · decide
  · exact Text.isBlank_of_allDigits (allDigits_paddedDigits _ _) c hfraction

theorem Instant.IsText.isTrimmed {text : List Char} {t : Instant} (h : IsText text t) :
    Text.IsTrimmed text := by
  obtain ⟨_, _, _, _, _, _, hcompact, hcalendar, -⟩ := h
  exact Text.isTrimmed_of_allDigits (hcompact.spec hcalendar).1

/-! ## Values -/

namespace FieldType

/-- The value is written so in a field of the type: a text as it is, a number with any zeros in front,
an amount with three digits behind the point, and a point of time up to what is zero in its end. -/
inductive Renders : FieldType → Value → List Char → Prop
  | text {s : String} (h : IsTrimmed s.toList) : Renders .text (.text s) s.toList
  | integer (zeros : Nat) {n : Nat} (h : n ≤ largestInteger) :
      Renders .integer (.integer n) (List.replicate zeros '0' ++ digitsOf n)
  | decimal (d : Decimal) : Renders .decimal (.decimal d) d.text.toList
  | datetime {t : Instant} (h : t.IsWholeSecond) {content : List Char}
      (hwritten : t.IsWrittenAs content) : Renders .datetime (.datetime t) content

namespace Renders

variable {type : FieldType} {v : Value} {content : List Char} (h : type.Renders v content)
include h

theorem denotes : type.Denotes content v := by
  cases h with
  | text =>
    rename_i s h
    have hdenotes := Denotes.text s.toList
    rwa [String.ofList_toList] at hdenotes
  | integer zeros hle =>
    rename_i n
    have hvalue : natOfDigits (List.replicate zeros '0' ++ digitsOf n) = n := by
      rw [natOfDigits_replicate_zero, natOfDigits_digitsOf]
    have hne : List.replicate zeros '0' ++ digitsOf n ≠ [] :=
      List.append_ne_nil_of_right_ne_nil _ (List.ne_nil_of_length_pos Nat.length_toDigits_pos)
    have hdenotes := Denotes.integer hne (allDigits_zeros_digitsOf zeros n) (hvalue.symm ▸ hle)
    rwa [hvalue] at hdenotes
  | decimal d =>
    rw [Decimal.text, String.toList_ofList]
    exact .decimal d.isText_digits
  | datetime h hwritten => exact .datetime (hwritten.isText h)

theorem isTrimmed : IsTrimmed content := by
  cases h with
  | text h => exact h
  | integer zeros => exact isTrimmed_of_allDigits (allDigits_zeros_digitsOf zeros _)
  | decimal d =>
    rw [Decimal.text, String.toList_ofList]
    exact d.isTrimmed_digits
  | datetime h hwritten => exact (hwritten.isText h).isTrimmed

end Renders

end FieldType

/-! ## Lines -/

theorem Field.IsRead.lineWidth_eq {f : Field} (h : f.IsRead) : f.lineWidth = f.width := by
  rw [lineWidth, h.1, if_neg Bool.false_ne_true]

/-- The line is written for the fields: each one that is read has its value in the record, padded to the
width of the field, and the others have any characters for which the line has room. -/
inductive RendersFields (r : Record) : List Field → List Char → Prop
  | nil : RendersFields r [] []
  | skipped {f : Field} {rest : List Field} {filler line : List Char} (h : ¬ f.IsRead)
      (hwidth : filler.length = f.lineWidth) (hrest : RendersFields r rest line) :
      RendersFields r (f :: rest) (filler ++ line)
  | read {f : Field} {rest : List Field} {content slice line : List Char} {v : Value} (h : f.IsRead)
      (hvalue : r.get? f.name = some v) (hcontent : f.type.Renders v content)
      (hpadded : IsPadded content slice) (hwidth : slice.length = f.width)
      (hrest : RendersFields r rest line) : RendersFields r (f :: rest) (slice ++ line)

namespace RendersFields

variable {r : Record} {fields : List Field} {line : List Char} (h : RendersFields r fields line)
include h

theorem length_eq : line.length = (fields.map Field.lineWidth).sum := by
  induction h with
  | nil => rfl
  | skipped _ hwidth _ ih => rw [List.length_append, List.map_cons, List.sum_cons, hwidth, ih]
  | read hread _ _ _ hwidth _ ih =>
    rw [List.length_append, List.map_cons, List.sum_cons, hread.lineWidth_eq, hwidth, ih]

/-- Each slice that is read, without its padding, denotes the value of its field. -/
theorem denotes (hnodup : (fields.map Field.name).Nodup) {f : Field} (hf : f ∈ fields)
    (hread : f.IsRead) : ∃ v, r.get? f.name = some v ∧ f.type.Denotes (contentIn fields line f) v := by
  induction h with
  | nil => cases hf
  | skipped hskipped hwidth _ ih =>
    rcases List.mem_cons.1 hf with rfl | hf
    · exact absurd hread hskipped
    · rw [contentIn_cons hnodup hf, List.drop_left' hwidth]
      exact ih (List.nodup_cons.1 hnodup).2 hf
  | read hg hvalue hcontent hpadded hwidth _ ih =>
    rcases List.mem_cons.1 hf with rfl | hf
    · rw [contentIn, sliceIn_self, List.take_left' hwidth, hpadded.trim_eq hcontent.isTrimmed]
      exact ⟨_, hvalue, hcontent.denotes⟩
    · rw [contentIn_cons hnodup hf, List.drop_left' (hwidth.trans hg.lineWidth_eq.symm)]
      exact ih (List.nodup_cons.1 hnodup).2 hf

end RendersFields

namespace Layout

/-- The line is written from the record, which has values for the fields that are read and no
others. -/
structure Renders (l : Layout) (r : Record) (line : List Char) : Prop where
  fields : RendersFields r l.fields line
  only : ∀ name v, r.get? name = some v → ∃ f ∈ l.fields, f.IsRead ∧ f.name = name

/-- The slices of a line denote the values of the record that it is written from, and nothing else. -/
theorem Renders.get?_iff {l : Layout} {r : Record} {line : List Char} (h : l.Renders r line)
    (name : String) (v : Value) : DenotesIn l.fields line name v ↔ r.get? name = some v := by
  constructor
  · rintro ⟨f, hf, hread, rfl, hdenotes⟩
    obtain ⟨v', hvalue, hdenotes'⟩ := h.fields.denotes l.names_nodup hf hread
    have hsame := hdenotes.read_eq
    rw [hdenotes'.read_eq] at hsame
    cases hsame
    exact hvalue
  · intro hvalue
    obtain ⟨f, hf, hread, rfl⟩ := h.only name v hvalue
    obtain ⟨v', hvalue', hdenotes⟩ := h.fields.denotes l.names_nodup hf hread
    rw [hvalue] at hvalue'
    cases hvalue'
    exact ⟨f, hf, hread, rfl, hdenotes⟩

/-- The reader of lines gives back the record that a line is written from, whatever the padding and the
fields that nobody reads. -/
theorem decode_of_renders {l : Layout} {r : Record} {line : String} (h : l.Renders r line.toList) :
    l.decode line = .ok r := by
  have hreadable : l.IsReadable line.toList := by
    intro f hf hread
    obtain ⟨v, -, hdenotes⟩ := h.fields.denotes l.names_nodup hf hread
    exact ⟨v, hdenotes⟩
  obtain ⟨r', hrun, -, hget⟩ := decodeChars_of_isReadable h.fields.length_eq hreadable
  have hsame : r' = r := SortedMap.ext_get? fun name => Option.ext fun v =>
    (hget name v).trans (h.get?_iff name v)
  rw [decode, hrun, hsame]

end Layout

/-! ### A small line -/

/-- A member with a value of each type, two characters that nobody reads, a time that is set later
and a mark that has no room. -/
def memberLayout : Layout where
  table := "member"
  key := "name"
  fields := [Field.required "name" 7, Field.filler "gap" 2, (Field.required "count" 4).withType .integer,
    ((Field.required "seen" 14).withType .datetime).asComputed,
    (Field.required "since" 10).withType .datetime, (Field.required "rate" 8).withType .decimal,
    Field.required "mark" 0]
  table_identifier := by decide
  names_identifier := by decide
  names_nodup := by decide
  key_persisted := ⟨_, List.mem_cons_self .., rfl, rfl⟩

/-- A member since 29 February 2024. -/
def member : Record :=
  .ofList [("name", .text "Bjørg"), ("count", .integer 42), ("since", .datetime (.ofMillis 1709164800000)),
    ("rate", .decimal ⟨-50, by decide⟩), ("mark", .text "")]

def memberLine : String := "\u3000Bjørg ?!0042\t20240229   -0.050"

theorem renders_member : memberLayout.Renders member memberLine.toList := by
  constructor
  · have hname : IsPadded "Bjørg".toList "\u3000Bjørg ".toList :=
      ⟨['\u3000'], [' '], rfl, rfl, rfl⟩
    have hcount : IsPadded (List.replicate 2 '0' ++ digitsOf 42) "0042".toList :=
      ⟨[], [], by decide +kernel, rfl, rfl⟩
    have hsince : IsPadded "20240229".toList "\t20240229 ".toList :=
      ⟨['\t'], [' '], rfl, rfl, rfl⟩
    have hrate : IsPadded (Decimal.text ⟨-50, by decide +kernel⟩).toList "  -0.050".toList :=
      ⟨[' ', ' '], [], by decide +kernel, rfl, rfl⟩
    have hmark : IsPadded "".toList [] := ⟨[], [], rfl, rfl, rfl⟩
    have hday : (Instant.ofMillis 1709164800000).dated [] = "20240229".toList := by decide +kernel
    have hwritten : (Instant.ofMillis 1709164800000).IsWrittenAs "20240229".toList :=
      hday ▸ .upToDay (by decide +kernel)
    have hline : memberLine.toList =
        "\u3000Bjørg ".toList ++ ("?!".toList ++ ("0042".toList ++ ([] ++ ("\t20240229 ".toList ++
          ("  -0.050".toList ++ ([] ++ [])))))) := by decide +kernel
    rw [hline]
    refine .read (by decide +kernel) (by decide +kernel) (.text (by decide +kernel)) hname rfl ?_
    refine .skipped (by decide +kernel) rfl ?_
    refine .read (by decide +kernel) (by decide +kernel) (.integer 2 (by decide +kernel)) hcount rfl ?_
    refine .skipped (by decide +kernel) rfl ?_
    refine .read (by decide +kernel) (by decide +kernel) (.datetime (by decide +kernel) hwritten) hsince rfl ?_
    refine .read (by decide +kernel) (by decide +kernel) (.decimal _) hrate rfl ?_
    exact .read (by decide +kernel) (by decide +kernel) (.text (by decide +kernel)) hmark rfl .nil
  · intro name v hvalue
    have hentries : ∀ e ∈ member.entries, ∃ f ∈ memberLayout.fields, f.IsRead ∧ f.name = e.1 := by
      decide +kernel
    exact hentries _ (SortedMap.mem_entries_iff.2 hvalue)

theorem decode_of_renders_member : memberLayout.decode memberLine = .ok member :=
  Layout.decode_of_renders renders_member

end Registry
