import Registry.Record.Fault
import Registry.Record.Field
import Registry.SortedMap

/-! # Layout — the fields of a register and its table

A layout names a table, its fields in the order of a line, and the field that is the key. Names are
plain identifiers, no two fields share one, and the key has a column; `Layout.declare?` refuses
anything else. A record conforms to a layout when each of its values fits its field and no required
field is missing. -/

namespace Registry

/-! ## Records -/

/-- A record: values under field names. An absent field and a null are told apart. -/
abbrev Record := SortedMap String Value

namespace Record

def valueOrNull (r : Record) (name : String) : Value := (r.get? name).getD .null

end Record

/-! ## Identifiers -/

def startsIdentifier (c : Char) : Bool := c.isAlpha || c == '_'

/-- A letter or an underscore, then letters, digits and underscores, all ASCII. -/
def isIdentifier (name : String) : Bool :=
  match name.toList with
  | [] => false
  | first :: rest => startsIdentifier first && rest.all fun c => c.isAlphanum || c == '_'

/-! ## Layouts -/

structure Layout where
  table : String
  key : String
  fields : List Field
  table_identifier : isIdentifier table = true
  names_identifier : ∀ f ∈ fields, isIdentifier f.name = true
  names_nodup : (fields.map Field.name).Nodup
  key_persisted : ∃ f ∈ fields, f.name = key ∧ f.persisted = true

namespace Layout

/-- The first fault of a list of fields that follow other fields. -/
def fieldsFault? (earlier : List String) : List Field → Option LayoutFault
  | [] => none
  | f :: rest =>
    if !isIdentifier f.name then some (.invalidField f.name)
    else if earlier.contains f.name then some (.repeatedField f.name)
    else fieldsFault? (earlier ++ [f.name]) rest

theorem names_of_fieldsFault?_eq_none {fields : List Field} {earlier : List String}
    (h : fieldsFault? earlier fields = none) :
    (∀ f ∈ fields, isIdentifier f.name = true) ∧ (fields.map Field.name).Nodup ∧
      ∀ f ∈ fields, f.name ∉ earlier := by
  induction fields generalizing earlier with
  | nil => simp
  | cons f rest ih =>
    unfold fieldsFault? at h
    split at h
    · cases h
    · rename_i hid
      split at h
      · cases h
      · rename_i hnew
        obtain ⟨hids, hnodup, hdisjoint⟩ := ih h
        simp only [List.mem_append, List.mem_singleton, not_or] at hdisjoint
        refine ⟨?_, ?_, ?_⟩
        · simp only [List.mem_cons, forall_eq_or_imp]
          exact ⟨by simpa using hid, hids⟩
        · simp only [List.map_cons, List.nodup_cons, List.mem_map, not_exists, not_and]
          exact ⟨fun g hg he => (hdisjoint g hg).2 he, hnodup⟩
        · simp only [List.mem_cons, forall_eq_or_imp]
          exact ⟨by simpa using hnew, fun g hg => (hdisjoint g hg).1⟩

-- The key is the name of a stored field.
def hasKey (key : String) (fields : List Field) : Bool :=
  fields.any fun f => f.name == key && f.persisted

/-- The layout of a table, its key and its fields, or the first fault: of the table's name, of a
field's name, then of the key. -/
def declare? (table key : String) (fields : List Field) : Except LayoutFault Layout :=
  if htable : isIdentifier table = true then
    match hnames : fieldsFault? [] fields with
    | some fault => .error fault
    | none =>
      if hkey : hasKey key fields = true then
        .ok
          { table, key, fields
            table_identifier := htable
            names_identifier := (names_of_fieldsFault?_eq_none hnames).1
            names_nodup := (names_of_fieldsFault?_eq_none hnames).2.1
            key_persisted := by simpa [hasKey] using hkey }
      else .error (.keyNotPersisted key table)
  else .error (.invalidTable table)

def field? (l : Layout) (name : String) : Option Field := l.fields.find? fun f => f.name == name

-- The fields with a column, in declared order.
def persisted (l : Layout) : List Field := l.fields.filter Field.persisted

attribute [local instance (2000)] Zero.ofOfNat0

def width (l : Layout) : Nat := (l.fields.map Field.lineWidth).sum

theorem find?_name {fields : List Field} (hn : (fields.map Field.name).Nodup) {f : Field}
    (hf : f ∈ fields) : fields.find? (fun g => g.name == f.name) = some f := by
  induction fields with
  | nil => cases hf
  | cons g rest ih =>
    simp only [List.map_cons, List.nodup_cons, List.mem_map, not_exists, not_and] at hn
    rcases List.mem_cons.1 hf with rfl | hf
    · simp
    · have hne : (g.name == f.name) = false := by
        simpa using fun he => hn.1 f hf he.symm
      rw [List.find?_cons, hne]
      exact ih hn.2 hf

-- A field is found under its name.
theorem field?_eq_some_iff {l : Layout} {name : String} {f : Field} :
    l.field? name = some f ↔ f ∈ l.fields ∧ f.name = name := by
  constructor
  · intro h
    exact ⟨List.mem_of_find?_eq_some h, by simpa using List.find?_some h⟩
  · rintro ⟨hf, rfl⟩
    exact find?_name l.names_nodup hf

theorem field?_key (l : Layout) :
    ∃ f, l.field? l.key = some f ∧ f ∈ l.fields ∧ f.name = l.key ∧ f.persisted = true := by
  obtain ⟨f, hf, hname, hp⟩ := l.key_persisted
  exact ⟨f, field?_eq_some_iff.2 ⟨hf, hname⟩, hf, hname, hp⟩

def keyField (l : Layout) : Field :=
  (l.field? l.key).get (by obtain ⟨f, h, _⟩ := l.field?_key; simp [h])

theorem field?_key_eq (l : Layout) : l.field? l.key = some l.keyField :=
  (Option.some_get _).symm

end Layout

/-! ## Conformity -/

/-- Why a field cannot hold a value: it is ignored, the type is another one, or the text is too
wide. -/
def Field.fault? (f : Field) (v : Value) : Option RecordFault :=
  if f.ignored then some (.ignoredField f.name)
  else if !v.fits f.type then some (.typeMismatch f.name f.type v.kind)
  else
    match v with
    | .text s => if f.width < s.length then some (.tooWide f.name f.width s.length) else none
    | _ => none

namespace Layout

-- Why an entry cannot stand in a record of the layout.
def entryFault? (l : Layout) (name : String) (v : Value) : Option RecordFault :=
  match l.field? name with
  | none => some (.unknownField name)
  | some f => f.fault? v

/-- The fault of a record without a value for the field, where the field needs one. -/
def missing? (r : Record) (f : Field) : Option RecordFault :=
  if !f.optional && (r.valueOrNull f.name).isNull then some (.missingField f.name) else none

/-- The first fault of a record: of its entries in the order of their names, then of the stored
fields in declared order. -/
def fault? (l : Layout) (r : Record) : Option RecordFault :=
  (r.entries.findSome? fun e => l.entryFault? e.1 e.2).or (l.persisted.findSome? (missing? r))

def conforms (l : Layout) (r : Record) : Bool := (l.fault? r).isNone

/-- The two records hold the same values in every stored field; an absent one counts as null. -/
def samePersisted (l : Layout) (a b : Record) : Bool :=
  l.persisted.all fun f => a.valueOrNull f.name == b.valueOrNull f.name

theorem conforms_iff {l : Layout} {r : Record} :
    l.conforms r = true ↔
      (∀ e ∈ r.entries, l.entryFault? e.1 e.2 = none) ∧ ∀ f ∈ l.persisted, missing? r f = none := by
  simp only [conforms, fault?, Option.isNone_iff_eq_none, Option.or_eq_none_iff,
    List.findSome?_eq_none_iff]

theorem samePersisted_iff {l : Layout} {a b : Record} :
    l.samePersisted a b = true ↔ ∀ f ∈ l.persisted, a.valueOrNull f.name = b.valueOrNull f.name := by
  simp [samePersisted]

end Layout

end Registry
