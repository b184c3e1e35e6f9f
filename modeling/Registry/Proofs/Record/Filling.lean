import Registry.Record.Draft

/-!
# Filling — a draft holds the values that were accepted

A value is accepted for a name when the layout has such a field and the field can hold the value, whatever
is in the draft already.  So a draft holds under each name the last value that was accepted for it, or
what it held at the start, and it is finished as a record just when these values conform to the layout.
-/

namespace Registry

/-! ## Conformity -/

/-- The field is not ignored, the value has its type, and a text is not too wide for it. -/
def Field.CanHold (f : Field) (v : Value) : Prop :=
  f.ignored = false ∧ v.fits f.type = true ∧ ∀ s ∈ v.text?, s.length ≤ f.width

instance (f : Field) (v : Value) : Decidable (f.CanHold v) := inferInstanceAs (Decidable (_ ∧ _))

theorem Field.fault?_eq_none_iff {f : Field} {v : Value} : f.fault? v = none ↔ f.CanHold v := by
  unfold fault? CanHold
  cases hignored : f.ignored with
  | true => simp
  | false =>
    cases hfits : v.fits f.type with
    | false => simp
    | true => cases v <;> simp [Value.text?]

namespace Layout

variable {l : Layout} {name : String} {v : Value}

/-- The value may be given for the name: some field of the layout has the name and can hold it. -/
def Accepts (l : Layout) (name : String) (v : Value) : Prop := ∃ f ∈ l.fields, f.name = name ∧ f.CanHold v

instance : Decidable (l.Accepts name v) := inferInstanceAs (Decidable (∃ f ∈ l.fields, _))

theorem entryFault?_eq_none_iff : l.entryFault? name v = none ↔ l.Accepts name v := by
  rw [entryFault?]
  cases hfield : l.field? name with
  | none =>
    refine iff_of_false nofun ?_
    rintro ⟨f, hf, hname, -⟩
    rw [field?_eq_some_iff.2 ⟨hf, hname⟩] at hfield
    cases hfield
  | some f =>
    show f.fault? v = none ↔ _
    rw [Field.fault?_eq_none_iff]
    obtain ⟨hf, hname⟩ := field?_eq_some_iff.1 hfield
    constructor
    · exact fun hholds => ⟨f, hf, hname, hholds⟩
    · rintro ⟨g, hg, hsame, hholds⟩
      rw [field?_eq_some_iff.2 ⟨hg, hsame⟩] at hfield
      cases hfield
      exact hholds

/-- Values under names make up a record of the layout: each of them may be given for its name, and every
stored field that is not optional has one that is not null. -/
structure Admits (l : Layout) (values : String → Option Value) : Prop where
  accepted : ∀ name v, values name = some v → l.Accepts name v
  complete : ∀ f ∈ l.fields, f.persisted = true → f.optional = false →
    ∃ v, values f.name = some v ∧ v ≠ .null

theorem missing?_eq_none_iff {r : Record} {f : Field} :
    missing? r f = none ↔ (f.optional = false → ∃ v, r.get? f.name = some v ∧ v ≠ .null) := by
  rw [missing?, Record.valueOrNull]
  cases hoptional : f.optional with
  | true => simp
  | false =>
    cases r.get? f.name with
    | none => simp [Value.isNull]
    | some v => simp [← Value.isNull_iff]

/-- The check of a record agrees with the layout's rules for its values. -/
theorem conforms_iff_admits {r : Record} : l.conforms r = true ↔ l.Admits r.get? := by
  rw [conforms_iff]
  constructor
  · rintro ⟨hentries, hmissing⟩
    constructor
    · intro name v hget
      exact entryFault?_eq_none_iff.1 (hentries (name, v) (SortedMap.mem_entries_iff.2 hget))
    · intro f hf hpersisted
      exact missing?_eq_none_iff.1 (hmissing f (List.mem_filter.2 ⟨hf, hpersisted⟩))
  · intro h
    constructor
    · intro e he
      exact entryFault?_eq_none_iff.2 (h.accepted e.1 e.2 (SortedMap.mem_entries_iff.1 he))
    · intro f hf
      obtain ⟨hf, hpersisted⟩ := List.mem_filter.1 hf
      exact missing?_eq_none_iff.2 (h.complete f hf hpersisted)

end Layout

/-! ## Giving values -/

/-- The last of some values that are given under a name. -/
def lastUnder (name : String) (steps : List (String × Value)) : Option Value :=
  (steps.filter fun e => e.1 = name).getLast?.map (·.2)

theorem lastUnder_cons (name : String) (e : String × Value) (rest : List (String × Value)) :
    lastUnder name (e :: rest) = (lastUnder name rest).or (if e.1 = name then some e.2 else none) := by
  unfold lastUnder
  by_cases hname : e.1 = name
  · rw [List.filter_cons_of_pos (by simpa using hname), List.getLast?_cons, if_pos hname]
    cases (rest.filter fun e => e.1 = name).getLast? <;> rfl
  · rw [List.filter_cons_of_neg (by simpa using hname), if_neg hname, Option.or_none]

-- Where no name is given twice, the last value under a name is the only one.
theorem lastUnder_eq_some_iff {steps : List (String × Value)} (h : (steps.map (·.1)).Nodup)
    (name : String) (v : Value) : lastUnder name steps = some v ↔ (name, v) ∈ steps := by
  induction steps generalizing v with
  | nil => simp [lastUnder]
  | cons e rest ih =>
    rw [List.map_cons, List.nodup_cons] at h
    rw [lastUnder_cons, List.mem_cons, ← ih h.2 v]
    by_cases hname : e.1 = name
    · have hnone : lastUnder name rest = none := by
        rw [Option.eq_none_iff_forall_ne_some]
        intro w hw
        exact h.1 (hname ▸ List.mem_map_of_mem ((ih h.2 w).1 hw))
      rw [hnone, if_pos hname, Option.none_or, Option.some.injEq]
      constructor
      · rintro rfl
        exact .inl (by rw [← hname])
      · rintro (heq | hlater)
        · rw [← heq]
        · cases hlater
    · have hne : (name, v) ≠ e := fun heq => hname (by rw [← heq])
      rw [if_neg hname, Option.or_none]
      simp [hne]

namespace Layout

/-- Of some steps those that the layout accepts. -/
def accepted (l : Layout) (steps : List (String × Value)) : List (String × Value) :=
  steps.filter fun e => l.Accepts e.1 e.2

/-- What a record has under a name once steps have been taken: the last value that was accepted for the
name, or else what it had. -/
def overridden (l : Layout) (start : Record) (steps : List (String × Value)) (name : String) :
    Option Value :=
  (lastUnder name (l.accepted steps)).or (start.get? name)

end Layout

namespace Draft

variable {d : Draft} {l : Layout}

/-- The draft after a step; one that is refused leaves it as it was. -/
def step (d : Draft) (e : String × Value) : Draft :=
  match d.put e.1 e.2 with
  | .error _ => d
  | .ok d => d

def steps (d : Draft) (list : List (String × Value)) : Draft := list.foldl step d

theorem step_eq (d : Draft) (e : String × Value) : d.step e =
    { d with record := if d.layout.Accepts e.1 e.2 then d.record.insert e.1 e.2 else d.record } := by
  unfold step put
  by_cases haccepts : d.layout.Accepts e.1 e.2
  · rw [if_pos haccepts, Layout.entryFault?_eq_none_iff.2 haccepts]
  · rw [if_neg haccepts]
    cases hfault : d.layout.entryFault? e.1 e.2 with
    | none => exact absurd (Layout.entryFault?_eq_none_iff.1 hfault) haccepts
    | some fault => rfl

/-- A step is accepted by the layout alone. -/
theorem put_isOk_iff {name : String} {v : Value} :
    (d.put name v).isOk = true ↔ d.layout.Accepts name v := by
  rw [← Layout.entryFault?_eq_none_iff, put]
  cases d.layout.entryFault? name v <;> simp [Except.isOk, Except.toBool]

theorem layout_steps (d : Draft) (list : List (String × Value)) : (d.steps list).layout = d.layout := by
  induction list generalizing d with
  | nil => rfl
  | cons e rest ih =>
    show ((d.step e).steps rest).layout = d.layout
    rw [ih, step_eq]

-- After some steps a draft holds what was accepted last.
theorem get?_steps (start : Record) (list : List (String × Value)) (name : String) :
    (steps ⟨l, start⟩ list).record.get? name = l.overridden start list name := by
  induction list generalizing start with
  | nil => rfl
  | cons e rest ih =>
    show (steps (step ⟨l, start⟩ e) rest).record.get? name = _
    rw [step_eq, ih]
    unfold Layout.overridden Layout.accepted
    by_cases haccepts : l.Accepts e.1 e.2
    · rw [if_pos haccepts, List.filter_cons_of_pos (by simpa using haccepts), lastUnder_cons,
        SortedMap.get?_insert, Option.or_assoc]
      split <;> rfl
    · rw [if_neg haccepts, List.filter_cons_of_neg (by simpa using haccepts)]

theorem step_comm (d : Draft) {a b : String × Value} (h : a.1 ≠ b.1) :
    (d.step a).step b = (d.step b).step a := by
  simp only [step_eq]
  congr 1
  by_cases ha : d.layout.Accepts a.1 a.2
  · by_cases hb : d.layout.Accepts b.1 b.2
    · rw [if_pos ha, if_pos hb, if_pos hb, if_pos ha, SortedMap.insert_comm _ h]
    · rw [if_neg hb, if_neg hb]
  · rw [if_neg ha, if_neg ha]

-- Steps that are all accepted are taken without a fault.
theorem putAll_eq_ok {list : List (String × Value)} (h : ∀ e ∈ list, d.layout.Accepts e.1 e.2) :
    d.putAll list = .ok (d.steps list) := by
  induction list generalizing d with
  | nil => rfl
  | cons e rest ih =>
    have hput : d.put e.1 e.2 = .ok (d.step e) := by
      rw [put_eq_ok_iff, step_eq, if_pos (h e (List.mem_cons_self ..))]
      exact ⟨Layout.entryFault?_eq_none_iff.2 (h e (List.mem_cons_self ..)), rfl⟩
    have hlayout : (d.step e).layout = d.layout := by rw [step_eq]
    rw [putAll, hput]
    exact ih fun other hother => hlayout ▸ h other (List.mem_cons_of_mem e hother)

/-- The entries of a record that conforms, in any order, make up the record. -/
theorem putAll_of_perm {r : Record} (hconforms : l.conforms r = true) {list : List (String × Value)}
    (hperm : list.Perm r.entries) : (start l).putAll list = .ok ⟨l, r⟩ := by
  have haccepts : ∀ e ∈ list, l.Accepts e.1 e.2 := fun e he =>
    (Layout.conforms_iff_admits.1 hconforms).accepted e.1 e.2
      (SortedMap.mem_entries_iff.1 (hperm.mem_iff.1 he))
  have hnames : (list.map (·.1)).Nodup := by
    rw [(hperm.map (·.1)).nodup_iff]
    refine List.pairwise_map.2 (r.ascending.imp fun {a b} hlt heq => ?_)
    rw [heq] at hlt
    exact String.lt_irrefl _ hlt
  rw [putAll_eq_ok haccepts, Except.ok.injEq]
  have hrecord : ((start l).steps list).record = r := by
    apply SortedMap.ext_get?
    intro name
    apply Option.ext
    intro v
    rw [start, get?_steps, Layout.overridden, Layout.accepted,
      List.filter_eq_self.2 fun e he => by simpa using haccepts e he, SortedMap.get?_empty, Option.or_none,
      lastUnder_eq_some_iff hnames, hperm.mem_iff, SortedMap.mem_entries_iff]
  rw [← hrecord]
  exact congrArg (fun layout => Draft.mk layout _) ((start l).layout_steps list)

end Draft

/-! ## Records that are filled in -/

/-- A draft makes exactly the records that conform.  From any record at the start and after any steps, it
is finished just when the values at the start, overridden under each name by the last value that was
accepted for it, conform to the layout, and the record then has these values and no others.  A step is
accepted just when a field of the layout has the name and can hold the value, whatever was done before.
A record that conforms is made from nothing by giving its entries in any order, and steps under
different names may change places. -/
theorem Draft.finish_steps (l : Layout) :
    (∀ r, l.conforms r = true ↔ l.Admits r.get?) ∧
    (∀ start list,
      ((∃ r, (steps ⟨l, start⟩ list).finish = .ok r) ↔ l.Admits (l.overridden start list)) ∧
      ∀ r, (steps ⟨l, start⟩ list).finish = .ok r → ∀ name, r.get? name = l.overridden start list name) ∧
    (∀ start list name v, ((steps ⟨l, start⟩ list).put name v).isOk = true ↔ l.Accepts name v) ∧
    (∀ r list, l.conforms r = true → list.Perm r.entries →
      (start l).putAll list = .ok ⟨l, r⟩ ∧ finish ⟨l, r⟩ = .ok r) ∧
    (∀ (d : Draft) a b, a.1 ≠ b.1 → (d.step a).step b = (d.step b).step a) := by
  refine ⟨fun r => Layout.conforms_iff_admits, fun start list => ⟨?_, ?_⟩, ?_, ?_, ?_⟩
  · have hget : (steps ⟨l, start⟩ list).record.get? = l.overridden start list :=
      funext fun name => get?_steps start list name
    simp only [finish_eq_ok_iff, exists_and_left, exists_eq, and_true, layout_steps,
      Layout.conforms_iff_admits, hget]
  · intro r hfinish name
    obtain ⟨-, rfl⟩ := finish_eq_ok_iff.1 hfinish
    exact get?_steps start list name
  · intro start list name v
    rw [put_isOk_iff, layout_steps]
  · intro r list hconforms hperm
    exact ⟨putAll_of_perm hconforms hperm, finish_eq_ok_iff.2 ⟨hconforms, rfl⟩⟩
  · exact fun d a b hne => step_comm d hne

/-- A layout of accounts with their owners. -/
def accountLayout : Layout where
  table := "Account"
  key := "Id"
  fields := [(Field.required "Id" 4).withType .integer, Field.required "Owner" 4, Field.filler "Pad" 1,
    Field.asComputed (Field.required "Note" 3)]
  table_identifier := by decide
  names_identifier := by decide
  names_nodup := by decide
  key_persisted := ⟨_, List.mem_cons_self .., rfl, rfl⟩

def account : Record := .ofList [("Id", .integer 7), ("Owner", .text "Bo"), ("Note", .null)]

/-- A record in which the owner is a number, and steps of which two are refused. -/
def accountStart : Record := .ofList [("Owner", .integer 3), ("Note", .text "new")]

def accountSteps : List (String × Value) :=
  [("Owner", .text "Bo"), ("Id", .integer 7), ("Pad", .text "x"), ("Note", .null), ("Owner", .text "Bobby")]

theorem Draft.finish_steps_account :
    (steps ⟨accountLayout, accountStart⟩ accountSteps).finish = .ok account ∧
      (∀ name, account.get? name = accountLayout.overridden accountStart accountSteps name) ∧
      (start accountLayout).putAll account.entries.reverse = .ok ⟨accountLayout, account⟩ := by
  obtain ⟨-, hfinish, -, hentries, -⟩ := finish_steps accountLayout
  have hfinished : (steps ⟨accountLayout, accountStart⟩ accountSteps).finish = .ok account :=
    finish_eq_ok_iff.2 ⟨by decide +kernel, by decide +kernel⟩
  refine ⟨hfinished, (hfinish accountStart accountSteps).2 account hfinished, ?_⟩
  exact (hentries account _ (by decide +kernel) (List.reverse_perm _)).1

end Registry
