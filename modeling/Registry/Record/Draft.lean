import Registry.Record.Layout

/-! # Draft — a record while it is filled in

A draft belongs to a layout. Each value is checked as it is put in, and the whole record once more
when the draft is finished, since a draft may start from a record of another layout. -/

namespace Registry

structure Draft where
  layout : Layout
  record : Record

namespace Draft

def start (layout : Layout) : Draft := ⟨layout, SortedMap.empty⟩

/-- The draft with a value put into a field, unless the layout refuses it. -/
def put (d : Draft) (name : String) (v : Value) : Except RecordFault Draft :=
  match d.layout.entryFault? name v with
  | some fault => .error fault
  | none => .ok { d with record := d.record.insert name v }

/-- The draft after a list of values, up to the first that is refused. -/
def putAll (d : Draft) : List (String × Value) → Except RecordFault Draft
  | [] => .ok d
  | (name, v) :: rest =>
    match d.put name v with
    | .error fault => .error fault
    | .ok d => d.putAll rest

def finish (d : Draft) : Except RecordFault Record :=
  match d.layout.fault? d.record with
  | some fault => .error fault
  | none => .ok d.record

theorem put_eq_ok_iff {d d' : Draft} {name : String} {v : Value} :
    d.put name v = .ok d' ↔
      d.layout.entryFault? name v = none ∧ d' = { d with record := d.record.insert name v } := by
  unfold put
  cases h : d.layout.entryFault? name v <;> simp [eq_comm]

theorem finish_eq_ok_iff {d : Draft} {r : Record} :
    d.finish = .ok r ↔ d.layout.conforms d.record = true ∧ r = d.record := by
  unfold finish Layout.conforms
  cases d.layout.fault? d.record with
  | some fault => simp
  | none => exact ⟨fun h => ⟨rfl, by injection h with h; exact h.symm⟩, fun h => by rw [h.2]⟩

end Draft

def Layout.record? (l : Layout) (values : List (String × Value)) : Except RecordFault Record := do
  (← (Draft.start l).putAll values).finish

end Registry
