/-! # SortedMap — values under keys, in the order of the keys

A finite map is kept as the list of its entries, strictly ascending by key, so that every map is
listed in one way only. Records, directory trees and the samples of an inbox are such maps. The main
facts: what `get?` answers after each operation, and that `get?` alone determines a map. -/

namespace Registry

/-! ## The orders of keys -/

instance (priority := 20000) trans_string : Trans (· < · : String → String → Prop) (· < ·) (· < ·) :=
  ⟨String.lt_trans⟩

instance (priority := 20000) trichotomous_string : Std.Trichotomous (· < · : String → String → Prop) :=
  inferInstance

instance (priority := 20000) trans_strings :
    Trans (· < · : List String → List String → Prop) (· < ·) (· < ·) :=
  ⟨List.lt_trans⟩

instance (priority := 20000) trichotomous_strings :
    Std.Trichotomous (· < · : List String → List String → Prop) := inferInstance

instance (priority := 20000) trans_int : Trans (· < · : Int → Int → Prop) (· < ·) (· < ·) :=
  ⟨Int.lt_trans⟩

instance (priority := 20000) trichotomous_int : Std.Trichotomous (· < · : Int → Int → Prop) :=
  inferInstance

/-! ## Maps as lists -/

structure SortedMap (κ α : Type) [LT κ] where
  entries : List (κ × α)
  ascending : entries.Pairwise (fun a b => a.1 < b.1)

namespace SortedMap

variable {κ α : Type}

/-! ## Lists of entries -/

-- The value of the first entry with a key.
def lookup [DecidableEq κ] (key : κ) : List (κ × α) → Option α
  | [] => none
  | (k, v) :: rest => if k = key then some v else lookup key rest

theorem lookup_eq_none_iff [DecidableEq κ] {key : κ} {list : List (κ × α)} :
    lookup key list = none ↔ ∀ e ∈ list, e.1 ≠ key := by
  induction list with
  | nil => simp [lookup]
  | cons head rest ih =>
    unfold lookup
    split <;> simp_all

theorem mem_of_lookup [DecidableEq κ] {key : κ} {value : α} {list : List (κ × α)}
    (h : lookup key list = some value) : (key, value) ∈ list := by
  induction list with
  | nil => simp [lookup] at h
  | cons head rest ih =>
    obtain ⟨k, v⟩ := head
    unfold lookup at h
    split at h
    · simp_all
    · exact List.mem_cons_of_mem _ (ih h)

variable [LT κ]

/-! ## Maps -/

instance [DecidableEq κ] [DecidableEq α] : DecidableEq (SortedMap κ α) := fun a b =>
  if h : a.entries = b.entries then isTrue (by cases a; cases b; simp_all)
  else isFalse fun he => h (congrArg entries he)

def empty : SortedMap κ α := ⟨[], List.Pairwise.nil⟩

instance : Inhabited (SortedMap κ α) := ⟨empty⟩

def size (m : SortedMap κ α) : Nat := m.entries.length

def isEmpty (m : SortedMap κ α) : Bool := m.entries.isEmpty

def keys (m : SortedMap κ α) : List κ := m.entries.map (·.1)

/-! ## Reading -/

def lastKey? (m : SortedMap κ α) : Option κ := m.entries.getLast?.map (·.1)

def get? [DecidableEq κ] (m : SortedMap κ α) (key : κ) : Option α := lookup key m.entries

def contains [DecidableEq κ] (m : SortedMap κ α) (key : κ) : Bool := (m.get? key).isSome

/-! ## Changing -/

def insertEntry [DecidableLT κ] (key : κ) (value : α) : List (κ × α) → List (κ × α)
  | [] => [(key, value)]
  | (k, v) :: rest =>
    if key < k then (key, value) :: (k, v) :: rest
    else if k < key then (k, v) :: insertEntry key value rest
    else (key, value) :: rest

theorem mem_insertEntry [DecidableLT κ] {key : κ} {value : α} {list : List (κ × α)} {e : κ × α}
    (h : e ∈ insertEntry key value list) : e = (key, value) ∨ e ∈ list := by
  induction list with
  | nil => simp_all [insertEntry]
  | cons head rest ih =>
    unfold insertEntry at h
    grind

section Ordered

variable [DecidableLT κ] [Trans (· < · : κ → κ → Prop) (· < ·) (· < ·)]
  [Std.Trichotomous (· < · : κ → κ → Prop)]

theorem ascending_insertEntry {key : κ} {value : α} {list : List (κ × α)}
    (h : list.Pairwise fun a b => a.1 < b.1) :
    (insertEntry key value list).Pairwise fun a b => a.1 < b.1 := by
  induction list with
  | nil => simp [insertEntry]
  | cons head rest ih =>
    obtain ⟨k, v⟩ := head
    have hk : ∀ e ∈ rest, k < e.1 := fun e he => List.rel_of_pairwise_cons h he
    have hrest := List.Pairwise.of_cons h
    unfold insertEntry
    split
    · rename_i hlt
      refine List.Pairwise.cons ?_ h
      intro e he
      rcases List.mem_cons.1 he with rfl | he
      · exact hlt
      · exact Trans.trans hlt (hk e he)
    · rename_i hnot
      split
      · rename_i hlt
        refine List.Pairwise.cons ?_ (ih hrest)
        intro e he
        rcases mem_insertEntry he with rfl | he
        · exact hlt
        · exact hk e he
      · rename_i hnot'
        have heq : key = k := Std.Trichotomous.trichotomous key k hnot hnot'
        refine List.Pairwise.cons ?_ hrest
        intro e he
        exact heq ▸ hk e he

def insert (m : SortedMap κ α) (key : κ) (value : α) : SortedMap κ α :=
  ⟨insertEntry key value m.entries, ascending_insertEntry m.ascending⟩

/-- The map of a list of entries; of several with one key the last counts. -/
def ofList (list : List (κ × α)) : SortedMap κ α :=
  list.foldl (fun m e => m.insert e.1 e.2) empty

end Ordered

def filter (m : SortedMap κ α) (keep : κ → α → Bool) : SortedMap κ α :=
  ⟨m.entries.filter fun e => keep e.1 e.2, m.ascending.filter _⟩

def erase [DecidableEq κ] (m : SortedMap κ α) (key : κ) : SortedMap κ α :=
  m.filter fun k _ => k ≠ key

def map {β : Type} (m : SortedMap κ α) (f : κ → α → β) : SortedMap κ β :=
  ⟨m.entries.map fun e => (e.1, f e.1 e.2), List.Pairwise.map _ (fun _ _ h => h) m.ascending⟩

/-! ## What reading answers -/

section Laws

variable [DecidableEq κ]

theorem get?_empty (key : κ) : (empty : SortedMap κ α).get? key = none := rfl

theorem lookup_of_mem [Std.Irrefl (· < · : κ → κ → Prop)] {key : κ} {value : α}
    {list : List (κ × α)} (hs : list.Pairwise fun a b => a.1 < b.1) (h : (key, value) ∈ list) :
    lookup key list = some value := by
  induction list with
  | nil => simp at h
  | cons head rest ih =>
    rcases List.mem_cons.1 h with rfl | h
    · simp [lookup]
    · have hlt := List.rel_of_pairwise_cons hs h
      have hne : head.1 ≠ key := fun he => Std.Irrefl.irrefl key (he ▸ hlt)
      simp [lookup, hne, ih (List.Pairwise.of_cons hs) h]

theorem lookup_insertEntry [DecidableLT κ] [Std.Irrefl (· < · : κ → κ → Prop)]
    [Std.Trichotomous (· < · : κ → κ → Prop)] (key : κ) (value : α) (k : κ)
    (list : List (κ × α)) :
    lookup k (insertEntry key value list) = if key = k then some value else lookup k list := by
  induction list with
  | nil => simp [insertEntry, lookup]
  | cons head rest ih =>
    obtain ⟨k', v'⟩ := head
    unfold insertEntry
    split
    · simp [lookup]
    · rename_i hnot
      split
      · rename_i hlt
        have hne : key ≠ k' := fun he => Std.Irrefl.irrefl key (by rw [← he] at hlt; exact hlt)
        simp only [lookup, ih]
        grind
      · rename_i hnot'
        have heq : key = k' := Std.Trichotomous.trichotomous key k' hnot hnot'
        subst heq
        simp only [lookup]
        split <;> rfl

theorem get?_insert [DecidableLT κ] [Trans (· < · : κ → κ → Prop) (· < ·) (· < ·)]
    [Std.Irrefl (· < · : κ → κ → Prop)] [Std.Trichotomous (· < · : κ → κ → Prop)]
    (m : SortedMap κ α) (key : κ) (value : α) (k : κ) :
    (m.insert key value).get? k = if key = k then some value else m.get? k :=
  lookup_insertEntry key value k m.entries

theorem mem_entries_iff [Std.Irrefl (· < · : κ → κ → Prop)] {m : SortedMap κ α} {key : κ}
    {value : α} : (key, value) ∈ m.entries ↔ m.get? key = some value :=
  ⟨lookup_of_mem m.ascending, mem_of_lookup⟩

theorem get?_filter [Std.Irrefl (· < · : κ → κ → Prop)] (m : SortedMap κ α) (keep : κ → α → Bool)
    (key : κ) : (m.filter keep).get? key = (m.get? key).filter (keep key) := by
  cases h : m.get? key with
  | none =>
    rw [Option.filter_none]
    refine lookup_eq_none_iff.2 fun e he => ?_
    exact lookup_eq_none_iff.1 h e (List.mem_filter.1 he).1
  | some value =>
    have hmem := mem_entries_iff.2 h
    cases hk : keep key value with
    | true =>
      rw [Option.filter_some_pos hk]
      exact mem_entries_iff.1 (List.mem_filter.2 ⟨hmem, hk⟩)
    | false =>
      rw [Option.filter_some_neg (by simp [hk])]
      refine lookup_eq_none_iff.2 fun e he hke => ?_
      obtain ⟨he, hkeep⟩ := List.mem_filter.1 he
      obtain ⟨k, v⟩ := e
      cases hke
      have hv := mem_entries_iff.1 he
      rw [h] at hv
      cases hv
      simp [hk] at hkeep

omit [LT κ] in
theorem lookup_map {β : Type} (f : κ → α → β) (key : κ) (list : List (κ × α)) :
    lookup key (list.map fun e => (e.1, f e.1 e.2)) = (lookup key list).map (f key) := by
  induction list with
  | nil => rfl
  | cons head rest ih =>
    simp only [List.map_cons, lookup, ih]
    split
    · rename_i h
      simp [h]
    · rfl

theorem get?_map {β : Type} (m : SortedMap κ α) (f : κ → α → β) (key : κ) :
    (m.map f).get? key = (m.get? key).map (f key) :=
  lookup_map f key m.entries

theorem get?_erase [Std.Irrefl (· < · : κ → κ → Prop)] (m : SortedMap κ α) (key k : κ) :
    (m.erase key).get? k = if k = key then none else m.get? k := by
  rw [erase, get?_filter]
  split <;> cases m.get? k <;> simp_all

end Laws

/-! ## Extensionality -/

theorem ext_entries {a b : SortedMap κ α} (h : a.entries = b.entries) : a = b := by
  cases a; cases b; simp_all

-- Two maps that answer alike are one map.
theorem ext_get? [DecidableEq κ] [Trans (· < · : κ → κ → Prop) (· < ·) (· < ·)]
    [Std.Irrefl (· < · : κ → κ → Prop)] {a b : SortedMap κ α}
    (h : ∀ key, a.get? key = b.get? key) : a = b := by
  apply ext_entries
  have hmem : ∀ e, e ∈ a.entries ↔ e ∈ b.entries := fun e => by
    obtain ⟨k, v⟩ := e
    rw [mem_entries_iff, mem_entries_iff, h]
  have hnodup : ∀ m : SortedMap κ α, m.entries.Nodup := fun m =>
    m.ascending.imp fun {x y} (hlt : x.1 < y.1) (he : x = y) =>
      Std.Irrefl.irrefl x.1 (by rw [← he] at hlt; exact hlt)
  have hperm : a.entries.Perm b.entries :=
    (List.perm_ext_iff_of_nodup (hnodup a) (hnodup b)).2 hmem
  refine List.Perm.eq_of_pairwise ?_ a.ascending b.ascending hperm
  intro x y hx hy hxy hyx
  exact absurd (Trans.trans hxy hyx : x.1 < x.1) (Std.Irrefl.irrefl x.1)

-- A new entry comes to those that are there.
theorem perm_insertEntry [DecidableEq κ] [DecidableLT κ] [Std.Trichotomous (· < · : κ → κ → Prop)]
    {key : κ} {value : α} {list : List (κ × α)} (h : lookup key list = none) :
    (insertEntry key value list).Perm ((key, value) :: list) := by
  induction list with
  | nil => exact List.Perm.refl _
  | cons head rest ih =>
    obtain ⟨k, v⟩ := head
    obtain ⟨hne, hrest⟩ := List.forall_mem_cons.1 (lookup_eq_none_iff.1 h)
    unfold insertEntry
    split
    · exact List.Perm.refl _
    rename_i hnot
    split
    · exact ((ih (lookup_eq_none_iff.2 hrest)).cons _).trans (List.Perm.swap ..)
    · rename_i hnot'
      exact absurd (Std.Trichotomous.trichotomous key k hnot hnot').symm hne

-- Entries under different keys may be made in either order.
theorem insert_comm [DecidableEq κ] [DecidableLT κ] [Trans (· < · : κ → κ → Prop) (· < ·) (· < ·)]
    [Std.Irrefl (· < · : κ → κ → Prop)] [Std.Trichotomous (· < · : κ → κ → Prop)]
    (m : SortedMap κ α) {a b : κ} (h : a ≠ b) (x y : α) :
    (m.insert a x).insert b y = (m.insert b y).insert a x := by
  apply ext_get?
  intro key
  simp only [get?_insert]
  by_cases hb : b = key
  · have ha : a ≠ key := fun ha => h (ha.trans hb.symm)
    rw [if_pos hb, if_neg ha, if_pos hb]
  · rw [if_neg hb, if_neg hb]

-- An entry that is there already may be made again.
theorem insert_eq_self [DecidableEq κ] [DecidableLT κ] [Trans (· < · : κ → κ → Prop) (· < ·) (· < ·)]
    [Std.Irrefl (· < · : κ → κ → Prop)] [Std.Trichotomous (· < · : κ → κ → Prop)]
    {m : SortedMap κ α} {key : κ} {value : α} (h : m.get? key = some value) :
    m.insert key value = m := by
  apply ext_get?
  intro other
  rw [get?_insert]
  by_cases hkey : key = other
  · rw [if_pos hkey, ← hkey, h]
  · rw [if_neg hkey]

end SortedMap

end Registry
