/-!
# ByteOrder — the order of texts is the order of their bytes

Names are kept in the order of their characters, and a file system orders them by the bytes of their
UTF-8 form.  The two orders agree: the first byte in which the forms of two characters differ is
smaller in the form of the smaller one, and there always is such a byte.
-/

namespace Registry.Text

/-- The bytes of a text in UTF-8. -/
def utf8Bytes (text : String) : List UInt8 := text.toByteArray.data.toList

theorem utf8Bytes_eq_flatMap (text : String) :
    utf8Bytes text = text.toList.flatMap String.utf8EncodeChar := by
  have hlist : text.toByteArray = text.toList.utf8Encode := by
    rw [← String.toByteArray_ofList, String.ofList_toList]
  rw [utf8Bytes, hlist, List.utf8Encode, List.data_toByteArray]

-- Two lists of bytes stand as their first bytes, or as the others where these are equal.
theorem cons_lt_cons_of {m n : Nat} (hm : m < 256) (hn : n < 256) {as bs : List UInt8}
    (h : m < n ∨ m = n ∧ as < bs) : UInt8.ofNat m :: as < UInt8.ofNat n :: bs := by
  rw [List.cons_lt_cons_iff]
  refine h.imp (fun hlt => ?_) fun heq => ⟨by rw [heq.1], heq.2⟩
  rw [UInt8.lt_iff_toNat_lt]
  simp only [UInt8.toNat_ofNat']
  omega

-- The form of a smaller character comes before that of a greater one, whatever follows them.
theorem utf8EncodeChar_append_lt {a b : Char} (h : a < b) (as bs : List UInt8) :
    String.utf8EncodeChar a ++ as < String.utf8EncodeChar b ++ bs := by
  have hval : a.val.toNat < b.val.toNat := h
  have hmax : b.val.toNat < 0x110000 := by
    rcases b.valid with hsmall | hlarge
    · exact Nat.lt_trans hsmall (by decide)
    · exact hlarge.2
  unfold String.utf8EncodeChar
  generalize a.val.toNat = m at *
  generalize b.val.toNat = n at *
  dsimp only
  -- forms of different lengths differ in their first bytes
  repeat' split
  all_goals simp only [List.cons_append, List.nil_append] <;>
    apply cons_lt_cons_of (by omega) (by omega) <;> first
      | exact .inl (by omega)
      | skip
  · by_cases hfirst : m / 64 < n / 64
    · exact .inl (by omega)
    · exact .inr ⟨by omega, cons_lt_cons_of (by omega) (by omega) (.inl (by omega))⟩
  · by_cases hfirst : m / 4096 < n / 4096
    · exact .inl (by omega)
    refine .inr ⟨by omega, cons_lt_cons_of (by omega) (by omega) ?_⟩
    by_cases hsecond : m / 64 < n / 64
    · exact .inl (by omega)
    · exact .inr ⟨by omega, cons_lt_cons_of (by omega) (by omega) (.inl (by omega))⟩
  · by_cases hfirst : m / 262144 < n / 262144
    · exact .inl (by omega)
    refine .inr ⟨by omega, cons_lt_cons_of (by omega) (by omega) ?_⟩
    by_cases hsecond : m / 4096 < n / 4096
    · exact .inl (by omega)
    refine .inr ⟨by omega, cons_lt_cons_of (by omega) (by omega) ?_⟩
    by_cases hthird : m / 64 < n / 64
    · exact .inl (by omega)
    · exact .inr ⟨by omega, cons_lt_cons_of (by omega) (by omega) (.inl (by omega))⟩

theorem append_lt_append_left {as bs : List UInt8} (front : List UInt8) (h : as < bs) :
    front ++ as < front ++ bs := by
  induction front with
  | nil => exact h
  | cons x rest ih =>
    rw [List.cons_append, List.cons_append, List.cons_lt_cons_iff]
    exact .inr ⟨rfl, ih⟩

-- A text that comes before another one does so in bytes too.
theorem utf8Bytes_lt {a b : String} (h : a < b) : utf8Bytes a < utf8Bytes b := by
  rw [utf8Bytes_eq_flatMap, utf8Bytes_eq_flatMap]
  have hlist : a.toList < b.toList := h
  generalize a.toList = as at hlist
  generalize b.toList = bs at hlist
  induction as generalizing bs with
  | nil =>
    cases bs with
    | nil => exact absurd hlist (List.not_lt_nil _)
    | cons b bs =>
      rw [List.flatMap_cons, List.flatMap_nil]
      cases hform : String.utf8EncodeChar b with
      | nil => exact absurd hform String.utf8EncodeChar_ne_nil
      | cons x rest => exact List.nil_lt_cons _ _
  | cons a as ih =>
    cases bs with
    | nil => exact absurd hlist (List.not_lt_nil _)
    | cons b bs =>
      rw [List.flatMap_cons, List.flatMap_cons]
      rcases List.cons_lt_cons_iff.1 hlist with hlt | ⟨rfl, hlt⟩
      · exact utf8EncodeChar_append_lt hlt _ _
      · exact append_lt_append_left _ (ih bs hlt)

end Registry.Text
