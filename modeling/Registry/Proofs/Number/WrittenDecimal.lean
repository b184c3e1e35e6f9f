import Registry.Proofs.Number.DecimalText

/-!
# WrittenDecimal — amounts that are written and read again

An amount is written with its sign, its whole part and three digits behind the point.  This text
denotes the amount, so the reader gives it back: also below one, where the whole part is a zero that
cannot carry the sign, and up to the last amount that there is.  So a text and the text of its amount
denote the same, and two amounts have one text only if they are one.
-/

namespace Registry.Decimal

open Registry.Text

-- Three places are all that thousandths need, so nothing is rounded.
theorem roundedThousandths_three (n : Nat) : roundedThousandths n 3 = n := by
  unfold roundedThousandths
  omega

/-- What is written of an amount is a text of the amount. -/
theorem isText_digits (d : Decimal) : IsText d.digits d := by
  have hlength : (paddedDigits 3 (d.thousandths.natAbs % 1000)).length = 3 :=
    length_paddedDigits (by decide) (Nat.mod_lt _ (by decide))
  have hvalue : natOfDigits (digitsOf (d.thousandths.natAbs / 1000) ++
      paddedDigits 3 (d.thousandths.natAbs % 1000)) = d.thousandths.natAbs := by
    rw [natOfDigits_append, hlength, natOfDigits_digitsOf, natOfDigits_paddedDigits]
    exact Nat.div_add_mod _ 1000
  have hsign : IsSign (if d.thousandths < 0 then ['-'] else []) (decide (d.thousandths < 0)) := by
    by_cases hnegative : d.thousandths < 0
    · rw [if_pos hnegative, decide_eq_true hnegative]
      exact .minus
    · rw [if_neg hnegative, decide_eq_false hnegative]
      exact .none
  refine ⟨_, _, _, _, _, List.append_assoc _ _ _, hsign, .point _ _, allDigits_digitsOf _,
    allDigits_paddedDigits _ _, ?_, ?_⟩
  · exact List.append_ne_nil_of_right_ne_nil _ (List.ne_nil_of_length_pos (by omega))
  · dsimp only
    rw [hvalue, hlength, roundedThousandths_three]
    simp only [decide_eq_true_eq]
    split <;> omega

theorem ofText?_text_eq (d : Decimal) : ofText? d.text = some d := by
  rw [ofText?, text, String.toList_ofList]
  exact ofDigits?_eq_some_iff.2 d.isText_digits

theorem text_inj {d d' : Decimal} : d.text = d'.text ↔ d = d' := by
  constructor
  · intro h
    have hread := ofText?_text_eq d
    rw [h, ofText?_text_eq d'] at hread
    exact (Option.some.inj hread).symm
  · intro h
    rw [h]

/-- The text of the amount that a text denotes. -/
def normalText? (written : String) : Option String := (ofText? written).map text

/-- Every amount is read back from its text.  So texts denote the same amount, or none, just when the
texts of their amounts are the same, and the text of an amount is its own normal text. -/
theorem ofText?_text :
    (∀ d : Decimal, ofText? d.text = some d) ∧
    (∀ a b : String, normalText? a = normalText? b ↔ ofText? a = ofText? b) ∧
    (∀ written : String, (normalText? written).bind normalText? = normalText? written) := by
  refine ⟨ofText?_text_eq, fun a b => ?_, fun written => ?_⟩
  · exact (Option.map_injective fun _ _ => text_inj.1).eq_iff
  · rw [normalText?]
    cases ofText? written with
    | none => rfl
    | some d =>
      show normalText? d.text = some d.text
      rw [normalText?, ofText?_text_eq, Option.map_some]

end Registry.Decimal
