import Mathlib.Data.List.TakeWhile
import Mathlib.Tactic.Ring
import Registry.Number.Decimal
import Registry.Proofs.Text.DigitRuns

/-!
# DecimalText — the texts of amounts

A text of an amount is a sign or none, digits, and perhaps a point with digits behind it; one digit is
there at least.  It denotes the value of its digits in thousandths, halves rounded away from zero, where
seven digits before the point hold that.  The reader looks at four digits behind the point only, and it
counts the digits before the point: both agree with the value of the whole text.
-/

namespace Registry.Decimal

open Registry.Text

/-! ## The grammar -/

/-- A sign in front of a number, and whether it is a minus. -/
inductive IsSign : List Char → Bool → Prop
  | none : IsSign [] false
  | plus : IsSign ['+'] false
  | minus : IsSign ['-'] true

/-- A number without a sign, with what stands before and behind its point. -/
inductive IsNumeral : List Char → List Char → List Char → Prop
  | plain (whole : List Char) : IsNumeral whole whole []
  | point (whole fraction : List Char) : IsNumeral (whole ++ '.' :: fraction) whole fraction

/-- The thousandths in `number / 10 ^ places`, halves rounded up. -/
def roundedThousandths (number places : Nat) : Nat :=
  (2 * 1000 * number + 10 ^ places) / (2 * 10 ^ places)

/-- The text denotes the amount. -/
def IsText (text : List Char) (d : Decimal) : Prop :=
  ∃ sign negative unsigned whole fraction, text = sign ++ unsigned ∧ IsSign sign negative ∧
    IsNumeral unsigned whole fraction ∧ allDigits whole = true ∧ allDigits fraction = true ∧
    whole ++ fraction ≠ [] ∧
    let magnitude : Int := roundedThousandths (natOfDigits (whole ++ fraction)) fraction.length
    d.thousandths = if negative then -magnitude else magnitude

/-! ## The parts of a text -/

theorem exists_isSign (text : List Char) :
    ∃ sign, text = sign ++ (signThen text).2 ∧ IsSign sign (signThen text).1 := by
  unfold signThen
  split
  · exact ⟨['-'], rfl, .minus⟩
  · exact ⟨['+'], rfl, .plus⟩
  · exact ⟨[], rfl, .none⟩

theorem signThen_append {sign unsigned : List Char} {negative : Bool} (h : IsSign sign negative)
    (hminus : unsigned.head? ≠ some '-') (hplus : unsigned.head? ≠ some '+') :
    signThen (sign ++ unsigned) = (negative, unsigned) := by
  cases h with
  | plus => rfl
  | minus => rfl
  | none =>
    rw [List.nil_append]
    unfold signThen
    split
    · exact absurd rfl hminus
    · exact absurd rfl hplus
    · rfl

theorem bne_point {c : Char} (h : c.isDigit = true) : (c != '.') = true := by
  rw [bne_iff_ne]
  rintro rfl
  cases h

theorem isNumeral_split (unsigned : List Char) :
    IsNumeral unsigned (unsigned.takeWhile (· != '.')) ((unsigned.dropWhile (· != '.')).drop 1) := by
  have hsplit := List.takeWhile_append_dropWhile (p := (· != '.')) (l := unsigned)
  cases hrest : unsigned.dropWhile (· != '.') with
  | nil =>
    rw [hrest, List.append_nil] at hsplit
    rw [hsplit]
    exact .plain unsigned
  | cons c fraction =>
    have hpoint : c = '.' := by
      have hfirst := List.head_dropWhile_not (· != '.') (l := unsigned) (by simp [hrest])
      simpa [hrest] using hfirst
    rw [hrest, hpoint] at hsplit
    have hnumeral := IsNumeral.point (unsigned.takeWhile (· != '.')) fraction
    rwa [hsplit] at hnumeral

theorem IsNumeral.split_eq {unsigned whole fraction : List Char} (h : IsNumeral unsigned whole fraction)
    (hwhole : allDigits whole = true) :
    unsigned.takeWhile (· != '.') = whole ∧ (unsigned.dropWhile (· != '.')).drop 1 = fraction := by
  have hdigits : ∀ c ∈ whole, (c != '.') = true := fun c hc =>
    bne_point (List.all_eq_true.1 hwhole c hc)
  cases h with
  | plain =>
    refine ⟨List.takeWhile_eq_self_iff.2 hdigits, ?_⟩
    rw [List.dropWhile_eq_nil_iff.2 hdigits, List.drop_nil]
  | point =>
    rw [List.takeWhile_append_of_pos hdigits, List.dropWhile_append_of_pos hdigits]
    exact ⟨List.append_nil whole, rfl⟩

-- A number without a sign starts with a digit or with the point.
theorem IsNumeral.head_ne {unsigned whole fraction : List Char} (h : IsNumeral unsigned whole fraction)
    (hwhole : allDigits whole = true) {c : Char} (hdigit : c.isDigit = false) (hpoint : c ≠ '.') :
    unsigned.head? ≠ some c := by
  intro hhead
  cases whole with
  | nil =>
    cases h with
    | plain => cases hhead
    | point =>
      cases hhead
      exact hpoint rfl
  | cons first rest =>
    have hfirst : unsigned.head? = some first := by cases h <;> rfl
    rw [hfirst] at hhead
    cases hhead
    rw [(allDigits_cons.1 hwhole).1] at hdigit
    cases hdigit

/-! ## The value -/

theorem le_five_iff {c : Char} : '5' ≤ c ↔ 53 ≤ c.toNat :=
  UInt32.le_iff_toNat_le

-- Behind the fourth digit nothing can turn the rounding: what is left of the fraction is less than
-- one in the fourth place.
theorem rounded_fraction (kept fourth below power : Nat) (hfourth : fourth < 10) (hbelow : below < power) :
    (2 * 1000 * (10 * power * kept + (power * fourth + below)) + 1000 * (10 * power)) /
        (2 * (1000 * (10 * power))) =
      kept + if 5 ≤ fourth then 1 else 0 := by
  have hscaled : power * fourth ≤ power * 9 := Nat.mul_le_mul_left _ (Nat.le_of_lt_succ hfourth)
  have hsum : 2 * 1000 * (10 * power * kept + (power * fourth + below)) + 1000 * (10 * power) =
      2 * (1000 * (10 * power)) * kept +
        (2000 * (power * fourth) + 2000 * below + 10000 * power) := by
    ring
  rw [hsum, Nat.mul_add_div (by omega)]
  congr 1
  split
  · rename_i hfive
    have hlow : power * 5 ≤ power * fourth := Nat.mul_le_mul_left _ hfive
    rw [Nat.div_eq_iff (by omega)]
    omega
  · rename_i hfive
    have hhigh : power * fourth ≤ power * 4 := Nat.mul_le_mul_left _ (by omega)
    rw [Nat.div_eq_zero_iff]
    omega

theorem fractionThousandths_eq {fraction : List Char} (h : allDigits fraction = true) :
    fractionThousandths fraction = roundedThousandths (natOfDigits fraction) fraction.length := by
  match fraction with
  | [] => rfl
  | [a] =>
    simp only [fractionThousandths, roundedThousandths, List.take, List.length, List.getElem?_cons_succ,
      List.getElem?_nil]
    omega
  | [a, b] =>
    simp only [fractionThousandths, roundedThousandths, List.take, List.length, List.getElem?_cons_succ,
      List.getElem?_nil]
    omega
  | [a, b, c] =>
    simp only [fractionThousandths, roundedThousandths, List.take, List.length, List.getElem?_cons_succ,
      List.getElem?_nil]
    omega
  | a :: b :: c :: d :: rest =>
    obtain ⟨-, h⟩ := allDigits_cons.1 h
    obtain ⟨-, h⟩ := allDigits_cons.1 h
    obtain ⟨-, h⟩ := allDigits_cons.1 h
    obtain ⟨hd, hrest⟩ := allDigits_cons.1 h
    have hvalue : natOfDigits (a :: b :: c :: d :: rest) =
        10 * 10 ^ rest.length * natOfDigits [a, b, c] +
          (10 ^ rest.length * digitValue d + natOfDigits rest) := by
      rw [← natOfDigits_cons, Nat.mul_comm 10, ← Nat.pow_succ]
      exact natOfDigits_append [a, b, c] (d :: rest)
    have hplaces : 10 ^ (a :: b :: c :: d :: rest).length = 1000 * (10 * 10 ^ rest.length) := by
      simp only [List.length_cons, Nat.pow_succ]
      omega
    rw [roundedThousandths, hvalue, hplaces,
      rounded_fraction _ _ _ _ (digitValue_lt hd) (natOfDigits_lt hrest)]
    have hfive : '5' ≤ d ↔ 5 ≤ digitValue d := by
      have hrange := isDigit_iff.1 hd
      rw [le_five_iff]
      show 53 ≤ d.toNat ↔ 5 ≤ d.toNat - 48
      omega
    simp [fractionThousandths, hfive]

theorem rounded_append {whole fraction : List Char} (h : allDigits fraction = true) :
    roundedThousandths (natOfDigits (whole ++ fraction)) fraction.length =
      natOfDigits whole * 1000 + fractionThousandths fraction := by
  have hpos : 0 < 10 ^ fraction.length := Nat.pow_pos (by decide)
  have hsum : 2 * 1000 * (10 ^ fraction.length * natOfDigits whole + natOfDigits fraction) +
        10 ^ fraction.length =
      2 * 10 ^ fraction.length * (natOfDigits whole * 1000) +
        (2 * 1000 * natOfDigits fraction + 10 ^ fraction.length) := by
    ring
  rw [fractionThousandths_eq h, roundedThousandths, natOfDigits_append, hsum,
    Nat.mul_add_div (by omega)]
  rfl

theorem ofThousandths?_eq_some_iff {n : Int} {d : Decimal} :
    ofThousandths? n = some d ↔ d.thousandths = n := by
  constructor
  · intro h
    unfold ofThousandths? at h
    split at h
    · cases h
      rfl
    · cases h
  · rintro rfl
    exact ofThousandths?_thousandths d

/-- The reader of amounts accepts the texts of amounts, and each as the amount that it denotes. -/
theorem ofDigits?_eq_some_iff {text : List Char} {d : Decimal} :
    ofDigits? text = some d ↔ IsText text d := by
  constructor
  · intro h
    obtain ⟨sign, htext, hsign⟩ := exists_isSign text
    have hnumeral := isNumeral_split (signThen text).2
    unfold ofDigits? at h
    dsimp only at h
    generalize (signThen text).1 = negative at *
    generalize (signThen text).2 = unsigned at *
    generalize unsigned.takeWhile (· != '.') = whole at *
    generalize (unsigned.dropWhile (· != '.')).drop 1 = fraction at *
    split at h
    · cases h
    · rename_i haccepted
      split at h
      · cases h
      · simp only [Bool.or_eq_true, Bool.and_eq_true, List.isEmpty_iff, Bool.not_eq_true', not_or,
          Bool.not_eq_false] at haccepted
        obtain ⟨⟨hsome, hwhole⟩, hfraction⟩ := haccepted
        refine ⟨sign, negative, unsigned, whole, fraction, htext, hsign, hnumeral, hwhole, hfraction, ?_, ?_⟩
        · simpa using hsome
        · rw [ofThousandths?_eq_some_iff.1 h, rounded_append hfraction, natOfDigits_dropZeros]
          simp
  · rintro ⟨sign, negative, unsigned, whole, fraction, rfl, hsign, hnumeral, hwhole, hfraction, hsome,
      hvalue⟩
    obtain ⟨hbefore, hbehind⟩ := hnumeral.split_eq hwhole
    have hlimit : natOfDigits whole < 10 ^ 7 := by
      have hin := d.inLimit
      rw [rounded_append hfraction] at hvalue
      simp only [decimalLimit] at hin
      cases negative <;> simp at hvalue <;> omega
    have hlength := (length_dropZeros_le_iff hwhole 7).2 hlimit
    unfold ofDigits?
    rw [signThen_append hsign (hnumeral.head_ne hwhole rfl (by decide))
      (hnumeral.head_ne hwhole rfl (by decide))]
    dsimp only
    rw [hbefore, hbehind, if_neg (by simpa [hwhole, hfraction] using hsome), if_neg (by omega),
      natOfDigits_dropZeros, ofThousandths?_eq_some_iff, hvalue, rounded_append hfraction]
    simp

end Registry.Decimal
