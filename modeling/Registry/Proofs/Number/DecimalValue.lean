import Mathlib.Data.Rat.Floor
import Mathlib.Tactic.FieldSimp
import Mathlib.Tactic.Linarith
import Registry.Proofs.Number.DecimalText

/-!
# DecimalValue — the exact values of the texts of amounts

The digits of a text denote a fraction, and the amount of the text is the whole number of thousandths
that is nearest to it, halves away from zero.  A text whose amount has an eighth digit before the point
is refused, and no other text of this form.  The amount is computed in words of 64 bits: no step of it
leaves their range, however long the text is.
-/

namespace Registry.Decimal

open Registry.Text

/-! ## Exact values -/

/-- The text is a sign or none, digits, and perhaps a point with digits behind it; it has one digit at
least. -/
def Spells (text : List Char) (negative : Bool) (whole fraction : List Char) : Prop :=
  ∃ sign unsigned, text = sign ++ unsigned ∧ IsSign sign negative ∧ IsNumeral unsigned whole fraction ∧
    allDigits whole = true ∧ allDigits fraction = true ∧ whole ++ fraction ≠ []

/-- The number that digits before and behind a point denote. -/
def magnitude (whole fraction : List Char) : ℚ :=
  natOfDigits whole + natOfDigits fraction / 10 ^ fraction.length

def exactValue (negative : Bool) (whole fraction : List Char) : ℚ :=
  if negative then -magnitude whole fraction else magnitude whole fraction

/-- The whole number nearest to a number; of two, the one that lies farther from zero. -/
def nearestAway (q : ℚ) : ℤ := if q < 0 then -round (-q) else round q

theorem nearestAway_of_nonneg {q : ℚ} (h : 0 ≤ q) : nearestAway q = round q := by
  rw [nearestAway, if_neg (not_lt.2 h)]

theorem nearestAway_neg_of_nonneg {q : ℚ} (h : 0 ≤ q) : nearestAway (-q) = -round q := by
  rcases h.eq_or_lt with rfl | hpos
  · simp [nearestAway]
  · rw [nearestAway, if_pos (by linarith), neg_neg]

theorem magnitude_nonneg (whole fraction : List Char) : 0 ≤ magnitude whole fraction := by
  unfold magnitude
  positivity

-- The digits of a number read as one run are its value, moved by the places behind the point.
theorem magnitude_eq (whole fraction : List Char) :
    magnitude whole fraction = natOfDigits (whole ++ fraction) / 10 ^ fraction.length := by
  have hpos : (0 : ℚ) < 10 ^ fraction.length := by positivity
  rw [magnitude, natOfDigits_append]
  push_cast
  field_simp

theorem round_thousandths (number places : Nat) :
    round (1000 * (number / 10 ^ places) : ℚ) = roundedThousandths number places := by
  have hpos : (0 : ℚ) < 10 ^ places := by positivity
  have hratio : (1000 * (number / 10 ^ places) + 1 / 2 : ℚ) =
      ((2 * 1000 * number + 10 ^ places : ℕ) : ℚ) / ((2 * 10 ^ places : ℕ) : ℚ) := by
    push_cast
    field_simp
    ring
  rw [round_eq, hratio, Rat.floor_natCast_div_natCast, roundedThousandths, Int.natCast_div]

/-- The thousandths of a text are its value in thousandths, rounded once. -/
theorem nearestAway_exactValue (negative : Bool) (whole fraction : List Char) :
    nearestAway (1000 * exactValue negative whole fraction) =
      if negative then -(roundedThousandths (natOfDigits (whole ++ fraction)) fraction.length : Int)
      else roundedThousandths (natOfDigits (whole ++ fraction)) fraction.length := by
  have hnonneg : 0 ≤ 1000 * magnitude whole fraction :=
    mul_nonneg (by decide) (magnitude_nonneg whole fraction)
  have hround : round (1000 * magnitude whole fraction) =
      roundedThousandths (natOfDigits (whole ++ fraction)) fraction.length := by
    rw [magnitude_eq, round_thousandths]
  cases negative with
  | false => rw [exactValue, if_neg Bool.false_ne_true, nearestAway_of_nonneg hnonneg, hround]; rfl
  | true =>
    rw [exactValue, if_pos rfl, mul_neg, nearestAway_neg_of_nonneg hnonneg, hround]
    rfl

theorem isText_iff {text : List Char} {d : Decimal} :
    IsText text d ↔ ∃ negative whole fraction, Spells text negative whole fraction ∧
      d.thousandths = nearestAway (1000 * exactValue negative whole fraction) := by
  constructor
  · rintro ⟨sign, negative, unsigned, whole, fraction, htext, hsign, hnumeral, hwhole, hfraction, hsome,
      hvalue⟩
    refine ⟨negative, whole, fraction, ⟨sign, unsigned, htext, hsign, hnumeral, hwhole, hfraction, hsome⟩, ?_⟩
    rw [nearestAway_exactValue]
    exact hvalue
  · rintro ⟨negative, whole, fraction, ⟨sign, unsigned, htext, hsign, hnumeral, hwhole, hfraction, hsome⟩,
      hvalue⟩
    refine ⟨sign, negative, unsigned, whole, fraction, htext, hsign, hnumeral, hwhole, hfraction, hsome, ?_⟩
    rw [nearestAway_exactValue] at hvalue
    exact hvalue

/-! ## Words of 64 bits -/

/-- The number, if a word of 64 bits holds it with its sign. -/
def word? (n : Int) : Option Int := if -(2 ^ 63 : Int) ≤ n ∧ n < 2 ^ 63 then some n else none

theorem word?_of_lt {n : Int} (h : 0 ≤ n) (hlt : n < 2 ^ 63) : word? n = some n := by
  rw [word?, if_pos ⟨by omega, hlt⟩]

/-- A digit written behind a number. -/
def pushDigit? (n : Int) (c : Char) : Option Int := do
  let shifted ← word? (n * 10)
  word? (shifted + digitValue c)

def pushZeros? (n : Int) : Nat → Option Int
  | 0 => some n
  | count + 1 => do
    let shifted ← word? (n * 10)
    pushZeros? shifted count

/-- The thousandths of a fraction, computed in words. -/
def fractionInWords? (fraction : List Char) : Option Int := do
  let kept ← (fraction.take 3).foldlM pushDigit? 0
  let rounded ← match fraction[3]? with
    | some fourth => if '5' ≤ fourth then word? (kept + 1) else some kept
    | none => some kept
  pushZeros? rounded (3 - fraction.length)

/-- The amount with a sign and so many thousandths, computed in words. -/
def signedInWords? (negative : Bool) (thousandths : Int) : Option (Option Decimal) :=
  if decimalLimit ≤ thousandths then some none
  else if negative then (word? (-thousandths)).map ofThousandths?
  else some (ofThousandths? thousandths)

/-- The amount of some digits before the point and some behind it, computed in words. -/
def amountInWords? (negative : Bool) (whole fraction : List Char) : Option (Option Decimal) := do
  let number ← whole.foldlM pushDigit? 0
  let thousandths ← fractionInWords? fraction
  let scaled ← word? (number * 1000)
  let sum ← word? (scaled + thousandths)
  signedInWords? negative sum

/-- The reader of amounts, computed in words.  There is no answer at all where some step has no word for
its number. -/
def ofDigitsInWords? (text : List Char) : Option (Option Decimal) :=
  let (negative, unsigned) := signThen text
  let whole := unsigned.takeWhile (· != '.')
  let fraction := (unsigned.dropWhile (· != '.')).drop 1
  let significant := whole.dropWhile (· == '0')
  if (whole.isEmpty && fraction.isEmpty) || !allDigits whole || !allDigits fraction then some none
  else if 7 < significant.length then some none
  else amountInWords? negative significant fraction

theorem pushDigit?_eq {n : Nat} {c : Char} (hc : c.isDigit = true) (hfits : (n + 1) * 10 ≤ 2 ^ 63) :
    pushDigit? n c = some ((n * 10 + digitValue c : Nat) : Int) := by
  have hlt := digitValue_lt hc
  have hshifted : word? ((n : Int) * 10) = some ((n : Int) * 10) := word?_of_lt (by omega) (by omega)
  have hpushed : word? ((n : Int) * 10 + digitValue c) = some ((n : Int) * 10 + digitValue c) :=
    word?_of_lt (by omega) (by omega)
  rw [pushDigit?, hshifted, Option.bind_eq_bind, Option.bind_some, hpushed]
  rfl

-- A run of digits is read from the left, so what is read of it never passes its number.
theorem foldlM_pushDigit? {digits : List Char} (h : allDigits digits = true) (n : Nat)
    (hfits : (n + 1) * 10 ^ digits.length ≤ 2 ^ 63) :
    digits.foldlM pushDigit? (n : Int) =
      some ((n * 10 ^ digits.length + natOfDigits digits : Nat) : Int) := by
  induction digits generalizing n with
  | nil => simp [natOfDigits_nil]
  | cons c rest ih =>
    obtain ⟨hc, hrest⟩ := allDigits_cons.1 h
    have hlt := digitValue_lt hc
    have hpos : 0 < 10 ^ rest.length := Nat.pow_pos (by decide)
    have hfits' : (n + 1) * 10 * 10 ^ rest.length ≤ 2 ^ 63 := by
      rwa [Nat.mul_assoc, Nat.mul_comm 10, ← Nat.pow_succ]
    have hstep : (n + 1) * 10 ≤ 2 ^ 63 := Nat.le_trans (Nat.le_mul_of_pos_right _ hpos) hfits'
    have hlater : (n * 10 + digitValue c + 1) * 10 ^ rest.length ≤ 2 ^ 63 :=
      Nat.le_trans (Nat.mul_le_mul_right _ (by omega)) hfits'
    rw [List.foldlM_cons, pushDigit?_eq hc hstep, Option.bind_eq_bind, Option.bind_some,
      ih hrest _ hlater, natOfDigits_cons, List.length_cons, Nat.pow_succ]
    congr 2
    ring

theorem pushZeros?_eq (n count : Nat) (hfits : n * 10 ^ count < 2 ^ 63) :
    pushZeros? n count = some ((n * 10 ^ count : Nat) : Int) := by
  induction count generalizing n with
  | zero => simp [pushZeros?]
  | succ count ih =>
    have hfits' : n * 10 * 10 ^ count < 2 ^ 63 := by
      rwa [Nat.mul_assoc, Nat.mul_comm 10, ← Nat.pow_succ]
    have hpos : 0 < 10 ^ count := Nat.pow_pos (by decide)
    have hstep : n * 10 < 2 ^ 63 := Nat.lt_of_le_of_lt (Nat.le_mul_of_pos_right _ hpos) hfits'
    have hshifted : word? ((n : Int) * 10) = some ((n * 10 : Nat) : Int) :=
      word?_of_lt (by omega) (by omega)
    rw [pushZeros?, hshifted, Option.bind_eq_bind, Option.bind_some, ih _ hfits', Nat.mul_assoc,
      Nat.mul_comm 10, ← Nat.pow_succ]

theorem fractionInWords?_eq {fraction : List Char} (h : allDigits fraction = true) :
    fractionInWords? fraction = some (fractionThousandths fraction : Int) := by
  have hkept : allDigits (fraction.take 3) = true := allDigits_of_subset h (List.take_subset 3 fraction)
  have hlength : (fraction.take 3).length ≤ 3 := List.length_take_le ..
  have hlt := natOfDigits_lt hkept
  have hle : 10 ^ (fraction.take 3).length ≤ 10 ^ 3 := Nat.pow_le_pow_right (by decide) hlength
  have hread : (fraction.take 3).foldlM pushDigit? 0 = some (natOfDigits (fraction.take 3) : Int) := by
    have hfold := foldlM_pushDigit? hkept 0 (by omega)
    rwa [Nat.zero_mul, Nat.zero_add] at hfold
  rw [fractionInWords?, hread, Option.bind_eq_bind, Option.bind_some, fractionThousandths]
  cases hfourth : fraction[3]? with
  | none =>
    have hshort : fraction.length ≤ 3 := List.getElem?_eq_none_iff.1 hfourth
    have htake : fraction.take 3 = fraction := List.take_of_length_le hshort
    rw [htake] at hlt hle ⊢
    have hzeros : 10 ^ (3 - fraction.length) ≤ 10 ^ 3 := Nat.pow_le_pow_right (by decide) (by omega)
    have hsmall : natOfDigits fraction * 10 ^ (3 - fraction.length) ≤ 1000 * 1000 :=
      Nat.mul_le_mul (by omega) (by omega)
    exact pushZeros?_eq _ _ (by omega)
  | some fourth =>
    have hlong : 3 < fraction.length := (List.getElem?_eq_some_iff.1 hfourth).1
    have htake : (fraction.take 3).length = 3 := by
      rw [List.length_take]
      omega
    have hzeros : 3 - fraction.length = 0 := by omega
    have hrounded : word? ((natOfDigits (fraction.take 3) : Int) + 1) =
        some ((natOfDigits (fraction.take 3) : Int) + 1) := word?_of_lt (by omega) (by omega)
    simp only [htake, hzeros, hrounded, pushZeros?]
    by_cases hfive : '5' ≤ fourth
    · simp [hfive]
    · simp [hfive]

theorem fractionThousandths_le {fraction : List Char} (h : allDigits fraction = true) :
    fractionThousandths fraction ≤ 1000 := by
  have hpos : 0 < 10 ^ fraction.length := Nat.pow_pos (by decide)
  have hlt := natOfDigits_lt h
  rw [fractionThousandths_eq h, roundedThousandths, ← Nat.lt_succ_iff, Nat.div_lt_iff_lt_mul (by omega)]
  omega

theorem signedInWords?_eq (negative : Bool) {n : Int} (h : 0 ≤ n) :
    signedInWords? negative n = some (ofThousandths? (if negative then -n else n)) := by
  by_cases hlimit : (decimalLimit : Int) ≤ n
  · have hnone : ofThousandths? (if negative then -n else n) = none := by
      rw [ofThousandths?, dif_neg]
      cases negative <;> simp <;> omega
    rw [signedInWords?, if_pos hlimit, hnone]
  · rw [signedInWords?, if_neg hlimit]
    cases negative with
    | false => rfl
    | true =>
      have hsigned : word? (-n) = some (-n) := by
        rw [word?, if_pos]
        simp only [decimalLimit] at hlimit
        omega
      rw [if_pos rfl, if_pos rfl, hsigned, Option.map_some]

theorem amountInWords?_eq (negative : Bool) {whole fraction : List Char} (hwhole : allDigits whole = true)
    (hfraction : allDigits fraction = true) (hlength : whole.length ≤ 7) :
    amountInWords? negative whole fraction =
      let magnitude : Int := natOfDigits whole * 1000 + fractionThousandths fraction
      some (ofThousandths? (if negative then -magnitude else magnitude)) := by
  have hlt := natOfDigits_lt hwhole
  have hle : 10 ^ whole.length ≤ 10 ^ 7 := Nat.pow_le_pow_right (by decide) hlength
  have hthousandths := fractionThousandths_le hfraction
  have hread : whole.foldlM pushDigit? 0 = some (natOfDigits whole : Int) := by
    have hfold := foldlM_pushDigit? hwhole 0 (by omega)
    rwa [Nat.zero_mul, Nat.zero_add] at hfold
  have hscaled : word? ((natOfDigits whole : Int) * 1000) = some ((natOfDigits whole : Int) * 1000) :=
    word?_of_lt (by omega) (by omega)
  have hsum : word? ((natOfDigits whole : Int) * 1000 + fractionThousandths fraction) =
      some ((natOfDigits whole : Int) * 1000 + fractionThousandths fraction) :=
    word?_of_lt (by omega) (by omega)
  simp only [amountInWords?, Option.bind_eq_bind]
  rw [hread, Option.bind_some, fractionInWords?_eq hfraction, Option.bind_some, hscaled,
    Option.bind_some, hsum, Option.bind_some, signedInWords?_eq negative (by omega)]

theorem ofDigitsInWords?_eq (text : List Char) : ofDigitsInWords? text = some (ofDigits? text) := by
  unfold ofDigitsInWords? ofDigits?
  dsimp only
  split
  · rfl
  · rename_i haccepted
    split
    · rfl
    · rename_i hshort
      simp only [Bool.or_eq_true, Bool.and_eq_true, List.isEmpty_iff, Bool.not_eq_true', not_or,
        Bool.not_eq_false] at haccepted
      obtain ⟨⟨-, hwhole⟩, hfraction⟩ := haccepted
      exact amountInWords?_eq _ (allDigits_dropZeros hwhole) hfraction (Nat.le_of_not_lt hshort)

/-- The reader of amounts accepts a sign or none, digits, and perhaps a point with digits behind it, with
one digit at least, where the value in thousandths is below ten to the tenth once it is rounded, halves
away from zero; and the amount has just that many thousandths.  However many digits there are, words of
64 bits hold every number on the way. -/
theorem ofText?_exact (text : String) :
    (∀ d, ofText? text = some d ↔
      ∃ negative whole fraction, Spells text.toList negative whole fraction ∧
        d.thousandths = nearestAway (1000 * exactValue negative whole fraction)) ∧
    ((ofText? text).isSome = true ↔
      ∃ negative whole fraction, Spells text.toList negative whole fraction ∧
        |nearestAway (1000 * exactValue negative whole fraction)| < 10 ^ 10) ∧
    ofDigitsInWords? text.toList = some (ofText? text) := by
  have haccepts : ∀ d, ofText? text = some d ↔
      ∃ negative whole fraction, Spells text.toList negative whole fraction ∧
        d.thousandths = nearestAway (1000 * exactValue negative whole fraction) :=
    fun d => ofDigits?_eq_some_iff.trans isText_iff
  refine ⟨haccepts, ?_, ofDigitsInWords?_eq text.toList⟩
  rw [Option.isSome_iff_exists]
  constructor
  · rintro ⟨d, hd⟩
    obtain ⟨negative, whole, fraction, hspells, hvalue⟩ := (haccepts d).1 hd
    refine ⟨negative, whole, fraction, hspells, ?_⟩
    have hlimit := d.inLimit
    rw [← hvalue, Int.abs_eq_natAbs]
    simp only [decimalLimit] at hlimit
    omega
  · rintro ⟨negative, whole, fraction, hspells, hlimit⟩
    have hin : (nearestAway (1000 * exactValue negative whole fraction)).natAbs < decimalLimit := by
      rw [Int.abs_eq_natAbs] at hlimit
      simp only [decimalLimit]
      omega
    exact ⟨⟨_, hin⟩, (haccepts _).2 ⟨negative, whole, fraction, hspells, rfl⟩⟩

-- The fourth digit behind the point can carry through the whole number, and past the last amount.
example : (ofText? "-009999999.99949").map Decimal.thousandths = some (-9999999999) ∧
    ofText? "9999999.9995" = none := by decide +kernel

end Registry.Decimal
