import Mathlib.Data.List.Basic
import Registry.Text.Digits

/-!
# DigitRuns — the numbers that runs of digits denote

A run of digits denotes a number below ten to its length, and two runs of one length come in the order
of their numbers, so they denote the same number only if they are the same run.  So a run is the padded
form of its number, and the length of a run without its leading zeros says how large its number is.
-/

namespace Registry.Text

/-- The number that a digit denotes. -/
def digitValue (c : Char) : Nat := c.toNat - '0'.toNat

theorem isDigit_iff {c : Char} : c.isDigit = true ↔ 48 ≤ c.toNat ∧ c.toNat ≤ 57 := by
  simp only [Char.isDigit, Bool.and_eq_true, decide_eq_true_eq, ge_iff_le, UInt32.le_iff_toNat_le]
  exact Iff.rfl

theorem digitValue_lt {c : Char} (h : c.isDigit = true) : digitValue c < 10 := by
  have hrange := isDigit_iff.1 h
  show c.toNat - 48 < 10
  omega

theorem eq_of_digitValue_eq {c c' : Char} (h : c.isDigit = true) (h' : c'.isDigit = true)
    (heq : digitValue c = digitValue c') : c = c' := by
  have hrange := isDigit_iff.1 h
  have hrange' := isDigit_iff.1 h'
  have hnat : c.toNat - 48 = c'.toNat - 48 := heq
  apply Char.ext
  apply UInt32.toNat_inj.1
  show c.toNat = c'.toNat
  omega

theorem allDigits_cons {c : Char} {rest : List Char} :
    allDigits (c :: rest) = true ↔ c.isDigit = true ∧ allDigits rest = true := by
  simp [allDigits]

-- What is taken out of a run of digits is one, too.
theorem allDigits_of_subset {digits part : List Char} (h : allDigits digits = true)
    (hpart : part ⊆ digits) : allDigits part = true := by
  simp only [allDigits, List.all_eq_true] at *
  exact fun c hc => h c (hpart hc)

theorem natOfDigits_cons (c : Char) (rest : List Char) :
    natOfDigits (c :: rest) = 10 ^ rest.length * digitValue c + natOfDigits rest := by
  have hone : natOfDigits [c] = digitValue c := by
    simp [natOfDigits, digitValue, Nat.ofDigitChars_cons]
  rw [← hone, ← natOfDigits_append, List.singleton_append]

theorem natOfDigits_lt {digits : List Char} (h : allDigits digits = true) :
    natOfDigits digits < 10 ^ digits.length := by
  induction digits with
  | nil => simp [natOfDigits_nil]
  | cons c rest ih =>
    obtain ⟨hc, hrest⟩ := allDigits_cons.1 h
    have hvalue : 10 ^ rest.length * digitValue c ≤ 10 ^ rest.length * 9 :=
      Nat.mul_le_mul_left _ (Nat.le_of_lt_succ (digitValue_lt hc))
    have hlater := ih hrest
    rw [natOfDigits_cons, List.length_cons, Nat.pow_succ]
    omega

-- Of two runs of one length the digit in front decides first.
theorem eq_of_natOfDigits_eq {a b : List Char} (ha : allDigits a = true) (hb : allDigits b = true)
    (hlen : a.length = b.length) (h : natOfDigits a = natOfDigits b) : a = b := by
  induction a generalizing b with
  | nil => exact (List.length_eq_zero_iff.1 hlen.symm).symm
  | cons c a ih =>
    cases b with
    | nil => cases hlen
    | cons c' b =>
      obtain ⟨hc, ha⟩ := allDigits_cons.1 ha
      obtain ⟨hc', hb⟩ := allDigits_cons.1 hb
      have hlen : a.length = b.length := Nat.succ.inj hlen
      rw [natOfDigits_cons, natOfDigits_cons, ← hlen] at h
      have hlt := natOfDigits_lt ha
      have hlt' := natOfDigits_lt hb
      rw [← hlen] at hlt'
      have hpos : 0 < 10 ^ a.length := Nat.pow_pos (by decide)
      have hdigit : digitValue c = digitValue c' := by
        have hquot := congrArg (· / 10 ^ a.length) h
        simpa only [Nat.mul_add_div hpos, Nat.div_eq_of_lt hlt, Nat.div_eq_of_lt hlt', Nat.add_zero]
          using hquot
      rw [hdigit] at h
      rw [eq_of_digitValue_eq hc hc' hdigit, ih ha hb hlen (Nat.add_left_cancel h)]

/-- A run of digits is its number, padded to the length of the run. -/
theorem paddedDigits_natOfDigits {digits : List Char} (h : allDigits digits = true)
    (hne : digits ≠ []) : paddedDigits digits.length (natOfDigits digits) = digits := by
  apply eq_of_natOfDigits_eq (allDigits_paddedDigits _ _) h
  · exact length_paddedDigits (List.length_pos_iff.2 hne) (natOfDigits_lt h)
  · exact natOfDigits_paddedDigits _ _

/-! ## The order of runs -/

theorem lt_iff_digitValue_lt {c c' : Char} (h : c.isDigit = true) (h' : c'.isDigit = true) :
    c < c' ↔ digitValue c < digitValue c' := by
  have hrange := isDigit_iff.1 h
  have hrange' := isDigit_iff.1 h'
  show c.toNat < c'.toNat ↔ c.toNat - 48 < c'.toNat - 48
  omega

/-- Two runs of one length come in the order of the numbers that they denote. -/
theorem lt_iff_natOfDigits_lt {a b : List Char} (ha : allDigits a = true) (hb : allDigits b = true)
    (hlen : a.length = b.length) : a < b ↔ natOfDigits a < natOfDigits b := by
  induction a generalizing b with
  | nil =>
    rw [List.length_eq_zero_iff.1 hlen.symm]
    exact ⟨fun h => absurd h (List.not_lt_nil _), fun h => absurd h (Nat.lt_irrefl _)⟩
  | cons c a ih =>
    cases b with
    | nil => cases hlen
    | cons c' b =>
      obtain ⟨hc, ha⟩ := allDigits_cons.1 ha
      obtain ⟨hc', hb⟩ := allDigits_cons.1 hb
      have hlen : a.length = b.length := Nat.succ.inj hlen
      have hlt := natOfDigits_lt ha
      have hlt' := natOfDigits_lt hb
      rw [List.cons_lt_cons_iff, lt_iff_digitValue_lt hc hc', ih ha hb hlen, natOfDigits_cons,
        natOfDigits_cons, hlen]
      rw [hlen] at hlt
      -- a larger digit in front outweighs all digits behind it
      have houtweighs : ∀ {v w : Nat}, v < w →
          10 ^ b.length * v + 10 ^ b.length ≤ 10 ^ b.length * w := fun h => Nat.mul_le_mul_left _ h
      rcases Nat.lt_trichotomy (digitValue c) (digitValue c') with hless | heq | hmore
      · have hle := houtweighs hless
        simp only [hless, true_or, true_iff]
        omega
      · rw [eq_of_digitValue_eq hc hc' heq]
        simp
      · have hle := houtweighs hmore
        have hne : c ≠ c' := by
          rintro rfl
          exact Nat.lt_irrefl _ hmore
        simp only [hne, Nat.not_lt.2 (Nat.le_of_lt hmore), false_and, or_self, false_iff]
        omega

/-! ## Leading zeros -/

theorem allDigits_dropZeros {digits : List Char} (h : allDigits digits = true) :
    allDigits (digits.dropWhile (· == '0')) = true :=
  allDigits_of_subset h (List.dropWhile_suffix _).subset

theorem natOfDigits_dropZeros (digits : List Char) :
    natOfDigits (digits.dropWhile (· == '0')) = natOfDigits digits := by
  induction digits with
  | nil => rfl
  | cons c rest ih =>
    by_cases hzero : c = '0'
    · subst hzero
      rw [natOfDigits_cons]
      simpa [digitValue] using ih
    · rw [List.dropWhile_cons_of_neg (by simpa using hzero)]

/-- Without its leading zeros a run has at most `width` digits just when its number is below ten to
the width. -/
theorem length_dropZeros_le_iff {digits : List Char} (h : allDigits digits = true) (width : Nat) :
    (digits.dropWhile (· == '0')).length ≤ width ↔ natOfDigits digits < 10 ^ width := by
  have hdigits := allDigits_dropZeros h
  rw [← natOfDigits_dropZeros digits]
  constructor
  · intro hle
    exact Nat.lt_of_lt_of_le (natOfDigits_lt hdigits) (Nat.pow_le_pow_right (by decide) hle)
  · intro hlt
    cases hrun : digits.dropWhile (· == '0') with
    | nil => simp
    | cons c rest =>
      have hhead : c ≠ '0' := by
        have hfirst := List.head_dropWhile_not (· == '0') (l := digits) (by simp [hrun])
        simpa [hrun] using hfirst
      rw [hrun] at hdigits hlt
      have hc := (allDigits_cons.1 hdigits).1
      have hvalue : 1 ≤ digitValue c := by
        apply Nat.one_le_iff_ne_zero.2
        exact fun hz => hhead (eq_of_digitValue_eq hc (by decide) hz)
      have hlow : 10 ^ rest.length ≤ natOfDigits (c :: rest) := by
        rw [natOfDigits_cons]
        exact Nat.le_trans (Nat.le_mul_of_pos_right _ hvalue) (Nat.le_add_right _ _)
      exact (Nat.pow_lt_pow_iff_right (by decide)).1 (Nat.lt_of_le_of_lt hlow hlt)

end Registry.Text
