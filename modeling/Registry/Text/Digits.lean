import Registry.Number.Power

/-! # Digits — numbers written in decimal digits

Reading and writing of ASCII digits: numbers of any length, numbers padded with zeros to a fixed
width, and signed numbers within bounds as a setting holds them. The main facts say that a written
number reads back. -/

namespace Registry.Text

def allDigits (text : List Char) : Bool := text.all Char.isDigit

/-- The number that a list of ASCII digits denotes; no digit denotes zero. -/
def natOfDigits (digits : List Char) : Nat := Nat.ofDigitChars 10 digits 0

-- A number in decimal digits, without leading zeros.
def digitsOf (n : Nat) : List Char := Nat.toDigits 10 n

/-- A number in decimal digits, with zeros in front up to the width. -/
def paddedDigits (width n : Nat) : List Char :=
  List.replicate (width - (digitsOf n).length) '0' ++ digitsOf n

def padded (width n : Nat) : String := String.ofList (paddedDigits width n)

theorem natOfDigits_digitsOf (n : Nat) : natOfDigits (digitsOf n) = n :=
  Nat.ofDigitChars_ten_toDigits

theorem natOfDigits_nil : natOfDigits [] = 0 := rfl

-- Zeros in front of a number do not change it.
theorem natOfDigits_replicate_zero (k : Nat) (digits : List Char) :
    natOfDigits (List.replicate k '0' ++ digits) = natOfDigits digits := by
  simp [natOfDigits, Nat.ofDigitChars_append, Nat.ofDigitChars_replicate_zero]

-- Digits are read from the left: what stands in front weighs ten to the number of digits behind.
theorem natOfDigits_append (a b : List Char) :
    natOfDigits (a ++ b) = 10 ^ b.length * natOfDigits a + natOfDigits b := by
  simp only [natOfDigits, Nat.ofDigitChars_append]
  rw [Nat.ofDigitChars_eq_ofDigitChars_zero]

theorem natOfDigits_paddedDigits (width n : Nat) : natOfDigits (paddedDigits width n) = n := by
  rw [paddedDigits, natOfDigits_replicate_zero, natOfDigits_digitsOf]

theorem allDigits_digitsOf (n : Nat) : allDigits (digitsOf n) = true := by
  simp only [allDigits, List.all_eq_true]
  exact fun _ hc => Nat.isDigit_of_mem_toDigits (by decide) (by decide) hc

theorem allDigits_append (a b : List Char) : allDigits (a ++ b) = (allDigits a && allDigits b) := by
  simp [allDigits]

theorem allDigits_paddedDigits (width n : Nat) : allDigits (paddedDigits width n) = true := by
  rw [paddedDigits, allDigits_append, allDigits_digitsOf, Bool.and_true]
  simp only [allDigits, List.all_eq_true, List.mem_replicate]
  rintro c ⟨_, rfl⟩
  decide

-- A number below ten to the width takes exactly that width.
theorem length_paddedDigits {width n : Nat} (hw : 0 < width) (h : n < 10 ^ width) :
    (paddedDigits width n).length = width := by
  have hlen : (digitsOf n).length ≤ width := (Nat.length_toDigits_le_iff (by decide) hw).2 h
  simp only [paddedDigits, List.length_append, List.length_replicate]
  omega

def intOfDigits? (text : List Char) : Option Int :=
  match text with
  | '-' :: digits => if digits.isEmpty || !allDigits digits then none else some (-(natOfDigits digits))
  | '+' :: digits => if digits.isEmpty || !allDigits digits then none else some (natOfDigits digits)
  | digits => if digits.isEmpty || !allDigits digits then none else some (natOfDigits digits)

/-- A natural number below the limit, with an optional plus sign; a minus sign is refused whatever
follows it. -/
def boundedNat? (limit : Nat) (text : String) : Option Nat :=
  match text.toList with
  | '-' :: _ => none
  | digits => (intOfDigits? digits).bind fun n => if n.toNat < limit then some n.toNat else none

def signed64? (text : String) : Option Int :=
  (intOfDigits? text.toList).bind fun n =>
    if -(2 ^ 63 : Int) ≤ n ∧ n < 2 ^ 63 then some n else none

end Registry.Text
