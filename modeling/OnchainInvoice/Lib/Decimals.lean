import Mathlib.Algebra.Order.Field.Rat
import Mathlib.Tactic.FieldSimp
import Mathlib.Tactic.Ring
import OnchainInvoice.Lib.Digits

/-!
# Decimal fractions

Numerals with digits before a point and digits behind it, and the rational that such a numeral
stands for.
-/

namespace Lib.Digits

variable {t : Text}

def fractionValue : Text → ℚ
  | [] => 0
  | c :: t => ((c.toNat - 48 : ℕ) + fractionValue t) / 10

theorem fractionValue_mul (t : Text) :
    fractionValue t * 10 ^ t.length = Nat.ofDigitChars 10 t 0 := by
  induction t with
  | nil => simp [fractionValue]
  | cons c t ih =>
    rw [Nat.ofDigitChars_cons, Nat.ofDigitChars_eq_ofDigitChars_zero]
    simp only [fractionValue, List.length_cons, Nat.mul_zero, Nat.zero_add, Char.reduceToNat]
    push_cast
    rw [← ih, pow_succ]
    ring

/-- Zeros behind a fraction do not count. -/
theorem ofDigitChars_append_zeros (t : Text) (n : Nat) :
    Nat.ofDigitChars 10 (t ++ List.replicate n '0') 0 = 10 ^ n * Nat.ofDigitChars 10 t 0 := by
  rw [Nat.ofDigitChars_append, Nat.ofDigitChars_replicate_zero]

-- A numeral without a point has no fraction.
structure Decimal where
  whole : Text
  fraction : Text
  whole_ne : whole ≠ []
  isNumeral_whole : IsNumeral whole
  isNumeral_fraction : IsNumeral fraction

namespace Decimal

variable (d : Decimal)

def text : Text := if d.fraction = [] then d.whole else d.whole ++ '.' :: d.fraction

def value : ℚ := Nat.ofDigitChars 10 d.whole 0 + fractionValue d.fraction

/-- What the digits make of the value when the fraction is filled up with zeros. -/
theorem value_mul {places : Nat} (h : d.fraction.length ≤ places) :
    d.value * 10 ^ places = (Nat.ofDigitChars 10 d.whole 0 * 10 ^ places + Nat.ofDigitChars 10
      (d.fraction ++ List.replicate (places - d.fraction.length) '0') 0 : ℕ) := by
  have hfraction := fractionValue_mul d.fraction
  have hplaces : (10 : ℚ) ^ places =
      10 ^ d.fraction.length * 10 ^ (places - d.fraction.length) := by
    rw [← pow_add, Nat.add_sub_cancel' h]
  rw [ofDigitChars_append_zeros]
  unfold value
  push_cast
  rw [add_mul, ← hfraction, hplaces]
  ring

end Decimal

end Lib.Digits
