import Mathlib.Algebra.Ring.Nat
import Mathlib.Tactic.Common

/-!
# Proportional fees with a minimum

A fee of `rate / den` of the amount, rounded down, but at least `minFee` and at most the amount.
What an amount costs when it is charged in parts exceeds what it costs at once by at most one minimum
for every part but the first.
-/

namespace Lib.Fees

variable (den rate minFee : Nat)

def fee (amount : Nat) : Nat := min amount (max (amount * rate / den) minFee)

theorem fee_le (amount : Nat) : fee den rate minFee amount ≤ amount := Nat.min_le_left ..

theorem share_add_le (a b : Nat) : a * rate / den + b * rate / den ≤ (a + b) * rate / den := by
  rw [Nat.add_mul]
  exact Nat.div_add_div_le_add_div

theorem fee_add_le (a b : Nat) :
    fee den rate minFee a + fee den rate minFee b ≤ fee den rate minFee (a + b) + minFee := by
  have hshares := share_add_le den rate a b
  unfold fee
  generalize a * rate / den = f at *
  generalize b * rate / den = g at *
  generalize (a + b) * rate / den = h at *
  omega

/-- The cost of splitting an amount. -/
theorem sum_fee_le (parts : List Nat) : (parts.map (fee den rate minFee)).sum ≤
    fee den rate minFee parts.sum + (parts.length - 1) * minFee := by
  induction parts with
  | nil => exact Nat.zero_le _
  | cons a parts ih =>
    rw [List.map_cons, List.sum_cons, List.sum_cons, List.length_cons, Nat.add_sub_cancel]
    cases parts with
    | nil => simp
    | cons b parts =>
      have hsplit := fee_add_le den rate minFee a (b :: parts).sum
      have hlength : ((b :: parts).length - 1) * minFee + minFee = (b :: parts).length * minFee := by
        rw [List.length_cons, Nat.add_sub_cancel, Nat.succ_mul]
      omega

end Lib.Fees
