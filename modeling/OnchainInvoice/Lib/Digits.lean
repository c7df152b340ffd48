import Mathlib.Algebra.Order.Ring.Nat
import Mathlib.Tactic.Common

/-!
# Decimal numerals in dictionary order

Numerals of one length are in the order of their values, so numerals that are padded to one length
sort as numbers do.
-/

namespace Lib.Digits

abbrev Text := List Char

def IsNumeral (t : Text) : Prop := ∀ c ∈ t, c.isDigit = true

variable {s t : Text}

theorem digit_bounds {c : Char} (h : c.isDigit = true) : 48 ≤ c.toNat ∧ c.toNat ≤ 57 := by
  simp only [Char.isDigit, Bool.and_eq_true, decide_eq_true_eq] at h
  exact h

theorem ofDigitChars_bounds (ht : IsNumeral t) (n : Nat) :
    10 ^ t.length * n ≤ Nat.ofDigitChars 10 t n ∧
      Nat.ofDigitChars 10 t n < 10 ^ t.length * (n + 1) := by
  induction t generalizing n with
  | nil => simp [Nat.ofDigitChars_nil]
  | cons c t ih =>
    obtain ⟨hlow, hhigh⟩ := digit_bounds (ht c (List.mem_cons_self ..))
    have hrest := ih (fun d hd => ht d (List.mem_cons_of_mem c hd)) (10 * n + (c.toNat - 48))
    rw [Nat.ofDigitChars_cons, List.length_cons, Nat.pow_succ]
    apply And.intro
    · calc 10 ^ t.length * 10 * n = 10 ^ t.length * (10 * n) := by rw [Nat.mul_assoc]
        _ ≤ 10 ^ t.length * (10 * n + (c.toNat - 48)) := Nat.mul_le_mul_left _ (by omega)
        _ ≤ _ := hrest.1
    · calc _ < 10 ^ t.length * (10 * n + (c.toNat - 48) + 1) := hrest.2
        _ ≤ 10 ^ t.length * (10 * (n + 1)) := Nat.mul_le_mul_left _ (by omega)
        _ = 10 ^ t.length * 10 * (n + 1) := by rw [Nat.mul_assoc]

/-- Of two numerals of one length the smaller comes first, whatever stands behind them. -/
theorem append_lt_append (hs : IsNumeral s) (ht : IsNumeral t) (hlength : s.length = t.length)
    {n : Nat} (h : Nat.ofDigitChars 10 s n < Nat.ofDigitChars 10 t n) (u v : Text) :
    s ++ u < t ++ v := by
  induction s generalizing t n with
  | nil =>
    rw [List.length_nil] at hlength
    rw [List.eq_nil_of_length_eq_zero hlength.symm] at h
    exact absurd h (Nat.lt_irrefl _)
  | cons c s ih =>
    cases t with
    | nil => cases hlength
    | cons d t =>
      have hs' : IsNumeral s := fun e he => hs e (List.mem_cons_of_mem c he)
      have ht' : IsNumeral t := fun e he => ht e (List.mem_cons_of_mem d he)
      have hlength' : s.length = t.length := by simpa using hlength
      rw [Nat.ofDigitChars_cons, Nat.ofDigitChars_cons] at h
      rw [List.cons_append, List.cons_append, List.cons_lt_cons_iff]
      rcases Nat.lt_trichotomy c.toNat d.toNat with hlt | heq | hgt
      · exact .inl hlt
      · have hcd : c = d := Char.toNat_inj.mp heq
        subst hcd
        exact .inr ⟨rfl, ih hs' ht' hlength' h⟩
      · have hlow := (ofDigitChars_bounds hs' (10 * n + (c.toNat - '0'.toNat))).1
        have hhigh := (ofDigitChars_bounds ht' (10 * n + (d.toNat - '0'.toNat))).2
        have hdigit := digit_bounds (ht d (List.mem_cons_self ..))
        have hstep : 10 ^ s.length * (10 * n + (d.toNat - '0'.toNat) + 1) ≤
            10 ^ s.length * (10 * n + (c.toNat - '0'.toNat)) := by
          apply Nat.mul_le_mul_left
          show 10 * n + (d.toNat - 48) + 1 ≤ 10 * n + (c.toNat - 48)
          omega
        rw [hlength'] at hlow hstep
        exact absurd (Nat.lt_of_lt_of_le hhigh (Nat.le_trans hstep hlow)) (Nat.lt_asymm h)

end Lib.Digits
