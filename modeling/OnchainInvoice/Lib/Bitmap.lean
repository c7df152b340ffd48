import Mathlib.Data.BitVec
import Mathlib.Data.Finset.Card
import Mathlib.Data.Finset.Image
import Mathlib.Tactic.Common

/-!
# Bitmaps

A word read as the finite set of its one bits.  `|= 1 << n` inserts, `&= ~(1 << n)` erases, a
non-zero `&` is a common element, and counting the ones is taking the cardinality, so that code on
masks is reasoned about as code on sets.
-/

namespace Lib.Bitmap

variable {w : Nat}

-- `1 << n`
def mask (n : Nat) : BitVec w := 1#w <<< n

def bits (x : BitVec w) : Finset Nat := (Finset.range w).filter fun n => x.getLsbD n = true

@[simp] theorem mem_bits {x : BitVec w} {n : Nat} : n ∈ bits x ↔ x.getLsbD n = true := by
  unfold bits
  rw [Finset.mem_filter, Finset.mem_range]
  apply Iff.intro
  · exact fun h => h.2
  · exact fun h => ⟨BitVec.lt_of_getLsbD h, h⟩

theorem lt_of_mem_bits {x : BitVec w} {n : Nat} (h : n ∈ bits x) : n < w :=
  BitVec.lt_of_getLsbD (mem_bits.mp h)

theorem getLsbD_mask {n m : Nat} (h : n < w) :
    (mask n : BitVec w).getLsbD m = decide (m = n) := by
  unfold mask
  rw [BitVec.getLsbD_shiftLeft, BitVec.getLsbD_one]
  by_cases hm : m = n
  · subst hm
    simp only [h, decide_true, lt_irrefl, decide_false, Bool.not_false, Nat.sub_self, Bool.and_true]
    exact decide_eq_true (by omega)
  · simp only [hm, decide_false]
    rcases Nat.lt_or_gt_of_ne hm with hlt | hgt
    · simp [hlt]
    · have hne : ¬m - n = 0 := by omega
      simp [hne]

@[simp] theorem bits_zero : bits (0 : BitVec w) = ∅ := by
  ext n
  simp

theorem bits_injective : Function.Injective (bits : BitVec w → Finset Nat) := by
  intro x y h
  apply BitVec.eq_of_getLsbD_eq
  intro n hn
  have hmem : n ∈ bits x ↔ n ∈ bits y := by rw [h]
  rw [mem_bits, mem_bits] at hmem
  exact Bool.eq_iff_iff.mpr hmem

@[simp] theorem bits_eq_empty {x : BitVec w} : bits x = ∅ ↔ x = 0 := by
  rw [← bits_zero (w := w)]
  exact bits_injective.eq_iff

theorem bits_or (x y : BitVec w) : bits (x ||| y) = bits x ∪ bits y := by
  ext n
  simp

theorem bits_and (x y : BitVec w) : bits (x &&& y) = bits x ∩ bits y := by
  ext n
  simp

theorem bits_mask {n : Nat} (h : n < w) : bits (mask n : BitVec w) = {n} := by
  ext m
  rw [mem_bits, getLsbD_mask h, decide_eq_true_iff, Finset.mem_singleton]

theorem bits_or_mask (x : BitVec w) {n : Nat} (h : n < w) :
    bits (x ||| mask n) = insert n (bits x) := by
  rw [bits_or, bits_mask h, Finset.union_comm, ← Finset.insert_eq]

theorem bits_and_not_mask (x : BitVec w) {n : Nat} (h : n < w) :
    bits (x &&& ~~~mask n) = (bits x).erase n := by
  ext m
  rw [mem_bits, BitVec.getLsbD_and, BitVec.getLsbD_not, getLsbD_mask h, Finset.mem_erase, mem_bits]
  by_cases hm : m < w
  · simp [hm, and_comm]
  · have hx : x.getLsbD m = false := BitVec.getLsbD_of_ge x m (by omega)
    simp [hx]

theorem and_ne_zero {x y : BitVec w} : x &&& y ≠ 0 ↔ ∃ n, n ∈ bits x ∧ n ∈ bits y := by
  rw [← not_iff_not, not_not, ← bits_eq_empty, bits_and, ← Finset.disjoint_iff_inter_eq_empty,
    Finset.disjoint_left]
  simp

theorem and_mask_ne_zero {x : BitVec w} {n : Nat} (h : n < w) :
    x &&& mask n ≠ 0 ↔ n ∈ bits x := by
  rw [and_ne_zero, bits_mask h]
  simp

/-- The word with the lowest `n` bits set. -/
theorem bits_eq_range_iff {x : BitVec w} {n : Nat} (h : n ≤ w) :
    bits x = Finset.range n ↔ x.toNat = 2 ^ n - 1 := by
  have hlt : 2 ^ n - 1 < 2 ^ w := by
    have hpow : 2 ^ n ≤ 2 ^ w := Nat.pow_le_pow_right (by decide) h
    have hpos : 0 < 2 ^ n := Nat.two_pow_pos n
    omega
  have hrange : bits (BitVec.ofNat w (2 ^ n - 1)) = Finset.range n := by
    ext m
    rw [mem_bits, BitVec.getLsbD_ofNat, Nat.testBit_two_pow_sub_one, Finset.mem_range]
    simp only [Bool.and_eq_true, decide_eq_true_eq]
    omega
  rw [← hrange, bits_injective.eq_iff]
  apply Iff.intro
  · intro hx
    rw [hx, BitVec.toNat_ofNat, Nat.mod_eq_of_lt hlt]
  · intro hx
    apply BitVec.eq_of_toNat_eq
    rw [hx, BitVec.toNat_ofNat, Nat.mod_eq_of_lt hlt]

/-- Shifting right by one takes the lowest bit out of the count. -/
theorem card_bits_ushiftRight (x : BitVec w) :
    (bits x).card = (x.getLsbD 0).toNat + (bits (x >>> 1)).card := by
  have hmem : ∀ n, n + 1 ∈ bits x ↔ n ∈ bits (x >>> 1) := by
    intro n
    rw [mem_bits, mem_bits, BitVec.getLsbD_ushiftRight, Nat.add_comm]
  have hcard : ((bits (x >>> 1)).image Nat.succ).card = (bits (x >>> 1)).card :=
    Finset.card_image_of_injective _ Nat.succ_injective
  have hzero : 0 ∉ (bits (x >>> 1)).image Nat.succ := by simp
  cases hlow : x.getLsbD 0 with
  | false =>
    have hset : bits x = (bits (x >>> 1)).image Nat.succ := by
      ext n
      cases n with
      | zero => simp [hlow]
      | succ n => rw [hmem]; simp
    rw [hset, hcard]
    simp
  | true =>
    have hset : bits x = insert 0 ((bits (x >>> 1)).image Nat.succ) := by
      ext n
      cases n with
      | zero => simp [hlow]
      | succ n => rw [hmem]; simp
    rw [hset, Finset.card_insert_of_notMem hzero, hcard]
    simp [Nat.add_comm]

end Lib.Bitmap
