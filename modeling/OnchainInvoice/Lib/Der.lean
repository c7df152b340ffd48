import OnchainInvoice.Evm.Words

/-!
# DER integers

A non-negative integer is encoded in as few bytes as leave its top bit clear, so the encoding of a
word has from one to 33 bytes.
-/

namespace Lib.Der

open Evm

/-! ## Big-endian bytes -/

theorem beBytes_add (j k v : Nat) : beBytes (j + k) v = beBytes j (v / 256 ^ k) ++ beBytes k v := by
  induction k generalizing v with
  | zero => simp [beBytes]
  | succ k ih =>
    rw [← Nat.add_assoc, beBytes, ih, beBytes, Nat.div_div_eq_div_mul, ← Nat.pow_succ',
      List.append_assoc]

theorem beBytes_zero (n : Nat) : beBytes n 0 = List.replicate n 0 := by
  induction n with
  | zero => rfl
  | succ n ih => rw [beBytes, Nat.zero_div, ih, List.replicate_succ']; rfl

/-- A number that fits into fewer bytes has zeros in front. -/
theorem beBytes_of_lt {j k v : Nat} (h : v < 256 ^ k) :
    beBytes (j + k) v = List.replicate j 0 ++ beBytes k v := by
  rw [beBytes_add, Nat.div_eq_of_lt h, beBytes_zero]

theorem beNat_append (a b : Bytes) : beNat (a ++ b) = beNat a * 256 ^ b.length + beNat b := by
  induction b using List.reverseRecOn with
  | nil => simp [beNat]
  | append_singleton b x ih =>
    rw [← List.append_assoc, beNat_concat, ih, beNat_concat, List.length_append,
      List.length_singleton, Nat.pow_succ, Nat.add_mul, Nat.mul_assoc, Nat.add_assoc]

theorem beNat_lt (bytes : Bytes) : beNat bytes < 256 ^ bytes.length := by
  induction bytes using List.reverseRecOn with
  | nil => decide
  | append_singleton bytes b ih =>
    have hb := b.toNat_lt
    rw [beNat_concat, List.length_append, List.length_singleton, Nat.pow_succ]
    omega

theorem beBytes_beNat (bytes : Bytes) : beBytes bytes.length (beNat bytes) = bytes := by
  induction bytes using List.reverseRecOn with
  | nil => rfl
  | append_singleton bytes b ih =>
    have hb := b.toNat_lt
    have hdiv : (beNat bytes * 256 + b.toNat) / 256 = beNat bytes := by omega
    have hmod : UInt8.ofNat (beNat bytes * 256 + b.toNat) = b := by
      apply UInt8.toNat_inj.mp
      rw [UInt8.toNat_ofNat']
      omega
    rw [beNat_concat, List.length_append, List.length_singleton, beBytes, hdiv, ih, hmod]

/-! ## Integers -/

-- The bytes that leave room for a sign bit.
def integerLength (n : Nat) : Nat := (n.log2 + 1) / 8 + 1

-- The contents of the encoding of `n`.
def integerBytes (n : Nat) : Bytes := beBytes (integerLength n) n

def encodeInteger (n : Nat) : Bytes :=
  0x02 :: UInt8.ofNat (integerLength n) :: integerBytes n

-- A sequence of two integers whose lengths take one byte each.
def encodePair (r s : Nat) : Bytes :=
  0x30 :: UInt8.ofNat (integerLength r + integerLength s + 4) :: (encodeInteger r ++ encodeInteger s)

@[simp] theorem length_integerBytes (n : Nat) : (integerBytes n).length = integerLength n :=
  length_beBytes _ n

theorem length_encodePair (r s : Nat) :
    (encodePair r s).length = integerLength r + integerLength s + 6 := by
  simp only [encodePair, encodeInteger, List.length_cons, List.length_append, length_integerBytes]
  omega

/-- The top bit is clear. -/
theorem lt_of_integerLength (n : Nat) : n < 2 ^ (8 * integerLength n - 1) := by
  have hlog : n < 2 ^ (n.log2 + 1) := Nat.lt_log2_self
  refine lt_of_lt_of_le hlog (Nat.pow_le_pow_right (by decide) ?_)
  unfold integerLength
  omega

theorem lt_pow_integerLength (n : Nat) : n < 256 ^ integerLength n := by
  refine lt_of_lt_of_le (lt_of_integerLength n) ?_
  rw [show 256 = 2 ^ 8 from rfl, ← Nat.pow_mul]
  exact Nat.pow_le_pow_right (by decide) (by omega)

theorem beNat_integerBytes (n : Nat) : beNat (integerBytes n) = n :=
  beNat_beBytes (lt_pow_integerLength n)

/-- Only a number with its top bit set needs more bytes than it has. -/
theorem integerLength_le {n k : Nat} (hpos : n ≠ 0) (h : n < 256 ^ k) : integerLength n ≤ k + 1 := by
  have hlog : n.log2 < 8 * k := by
    rw [Nat.log2_lt hpos, Nat.pow_mul]
    exact h
  unfold integerLength
  omega

/-- Such a number has a zero byte in front, and any other one fits. -/
theorem integerBytes_of_lt {n k : Nat} (hpos : n ≠ 0) (h : n < 256 ^ k) :
    integerLength n = k + 1 ∧ integerBytes n = 0 :: beBytes k n ∨
      integerLength n ≤ k ∧
        beBytes k n = List.replicate (k - integerLength n) 0 ++ integerBytes n := by
  have hle := integerLength_le hpos h
  by_cases hlength : integerLength n ≤ k
  · refine .inr ⟨hlength, ?_⟩
    have hsplit : k = k - integerLength n + integerLength n := by omega
    unfold integerBytes
    rw [← beBytes_of_lt (lt_pow_integerLength n), ← hsplit]
  · have heq : integerLength n = 1 + k := by omega
    refine .inl ⟨by omega, ?_⟩
    unfold integerBytes
    rw [heq, beBytes_of_lt h]
    rfl

end Lib.Der
