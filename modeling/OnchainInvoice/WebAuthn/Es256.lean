import OnchainInvoice.Lib.Der
import OnchainInvoice.Lib.Revert

/-!
# ES256 signatures

`parseEs256Signature` of `webauthn-signature.ts`, which the client encodes assertions with, and
`parseEs256` of `webauthn-verify.ts`, which the server verifies them with.  The hexadecimal texts of
the source stand here as their bytes.
-/

namespace OnchainInvoice.WebAuthn

open Evm Lib.Der Lib.Revert

-- The last one is the `RangeError` of `pad32`.
inductive Es256Error
  | invalidDerSignature | invalidDerR | invalidDerS | outOfRange
deriving DecidableEq

structure Es256 where
  r : Bytes
  s : Bytes
deriving DecidableEq

-- `bytes.slice(start, stop)`
def slice (bytes : Bytes) (start stop : Nat) : Bytes := (bytes.drop start).take (stop - start)

-- What follows the check for 64 bytes, in both copies.  An index that is `NaN` reads `undefined`, and
-- a slice that ends at `NaN` is empty.
def readDer (bytes : Bytes) : Except Es256Error Es256 := do
  revertIf (bytes[0]? ≠ some 0x30) .invalidDerSignature
  revertIf (bytes[2]? ≠ some 0x02) .invalidDerR
  let rLen ← orRevert .invalidDerS bytes[3]?
  let offset := 4 + rLen.toNat
  revertIf (bytes[offset]? ≠ some 0x02) .invalidDerS
  let sBytes :=
    match bytes[offset + 1]? with
    | none => []
    | some sLen => slice bytes (offset + 2) (offset + 2 + sLen.toNat)
  return ⟨slice bytes 4 offset, sBytes⟩

def pad32 (bytes : Bytes) : Except Es256Error Bytes := do
  if bytes.length = 32 then return bytes
  if bytes.length = 33 ∧ bytes[0]? = some 0 then return bytes.drop 1
  revertIf (32 < bytes.length) .outOfRange
  return List.replicate (32 - bytes.length) 0 ++ bytes

def parseEs256 (bytes : Bytes) : Except Es256Error Es256 :=
  if bytes.length = 64 then .ok ⟨slice bytes 0 32, slice bytes 32 64⟩
  else do
    let der ← readDer bytes
    let r ← pad32 der.r
    let s ← pad32 der.s
    return ⟨r, s⟩

/-! ## Low `s` -/

def P256_N : Nat := 0xFFFFFFFF00000000FFFFFFFFFFFFFFFFBCE6FAADA7179E84F3B9CAC2FC632551
def P256_HALF_N : Nat := 0x7fffffff800000007fffffffffffffffde737d56d38bcf4279dce5617e3192a8

-- `n & 0xff` and `n >>= 8` on a negative number work on its two's complement.
def bigIntToBytes32 (value : Int) : Bytes := beBytes 32 (value % 2 ^ 256).toNat

def normalizeP256Signature (signature : Es256) : Es256 :=
  if beNat signature.s ≤ P256_HALF_N then signature
  else { signature with s := bigIntToBytes32 (P256_N - beNat signature.s) }

def parseEs256Signature (bytes : Bytes) : Except Es256Error Es256 :=
  if bytes.length = 64 then
    .ok (normalizeP256Signature ⟨slice bytes 0 32, slice bytes 32 64⟩)
  else do
    let der ← readDer bytes
    let r ← pad32 der.r
    let s ← pad32 der.s
    return normalizeP256Signature ⟨r, s⟩

/-! ## Valid signatures -/

structure Scalars where
  r : Nat
  s : Nat
  r_pos : 1 ≤ r
  r_lt : r < P256_N
  s_pos : 1 ≤ s
  s_lt : s < P256_N

namespace Scalars

variable (p : Scalars)

def raw : Bytes := beBytes 32 p.r ++ beBytes 32 p.s

def der : Bytes := encodePair p.r p.s

def low : Nat := min p.s (P256_N - p.s)

end Scalars

-- The client makes `s` low, the server leaves it, and both read the same numbers.
structure Decoded (p : Scalars) (bytes : Bytes) : Prop where
  client : parseEs256Signature bytes = .ok ⟨beBytes 32 p.r, beBytes 32 p.low⟩
  server : parseEs256 bytes = .ok ⟨beBytes 32 p.r, beBytes 32 p.s⟩
  agree : parseEs256Signature bytes = (parseEs256 bytes).map normalizeP256Signature

variable {p : Scalars} {bytes : Bytes}

/-- On any bytes the client decodes what the server does, and makes it low. -/
theorem parseEs256Signature_eq (bytes : Bytes) :
    parseEs256Signature bytes = (parseEs256 bytes).map normalizeP256Signature := by
  unfold parseEs256Signature parseEs256
  by_cases hlength : bytes.length = 64
  · rw [if_pos hlength, if_pos hlength]
    rfl
  · rw [if_neg hlength, if_neg hlength]
    cases readDer bytes with
    | error e => rfl
    | ok der =>
      simp only [bind, Except.bind]
      cases pad32 der.r with
      | error e => rfl
      | ok r =>
        cases hs : pad32 der.s with
        | error e => rfl
        | ok s => rfl

theorem P256_N_lt : P256_N < 256 ^ 32 := by decide

theorem normalize_scalars :
    normalizeP256Signature ⟨beBytes 32 p.r, beBytes 32 p.s⟩ = ⟨beBytes 32 p.r, beBytes 32 p.low⟩ := by
  have hlt := p.s_lt
  have hvalue : beNat (beBytes 32 p.s) = p.s := beNat_beBytes (hlt.trans P256_N_lt)
  have hhalf : P256_N = 2 * P256_HALF_N + 1 := by decide
  have hwidth : P256_N < 2 ^ 256 := by decide
  unfold normalizeP256Signature Scalars.low
  rw [hvalue]
  by_cases hlow : p.s ≤ P256_HALF_N
  · rw [if_pos hlow, min_eq_left (by omega)]
  · have hmod : (((P256_N : Int) - p.s) % 2 ^ 256).toNat = P256_N - p.s := by omega
    rw [if_neg hlow, min_eq_right (by omega)]
    unfold bigIntToBytes32
    rw [hmod]

/-- It is enough that the server reads the numbers. -/
theorem decoded_iff : Decoded p bytes ↔ parseEs256 bytes = .ok ⟨beBytes 32 p.r, beBytes 32 p.s⟩ := by
  apply Iff.intro Decoded.server
  intro hserver
  refine ⟨?_, hserver, parseEs256Signature_eq bytes⟩
  rw [parseEs256Signature_eq, hserver]
  exact congrArg Except.ok normalize_scalars

theorem decoded_raw (p : Scalars) : Decoded p p.raw := by
  rw [decoded_iff]
  have hlength : p.raw.length = 64 := by
    rw [Scalars.raw, List.length_append, length_beBytes, length_beBytes]
  have hr : slice p.raw 0 32 = beBytes 32 p.r := by
    rw [slice, Scalars.raw, List.drop_zero, List.take_left' (by rw [length_beBytes])]
  have hs : slice p.raw 32 64 = beBytes 32 p.s := by
    rw [slice, Scalars.raw, List.drop_left' (by rw [length_beBytes]),
      List.take_of_length_le (by rw [length_beBytes])]
  rw [parseEs256, if_pos hlength, hr, hs]

/-! ## DER -/

theorem pad32_integerBytes {n : Nat} (hpos : 1 ≤ n) (hlt : n < P256_N) :
    pad32 (integerBytes n) = .ok (beBytes 32 n) := by
  unfold pad32
  rcases integerBytes_of_lt (by omega) (hlt.trans P256_N_lt) with ⟨hlength, hbytes⟩ | ⟨hle, hbytes⟩
  · rw [length_integerBytes, hlength, hbytes]
    rfl
  · rw [length_integerBytes, hbytes]
    by_cases hfull : integerLength n = 32
    · rw [if_pos hfull, hfull]
      rfl
    · rw [if_neg hfull, if_neg (by omega), decide_eq_false (by omega)]
      rfl

theorem integerLength_scalar {n : Nat} (hpos : 1 ≤ n) (hlt : n < P256_N) : integerLength n ≤ 33 :=
  integerLength_le (by omega) (hlt.trans P256_N_lt)

-- What stands behind the first integer.
theorem drop_der (p : Scalars) : p.der.drop (4 + integerLength p.r) =
    0x02 :: UInt8.ofNat (integerLength p.s) :: integerBytes p.s := by
  have hdrop : p.der.drop 4 =
      integerBytes p.r ++ 0x02 :: UInt8.ofNat (integerLength p.s) :: integerBytes p.s := rfl
  rw [← List.drop_drop, hdrop, List.drop_left' (length_integerBytes p.r)]

theorem readDer_der (p : Scalars) : readDer p.der = .ok ⟨integerBytes p.r, integerBytes p.s⟩ := by
  have hr := integerLength_scalar p.r_pos p.r_lt
  have hs := integerLength_scalar p.s_pos p.s_lt
  have hrLen : (UInt8.ofNat (integerLength p.r)).toNat = integerLength p.r := by
    rw [UInt8.toNat_ofNat', Nat.mod_eq_of_lt (by omega)]
  have hsLen : (UInt8.ofNat (integerLength p.s)).toNat = integerLength p.s := by
    rw [UInt8.toNat_ofNat', Nat.mod_eq_of_lt (by omega)]
  have hdrop : p.der.drop 4 =
      integerBytes p.r ++ 0x02 :: UInt8.ofNat (integerLength p.s) :: integerBytes p.s := rfl
  have hat : ∀ i, p.der[4 + integerLength p.r + i]? =
      (0x02 :: UInt8.ofNat (integerLength p.s) :: integerBytes p.s)[i]? := by
    intro i
    rw [← List.getElem?_drop, drop_der]
  have hrBytes : slice p.der 4 (4 + integerLength p.r) = integerBytes p.r := by
    rw [slice, hdrop, Nat.add_sub_cancel_left, List.take_left' (length_integerBytes p.r)]
  have hsBytes : slice p.der (4 + integerLength p.r + 2) (4 + integerLength p.r + 2 +
      integerLength p.s) = integerBytes p.s := by
    rw [slice, ← List.drop_drop, drop_der, Nat.add_sub_cancel_left]
    exact List.take_of_length_le (length_integerBytes p.s).le
  have hthird : p.der[3]? = some (UInt8.ofNat (integerLength p.r)) := rfl
  unfold readDer
  rw [hthird]
  simp only [orRevert, bind, Except.bind, hrLen]
  rw [show p.der[4 + integerLength p.r]? = some 0x02 from hat 0,
    show p.der[4 + integerLength p.r + 1]? = some (UInt8.ofNat (integerLength p.s)) from hat 1]
  simp only [hsLen, hrBytes, hsBytes]
  rfl

/-- A DER signature of another length than 64 bytes is read. -/
theorem decoded_der (p : Scalars) (h : integerLength p.r + integerLength p.s ≠ 58) :
    Decoded p p.der := by
  rw [decoded_iff]
  have hlength : p.der.length ≠ 64 := by
    rw [Scalars.der, length_encodePair]
    omega
  rw [parseEs256, if_neg hlength, readDer_der]
  simp only [bind, Except.bind, pad32_integerBytes p.r_pos p.r_lt,
    pad32_integerBytes p.s_pos p.s_lt]
  rfl

/-- One of 64 bytes is taken for two numbers of 32 bytes.  If the first half were `r`, then `r` would
fill it and the tag of `s` would stand in the second half, in front of `s`. -/
theorem not_decoded_der (p : Scalars) (h : integerLength p.r + integerLength p.s = 58) :
    ¬Decoded p p.der := by
  intro hdecoded
  have hserver := hdecoded.server
  have hlength : p.der.length = 64 := by
    rw [Scalars.der, length_encodePair, h]
  rw [parseEs256, if_pos hlength] at hserver
  injection hserver with hsignature
  injection hsignature with hr hs
  -- The first half begins with the tag of the sequence, which leaves `r` no room for a sign byte.
  have hfirst : slice p.der 0 32 = [0x30] ++ slice p.der 1 32 := rfl
  have hrest : (slice p.der 1 32).length = 31 := by
    rw [slice, List.length_take, List.length_drop, hlength]
    rfl
  have hrvalue : p.r = 0x30 * 256 ^ 31 + beNat (slice p.der 1 32) := by
    rw [← beNat_beBytes (p.r_lt.trans P256_N_lt), ← hr, hfirst, beNat_append, hrest]
    rfl
  have hrbound := hrest ▸ beNat_lt (slice p.der 1 32)
  have hlog : p.r.log2 = 253 := (Nat.log2_eq_iff (by omega)).mpr (by omega)
  have hrLength : integerLength p.r = 32 := by
    unfold integerLength
    rw [hlog]
  have hsLength : integerLength p.s = 26 := by omega
  -- The second half ends with the tag and the length of `s` and with `s`.
  have hbehind : p.der.drop 36 = [0x02, 0x1a] ++ integerBytes p.s := by
    have hdrop := drop_der p
    rw [hrLength, hsLength] at hdrop
    exact hdrop
  have hsecond : slice p.der 32 64 = (p.der.drop 32).take 4 ++ ([0x02, 0x1a] ++ integerBytes p.s) := by
    rw [← hbehind, slice, List.take_of_length_le (by rw [List.length_drop, hlength])]
    exact (List.take_append_drop 4 (p.der.drop 32)).symm.trans (by rw [List.drop_drop])
  have hsvalue : p.s = beNat ((p.der.drop 32).take 4) * 256 ^ 28 + (0x021a * 256 ^ 26 + p.s) := by
    have htail : ([0x02, 0x1a] ++ integerBytes p.s).length = 28 := by
      rw [List.length_append, length_integerBytes, hsLength]
      rfl
    have hvalue : beNat ([0x02, 0x1a] ++ integerBytes p.s) = 0x021a * 256 ^ 26 + p.s := by
      rw [beNat_append, length_integerBytes, hsLength, beNat_integerBytes]
      rfl
    rw [← hvalue, ← htail, ← beNat_append, ← hsecond, hs,
      beNat_beBytes (p.s_lt.trans P256_N_lt)]
  omega

/-- Both encodings of a signature are decoded right, by client and server alike, unless the integers
of the DER encoding take 58 bytes together. -/
theorem es256_decoded_iff (p : Scalars) :
    Decoded p p.raw ∧ Decoded p p.der ↔ integerLength p.r + integerLength p.s ≠ 58 := by
  rw [and_iff_right (decoded_raw p)]
  apply Iff.intro
  · intro hdecoded hsum
    exact not_decoded_der p hsum hdecoded
  · exact decoded_der p

-- Two integers of 29 bytes.
def shortScalars : Scalars := ⟨2 ^ 224, 2 ^ 224, by decide, by decide, by decide, by decide⟩

/-- The DER encoding of `shortScalars` is split in the middle. -/
theorem der_split_in_the_middle :
    parseEs256 shortScalars.der = .ok ⟨shortScalars.der.take 32, shortScalars.der.drop 32⟩ ∧
      ¬Decoded shortScalars shortScalars.der :=
  ⟨by decide +kernel, not_decoded_der shortScalars (by decide +kernel)⟩

end OnchainInvoice.WebAuthn
