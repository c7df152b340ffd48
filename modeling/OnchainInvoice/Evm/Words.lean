import Mathlib.Data.BitVec
import Mathlib.Tactic.Common
import Mathlib.Tactic.NormNum

/-!
# EVM words and their big-endian bytes

Every Solidity value type is a bit vector of its own width.  `wordBytes` is the 32-byte big-endian
form `abi.encode` writes, and `beNat` reads one back.
-/

namespace Evm

abbrev Uint8 := BitVec 8
abbrev Uint16 := BitVec 16
abbrev Uint64 := BitVec 64
abbrev Uint256 := BitVec 256
abbrev Bytes32 := BitVec 256
abbrev Address := BitVec 160
abbrev Bytes := List UInt8

-- `uint64(x)` keeps the low 64 bits.
def uint64 (x : Uint256) : Uint64 := x.setWidth 64

def addressWord (a : Address) : Uint256 := a.setWidth 256

-- `address(uint160(x))` keeps the low 160 bits.
def wordAddress (x : Uint256) : Address := x.setWidth 160

theorem wordAddress_addressWord (a : Address) : wordAddress (addressWord a) = a :=
  BitVec.setWidth_setWidth_of_le a (by decide)

def beNat (bytes : Bytes) : Nat :=
  bytes.foldl (fun acc b => acc * 256 + b.toNat) 0

-- The low `n` bytes of `v`, most significant first.
def beBytes : Nat → Nat → Bytes
  | 0, _ => []
  | n + 1, v => beBytes n (v / 256) ++ [UInt8.ofNat v]

@[simp] theorem length_beBytes (n v : Nat) : (beBytes n v).length = n := by
  induction n generalizing v with
  | zero => rfl
  | succ n ih => simp [beBytes, ih]

theorem beNat_concat (bytes : Bytes) (b : UInt8) :
    beNat (bytes ++ [b]) = beNat bytes * 256 + b.toNat := by
  simp [beNat, List.foldl_append]

/-- Big-endian round trip: decoding the low `n` bytes of a number that fits in them. -/
theorem beNat_beBytes {n v : Nat} (h : v < 256 ^ n) : beNat (beBytes n v) = v := by
  induction n generalizing v with
  | zero =>
    have hv : v = 0 := by simpa using h
    rw [hv]
    rfl
  | succ n ih =>
    have hdiv : v / 256 < 256 ^ n := Nat.div_lt_of_lt_mul (by rwa [pow_succ, mul_comm] at h)
    rw [beBytes, beNat_concat, ih hdiv, UInt8.toNat_ofNat']
    omega

/-- The 32 bytes of a word, as `abi.encode` writes them. -/
def wordBytes (x : Uint256) : Bytes := beBytes 32 x.toNat

def addressBytes (a : Address) : Bytes := beBytes 20 a.toNat

@[simp] theorem length_wordBytes (x : Uint256) : (wordBytes x).length = 32 :=
  length_beBytes 32 x.toNat

theorem beNat_wordBytes (x : Uint256) : beNat (wordBytes x) = x.toNat :=
  beNat_beBytes (by have := x.isLt; norm_num at this ⊢; exact this)

theorem wordBytes_injective : Function.Injective wordBytes := by
  intro x y h
  apply BitVec.eq_of_toNat_eq
  rw [← beNat_wordBytes x, ← beNat_wordBytes y, h]

@[simp] theorem length_addressBytes (a : Address) : (addressBytes a).length = 20 :=
  length_beBytes 20 a.toNat

theorem addressBytes_injective : Function.Injective addressBytes := by
  intro a b h
  have hround : ∀ x : Address, beNat (addressBytes x) = x.toNat := fun x =>
    beNat_beBytes (by have := x.isLt; norm_num at this ⊢; exact this)
  apply BitVec.eq_of_toNat_eq
  rw [← hround a, ← hround b, h]

/-- `abi.encode` of value types: one word each. -/
def encodeWords (words : List Uint256) : Bytes := words.flatMap wordBytes

@[simp] theorem length_encodeWords (words : List Uint256) :
    (encodeWords words).length = 32 * words.length := by
  induction words with
  | nil => rfl
  | cons w ws ih =>
    rw [encodeWords, List.flatMap_cons, List.length_append, length_wordBytes, ← encodeWords, ih,
      List.length_cons]
    omega

/-- Encodings of equally many words differ when the words do. -/
theorem encodeWords_injective {xs ys : List Uint256} (hlen : xs.length = ys.length)
    (h : encodeWords xs = encodeWords ys) : xs = ys := by
  induction xs generalizing ys with
  | nil => exact (List.length_eq_zero_iff.mp hlen.symm).symm
  | cons x xs ih =>
    obtain ⟨y, ys, rfl⟩ := List.exists_cons_of_length_eq_add_one hlen.symm
    simp only [encodeWords, List.flatMap_cons] at h
    obtain ⟨hxy, htail⟩ := List.append_inj h (by simp)
    rw [wordBytes_injective hxy, ih (by simpa using hlen) htail]

def utf8 (s : String) : Bytes := s.toUTF8.toList

end Evm
