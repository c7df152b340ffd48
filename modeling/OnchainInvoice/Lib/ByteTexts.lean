import Mathlib.Data.List.Basic
import Mathlib.Tactic.Common

/-!
# Texts for bytes

Base64 in both alphabets and hexadecimal.  A base64 reader takes either alphabet and stops at the
padding.
-/

namespace Lib.ByteTexts

abbrev Bytes := List UInt8
abbrev Text := List Char

/-! ## Groups of six bits -/

-- Three bytes make four groups; the last group is filled up with zeros.
def sextets : Bytes → List Nat
  | [] => []
  | [a] => [a.toNat / 4, a.toNat % 4 * 16]
  | [a, b] => [a.toNat / 4, a.toNat % 4 * 16 + b.toNat / 16, b.toNat % 16 * 4]
  | a :: b :: c :: bytes =>
    a.toNat / 4 :: (a.toNat % 4 * 16 + b.toNat / 16) :: (b.toNat % 16 * 4 + c.toNat / 64) ::
      c.toNat % 64 :: sextets bytes

def octets : List Nat → Bytes
  | x :: y :: z :: w :: rest =>
    UInt8.ofNat (x * 4 + y / 16) :: UInt8.ofNat (y % 16 * 16 + z / 4) ::
      UInt8.ofNat (z % 4 * 64 + w) :: octets rest
  | [x, y, z] => [UInt8.ofNat (x * 4 + y / 16), UInt8.ofNat (y % 16 * 16 + z / 4)]
  | [x, y] => [UInt8.ofNat (x * 4 + y / 16)]
  | _ => []

theorem ofNat_eq {n : Nat} {a : UInt8} (h : n = a.toNat) : UInt8.ofNat n = a := by
  rw [h, UInt8.ofNat_toNat]

theorem octets_sextets (bytes : Bytes) : octets (sextets bytes) = bytes := by
  induction bytes using sextets.induct with
  | case1 => rfl
  | case2 a =>
    have ha := a.toNat_lt
    simp only [sextets, octets]
    rw [show UInt8.ofNat _ = a from ofNat_eq (by omega)]
  | case3 a b =>
    have ha := a.toNat_lt
    have hb := b.toNat_lt
    simp only [sextets, octets]
    rw [show UInt8.ofNat _ = a from ofNat_eq (by omega), show UInt8.ofNat _ = b from ofNat_eq (by omega)]
  | case4 a b c bytes ih =>
    have ha := a.toNat_lt
    have hb := b.toNat_lt
    have hc := c.toNat_lt
    simp only [sextets, octets]
    rw [ih, show UInt8.ofNat _ = a from ofNat_eq (by omega), show UInt8.ofNat _ = b from ofNat_eq (by omega),
      show UInt8.ofNat _ = c from ofNat_eq (by omega)]

theorem lt_of_mem_sextets {bytes : Bytes} : ∀ n ∈ sextets bytes, n < 64 := by
  induction bytes using sextets.induct with
  | case1 => simp [sextets]
  | case2 a =>
    have ha := a.toNat_lt
    simp only [sextets, List.forall_mem_cons]
    exact ⟨by omega, by omega, by simp⟩
  | case3 a b =>
    have ha := a.toNat_lt
    have hb := b.toNat_lt
    simp only [sextets, List.forall_mem_cons]
    exact ⟨by omega, by omega, by omega, by simp⟩
  | case4 a b c bytes ih =>
    have ha := a.toNat_lt
    have hb := b.toNat_lt
    have hc := c.toNat_lt
    simp only [sextets, List.forall_mem_cons]
    exact ⟨by omega, by omega, by omega, by omega, ih⟩

theorem length_sextets (bytes : Bytes) : (sextets bytes).length = (4 * bytes.length + 2) / 3 := by
  induction bytes using sextets.induct with
  | case1 => rfl
  | case2 a => simp [sextets]
  | case3 a b => simp [sextets]
  | case4 a b c bytes ih =>
    simp only [sextets, List.length_cons, ih]
    omega

/-! ## Base64 -/

def digit (url : Bool) (n : Nat) : Char :=
  if n < 26 then Char.ofNat (n + 65)
  else if n < 52 then Char.ofNat (n + 71)
  else if n < 62 then Char.ofNat (n - 4)
  else if n = 62 then if url then '-' else '+'
  else if url then '_' else '/'

-- Either alphabet is read.
def sextet (c : Char) : Option Nat :=
  if 'A' ≤ c ∧ c ≤ 'Z' then some (c.toNat - 65)
  else if 'a' ≤ c ∧ c ≤ 'z' then some (c.toNat - 71)
  else if '0' ≤ c ∧ c ≤ '9' then some (c.toNat + 4)
  else if c = '+' ∨ c = '-' then some 62
  else if c = '/' ∨ c = '_' then some 63
  else none

def encode (url : Bool) (bytes : Bytes) : Text := (sextets bytes).map (digit url)

def padding (bytes : Bytes) : Text := List.replicate ((3 - bytes.length % 3) % 3) '='

def decode (t : Text) : Bytes := octets ((t.takeWhile (· ≠ '=')).filterMap sextet)

theorem sextet_digit (url : Bool) {n : Nat} (h : n < 64) : sextet (digit url n) = some n := by
  have hall : ∀ url : Bool, ∀ n : Fin 64, sextet (digit url n) = some n.val := by decide
  exact hall url ⟨n, h⟩

theorem digit_ne {url : Bool} {n : Nat} (h : n < 64) : digit url n ≠ '=' := by
  intro heq
  have hread := sextet_digit url h
  rw [heq] at hread
  cases hread

/-- The padding may be left out. -/
theorem decode_encode (url : Bool) (bytes : Bytes) (k : Nat) :
    decode (encode url bytes ++ List.replicate k '=') = bytes := by
  have hlt : ∀ n ∈ sextets bytes, n < 64 := lt_of_mem_sextets
  have htake : (encode url bytes ++ List.replicate k '=').takeWhile (· ≠ '=') = encode url bytes := by
    rw [List.takeWhile_append_of_pos]
    · cases k with
      | zero => simp
      | succ k => simp [List.replicate_succ]
    · intro c hc
      rcases List.mem_map.mp hc with ⟨n, hn, rfl⟩
      exact decide_eq_true (digit_ne (hlt n hn))
  have hread : (encode url bytes).filterMap sextet = sextets bytes := by
    unfold encode
    rw [List.filterMap_map]
    conv_rhs => rw [← List.filterMap_some (l := sextets bytes)]
    exact List.filterMap_congr fun n hn => sextet_digit url (hlt n hn)
  rw [decode, htake, hread, octets_sextets]

/-! ## Hexadecimal -/

def hexDigit (n : Nat) : Char := if n < 10 then Char.ofNat (n + 48) else Char.ofNat (n + 87)

def hexValue (c : Char) : Option Nat :=
  if '0' ≤ c ∧ c ≤ '9' then some (c.toNat - 48)
  else if 'a' ≤ c ∧ c ≤ 'f' then some (c.toNat - 87)
  else if 'A' ≤ c ∧ c ≤ 'F' then some (c.toNat - 55)
  else none

-- Two digits of either case for every byte.
inductive Hex : Bytes → Text → Prop
  | nil : Hex [] []
  | cons {a : UInt8} {c d : Char} {bytes : Bytes} {t : Text}
      (high : hexValue c = some (a.toNat / 16)) (low : hexValue d = some (a.toNat % 16))
      (rest : Hex bytes t) : Hex (a :: bytes) (c :: d :: t)

def hex (bytes : Bytes) : Text :=
  bytes.flatMap fun a => [hexDigit (a.toNat / 16), hexDigit (a.toNat % 16)]

theorem hexValue_hexDigit {n : Nat} (h : n < 16) : hexValue (hexDigit n) = some n := by
  have hall : ∀ n : Fin 16, hexValue (hexDigit n) = some n.val := by decide
  exact hall ⟨n, h⟩

theorem hex_hex (bytes : Bytes) : Hex bytes (hex bytes) := by
  induction bytes with
  | nil => exact .nil
  | cons a bytes ih =>
    have ha := a.toNat_lt
    exact .cons (hexValue_hexDigit (by omega)) (hexValue_hexDigit (by omega)) ih

end Lib.ByteTexts
