import OnchainInvoice.Evm.Crypto
import OnchainInvoice.Lib.ByteTexts
import OnchainInvoice.Lib.Der

/-!
# Addresses as texts

The checksummed spelling of an address, whose capital letters carry a hash of its digits, and the
reader that takes an address in one case or with the right checksum.
-/

namespace Evm.Checksum

open Lib.ByteTexts (Text hex hexDigit hexValue)

variable {α : Type} (crypto : Crypto)

-- Whether each digit of the hash is 8 or more.
def highDigits (digits : Text) : List Bool :=
  (wordBytes (crypto.keccak256 (utf8 (String.ofList digits)))).flatMap fun b =>
    [decide (128 ≤ b.toNat), decide (8 ≤ b.toNat % 16)]

def capitalize (high : Bool) (c : Char) : Char := if high then c.toUpper else c

def checksum (digits : Text) : Text := List.zipWith capitalize (highDigits crypto digits) digits

def addressText (a : Address) : String :=
  String.ofList ('0' :: 'x' :: checksum crypto (hex (addressBytes a)))

def isHexDigit (c : Char) : Bool := (hexValue c).isSome

-- Letters of both cases.
def mixed (digits : Text) : Bool :=
  digits.any (fun c => decide ('a' ≤ c ∧ c ≤ 'f')) && digits.any fun c => decide ('A' ≤ c ∧ c ≤ 'F')

def digitsOf : Text → Text
  | '0' :: 'x' :: digits => digits
  | digits => digits

theorem digitsOf_prefixed (digits : Text) : digitsOf ('0' :: 'x' :: digits) = digits := rfl

-- `getAddress` of a hexadecimal address.
def getAddress (s : String) : Option String :=
  let digits := digitsOf s.toList
  if digits.length = 40 ∧ digits.all isHexDigit then
    let result := checksum crypto (digits.map Char.toLower)
    if mixed digits ∧ digits ≠ result then none else some (String.ofList ('0' :: 'x' :: result))
  else none

variable {crypto}

/-! ## Digits -/

@[simp] theorem length_highDigits (digits : Text) : (highDigits crypto digits).length = 64 := by
  unfold highDigits
  rw [List.length_flatMap]
  simp

theorem length_hex (bytes : Bytes) : (hex bytes).length = 2 * bytes.length := by
  induction bytes with
  | nil => rfl
  | cons b bytes ih =>
    show (_ :: _ :: hex bytes).length = _
    rw [List.length_cons, List.length_cons, ih, List.length_cons]
    omega

theorem length_hex_address (a : Address) : (hex (addressBytes a)).length = 40 := by
  rw [length_hex, length_addressBytes]

theorem length_checksum {digits : Text} (h : digits.length = 40) :
    (checksum crypto digits).length = 40 := by
  unfold checksum
  rw [List.length_zipWith, length_highDigits, h]
  rfl

theorem toLower_hexDigit {n : Nat} (h : n < 16) : (hexDigit n).toLower = hexDigit n := by
  have hall : ∀ n : Fin 16, (hexDigit n).toLower = hexDigit n := by decide
  exact hall ⟨n, h⟩

theorem toLower_capitalize_hexDigit (high : Bool) {n : Nat} (h : n < 16) :
    (capitalize high (hexDigit n)).toLower = hexDigit n := by
  have hall : ∀ high, ∀ n : Fin 16, (capitalize high (hexDigit n)).toLower = hexDigit n := by decide
  exact hall high ⟨n, h⟩

theorem hexValue_capitalize_hexDigit (high : Bool) {n : Nat} (h : n < 16) :
    hexValue (capitalize high (hexDigit n)) = some n := by
  have hall : ∀ high, ∀ n : Fin 16, hexValue (capitalize high (hexDigit n)) = some n.val := by
    decide
  exact hall high ⟨n, h⟩

-- The lower digit of the same value.
theorem toLower_of_isHexDigit {c : Char} (h : isHexDigit c = true) :
    ∃ n, n < 16 ∧ c.toLower = hexDigit n := by
  have hsmall : c.toNat < 128 := by
    by_contra hlarge
    have hnone : hexValue c = none := by
      have hle : ∀ d : Char, d.toNat < 128 → ¬ c ≤ d := fun d hd hcd => by
        have hnat : c.toNat ≤ d.toNat := UInt32.le_iff_toNat_le.mp hcd
        omega
      unfold hexValue
      rw [if_neg fun hcd => hle '9' (by decide) hcd.2, if_neg fun hcd => hle 'f' (by decide) hcd.2,
        if_neg fun hcd => hle 'F' (by decide) hcd.2]
    unfold isHexDigit at h
    rw [hnone] at h
    cases h
  have hall : ∀ n : Fin 128, isHexDigit (Char.ofNat n) = true →
      ∃ m : Fin 16, (Char.ofNat n).toLower = hexDigit m := by decide +kernel
  obtain ⟨m, hm⟩ := hall ⟨c.toNat, hsmall⟩ (by simpa using h)
  exact ⟨m, m.isLt, by simpa using hm⟩

theorem hex_of_digits {n : Nat} {digits : Text} (hlength : digits.length = 2 * n)
    (hall : digits.all isHexDigit = true) :
    ∃ bytes : Bytes, bytes.length = n ∧ digits.map Char.toLower = hex bytes := by
  induction n generalizing digits with
  | zero =>
    rw [List.length_eq_zero_iff.mp hlength]
    exact ⟨[], rfl, rfl⟩
  | succ n ih =>
    obtain ⟨c, tail, rfl⟩ := List.exists_cons_of_length_eq_add_one hlength
    have htail : tail.length = 2 * n + 1 := by
      rw [List.length_cons] at hlength
      omega
    obtain ⟨d, digits, rfl⟩ := List.exists_cons_of_length_eq_add_one htail
    simp only [List.all_cons, Bool.and_eq_true] at hall
    obtain ⟨high, hhigh, hc⟩ := toLower_of_isHexDigit hall.1
    obtain ⟨low, hlow, hd⟩ := toLower_of_isHexDigit hall.2.1
    obtain ⟨bytes, hbytes, hrest⟩ := ih (by simpa using htail) hall.2.2
    refine ⟨UInt8.ofNat (high * 16 + low) :: bytes, by rw [List.length_cons, hbytes], ?_⟩
    have hvalue : (UInt8.ofNat (high * 16 + low)).toNat = high * 16 + low := by
      rw [UInt8.toNat_ofNat']
      omega
    show c.toLower :: d.toLower :: digits.map Char.toLower = hexDigit _ :: hexDigit _ :: hex bytes
    rw [hvalue, hc, hd, hrest, show (high * 16 + low) / 16 = high by omega,
      show (high * 16 + low) % 16 = low by omega]

/-! ## The checksum only changes the case -/

theorem mem_hex {bytes : Bytes} {c : Char} (h : c ∈ hex bytes) : ∃ n, n < 16 ∧ c = hexDigit n := by
  obtain ⟨b, -, hc⟩ := List.mem_flatMap.mp h
  have hb := b.toNat_lt
  rcases List.mem_pair.mp hc with heq | heq
  · exact ⟨b.toNat / 16, by omega, heq⟩
  · exact ⟨b.toNat % 16, by omega, heq⟩

theorem map_zipWith_capitalize {f : Char → α} {digits : Text} {highs : List Bool}
    (hlength : digits.length ≤ highs.length)
    (hsame : ∀ c ∈ digits, ∀ high, f (capitalize high c) = f c) :
    (List.zipWith capitalize highs digits).map f = digits.map f := by
  induction digits generalizing highs with
  | nil => rw [List.zipWith_nil_right]
  | cons c digits ih =>
    cases highs with
    | nil => cases hlength
    | cons high highs =>
      rw [List.zipWith_cons_cons, List.map_cons, List.map_cons, hsame c (List.mem_cons_self ..),
        ih (by simpa using hlength) fun d hd => hsame d (List.mem_cons_of_mem c hd)]

theorem map_checksum {f : Char → α} {a : Address}
    (hsame : ∀ n < 16, ∀ high, f (capitalize high (hexDigit n)) = f (hexDigit n)) :
    (checksum crypto (hex (addressBytes a))).map f = (hex (addressBytes a)).map f := by
  apply map_zipWith_capitalize
  · rw [length_highDigits, length_hex_address]
    decide
  · intro c hc high
    obtain ⟨n, hn, rfl⟩ := mem_hex hc
    exact hsame n hn high

theorem toLower_checksum (a : Address) :
    (checksum crypto (hex (addressBytes a))).map Char.toLower = hex (addressBytes a) := by
  rw [map_checksum fun n hn high => by
    rw [toLower_capitalize_hexDigit high hn, toLower_hexDigit hn]]
  have hsame : ∀ c ∈ hex (addressBytes a), c.toLower = id c := by
    intro c hc
    obtain ⟨n, hn, rfl⟩ := mem_hex hc
    exact toLower_hexDigit hn
  rw [List.map_congr_left hsame, List.map_id]

/-! ## Reading addresses -/

theorem addressBytes_ofNat {bytes : Bytes} (h : bytes.length = 20) :
    addressBytes (BitVec.ofNat 160 (beNat bytes)) = bytes := by
  have hlt : beNat bytes < 2 ^ 160 := by
    have hlt := Lib.Der.beNat_lt bytes
    rw [h] at hlt
    norm_num at hlt ⊢
    exact hlt
  unfold addressBytes
  rw [BitVec.toNat_ofNat, Nat.mod_eq_of_lt hlt, ← h, Lib.Der.beBytes_beNat]

/-- What is read is the spelling of an address. -/
theorem getAddress_eq_some {s t : String} (h : getAddress crypto s = some t) :
    ∃ a, t = addressText crypto a := by
  unfold getAddress at h
  dsimp only at h
  split at h
  · next hdigits =>
    obtain ⟨bytes, hlength, hlower⟩ := hex_of_digits (n := 20) hdigits.1 hdigits.2
    split at h
    · simp at h
    · rw [← Option.some.inj h, hlower]
      refine ⟨BitVec.ofNat 160 (beNat bytes), ?_⟩
      unfold addressText
      rw [addressBytes_ofNat hlength]
  · simp at h

theorem isHexDigit_checksum (a : Address) :
    (checksum crypto (hex (addressBytes a))).all isHexDigit = true := by
  have hvalues : (checksum crypto (hex (addressBytes a))).map isHexDigit =
      (hex (addressBytes a)).map isHexDigit := by
    apply map_checksum
    intro n hn high
    unfold isHexDigit
    rw [hexValue_capitalize_hexDigit high hn, Lib.ByteTexts.hexValue_hexDigit hn]
  have hall : ∀ b ∈ (checksum crypto (hex (addressBytes a))).map isHexDigit, b = true := by
    rw [hvalues]
    intro b hb
    obtain ⟨c, hc, rfl⟩ := List.mem_map.mp hb
    obtain ⟨n, hn, rfl⟩ := mem_hex hc
    unfold isHexDigit
    rw [Lib.ByteTexts.hexValue_hexDigit hn]
    rfl
  rw [List.all_eq_true]
  exact fun c hc => hall _ (List.mem_map_of_mem hc)

theorem getAddress_of_digits {s : String} {digits : Text} (hdigits : digitsOf s.toList = digits)
    (hlength : digits.length = 40) (hall : digits.all isHexDigit = true)
    (hsum : checksum crypto (digits.map Char.toLower) = digits) :
    getAddress crypto s = some (String.ofList ('0' :: 'x' :: digits)) := by
  have hgood : ¬ (mixed digits = true ∧ digits ≠ digits) := fun h => h.2 rfl
  unfold getAddress
  rw [hdigits]
  dsimp only
  rw [if_pos ⟨hlength, hall⟩, hsum, if_neg hgood]

theorem getAddress_addressText (a : Address) :
    getAddress crypto (addressText crypto a) = some (addressText crypto a) := by
  have hdigits : digitsOf (addressText crypto a).toList =
      checksum crypto (hex (addressBytes a)) := by
    rw [addressText, String.toList_ofList, digitsOf_prefixed]
  exact getAddress_of_digits hdigits (length_checksum (length_hex_address a))
    (isHexDigit_checksum a) (by rw [toLower_checksum])

end Evm.Checksum
