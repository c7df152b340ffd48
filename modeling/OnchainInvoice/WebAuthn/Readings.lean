import OnchainInvoice.WebAuthn.VerifyAssertion
import OnchainInvoice.WebAuthn.Spellings

/-!
# What is read of an assertion

How the server's readers and the encoder's compare, how long what they read can be, and that the
contract decodes what the encoder writes.
-/

namespace OnchainInvoice.WebAuthnVerify

open Lib.ByteTexts (Text hexValue hexDigit hex decode encode octets sextet)
open Lib.Json (Value)
open Lib.Utf8 Lib.Revert WebAuthn
open WebAuthnSignature (WebAuthnAssertionJson WebAuthnAssertionParts startsWith0x standardBase64
  word readHex getBytes encodeAuth encodeWebAuthnParts encodeWebAuthnSignatureFromJson
  decodeClientData decodeToBytes textDecoder digitUnits EncodeError)
open Evm hiding utf8

variable {assertion : WebAuthnAssertionJson} {t : Text} {bytes : Bytes} {c : Char}

/-! ## Hexadecimal texts -/

theorem bufferFromHex_of_readHex (h : readHex t = some bytes) : bufferFromHex t = bytes := by
  induction t using WebAuthnSignature.readHex.induct generalizing bytes with
  | case1 =>
    cases h
    rfl
  | case2 => cases h
  | case3 c d t high low rest hrest hlow hhigh ih =>
    unfold readHex at h
    rw [hhigh, hlow, hrest] at h
    cases h
    unfold bufferFromHex
    rw [hhigh, hlow, ih hrest]
  | case4 c d t hnone ih =>
    unfold readHex at h
    split at h
    · next high low bytes hhigh hlow hrest =>
      exact absurd (hnone high low bytes hhigh hlow hrest) id
    · cases h

theorem readHex_hex (bytes : Bytes) : readHex (hex bytes) = some bytes := by
  induction bytes with
  | nil => rfl
  | cons a bytes ih =>
    have ha := a.toNat_lt
    have hsplit : hex (a :: bytes) =
        hexDigit (a.toNat / 16) :: hexDigit (a.toNat % 16) :: hex bytes := rfl
    have hbyte : UInt8.ofNat (a.toNat / 16 * 16 + a.toNat % 16) = a :=
      Lib.ByteTexts.ofNat_eq (by omega)
    rw [hsplit]
    unfold readHex
    rw [Lib.ByteTexts.hexValue_hexDigit (by omega), Lib.ByteTexts.hexValue_hexDigit (by omega), ih]
    dsimp only
    rw [hbyte]

theorem hexValue_toLower (c : Char) : hexValue c.toLower = hexValue c := by
  by_cases hc : c.toNat < 128
  · have hall : ∀ n : Fin 128, hexValue (Char.ofNat n).toLower = hexValue (Char.ofNat n) := by
      decide
    simpa using hall ⟨c.toNat, hc⟩
  · have hsame : c.toLower = c := by
      unfold Char.toLower
      rw [dif_neg]
      intro hupper
      have := UInt32.le_iff_toNat_le.mp hupper.2
      exact hc (Nat.lt_of_le_of_lt this (by decide))
    rw [hsame]

theorem readHex_toLower (t : Text) : readHex (t.map Char.toLower) = readHex t := by
  induction t using WebAuthnSignature.readHex.induct with
  | case1 => rfl
  | case2 => rfl
  | case3 c d t _ _ _ _ _ _ ih | case4 c d t _ ih =>
    rw [List.map_cons, List.map_cons]
    unfold readHex
    rw [hexValue_toLower, hexValue_toLower, ih]

/-! ## What both read -/

-- The bytes that the server checks the signature over.
def authenticatorBytes (assertion : WebAuthnAssertionJson) : Bytes :=
  bufferFromHex (strip0x (decodeToHex assertion.authenticatorData))

-- A text in hexadecimal is one to its end.
def HexText (value : Text) : Prop :=
  startsWith0x value = true → (readHex (value.drop 2)).isSome = true

theorem startsWith0x_iff {value : Text} :
    startsWith0x value = true ↔ ∃ rest, value = '0' :: 'x' :: rest := by
  unfold startsWith0x
  rw [List.isPrefixOf_iff_prefix]
  apply Iff.intro
  · rintro ⟨rest, rfl⟩
    exact ⟨rest, rfl⟩
  · rintro ⟨rest, rfl⟩
    exact ⟨rest, rfl⟩

/-- Both read the same bytes, if the text is one in hexadecimal; else the encoder throws. -/
theorem getBytes_decodeToHex (value : Text) : getBytes (WebAuthnSignature.decodeToHex value) =
    if startsWith0x value && (readHex (value.drop 2)).isNone then none
    else some (bufferFromHex (strip0x (decodeToHex value))) := by
  unfold WebAuthnSignature.decodeToHex decodeToHex
  by_cases hstart : startsWith0x value = true
  · obtain ⟨rest, rfl⟩ := startsWith0x_iff.mp hstart
    have hlower : ('0' :: 'x' :: rest).map Char.toLower = '0' :: 'x' :: rest.map Char.toLower := rfl
    rw [if_pos hstart, if_pos hstart, hstart, hlower]
    show readHex (rest.map Char.toLower) = if (readHex rest).isNone then none
      else some (bufferFromHex (rest.map Char.toLower))
    rw [readHex_toLower]
    cases hread : readHex rest with
    | none => rfl
    | some bytes =>
      rw [bufferFromHex_of_readHex ((readHex_toLower rest).trans hread)]
      rfl
  · rw [if_neg hstart, if_neg hstart, Bool.eq_false_iff.mpr hstart]
    have hbytes : decodeToBytes value = decodeToBuffer value := by
      unfold decodeToBytes decodeToBuffer
      rw [if_neg hstart, if_neg hstart]
    rw [hbytes]
    show readHex (hex (decodeToBuffer value)) = some (bufferFromHex (hex (decodeToBuffer value)))
    rw [bufferFromHex_of_readHex (readHex_hex _), readHex_hex]

/-! ## Signatures -/

theorem length_pad32 {out : Bytes} (h : pad32 bytes = .ok out) : out.length = 32 := by
  unfold pad32 at h
  simp only [pure, Except.pure] at h
  split at h
  · next hlength =>
    cases h
    exact hlength
  · split at h
    · next hlength =>
      cases h
      rw [List.length_drop]
      omega
    · obtain ⟨_, hle, heq⟩ := bind_eq_ok.mp h
      rw [revertIf_eq_ok, decide_eq_false_iff_not] at hle
      cases heq
      rw [List.length_append, List.length_replicate]
      omega

theorem length_parseEs256 {es : Es256} (h : parseEs256 bytes = .ok es) :
    es.r.length = 32 ∧ es.s.length = 32 := by
  unfold parseEs256 at h
  split at h
  · next hlength =>
    cases h
    unfold slice
    simp only [List.length_take, List.length_drop]
    omega
  · obtain ⟨der, -, hrest⟩ := bind_eq_ok.mp h
    obtain ⟨r, hr, hrest⟩ := bind_eq_ok.mp hrest
    obtain ⟨s, hs, heq⟩ := bind_eq_ok.mp hrest
    cases heq
    exact ⟨length_pad32 hr, length_pad32 hs⟩

theorem beBytes_of_beNat {k : Nat} (hlength : bytes.length = 32) (h : beNat bytes = k) :
    bytes = beBytes 32 k := by
  rw [← h, ← hlength, Lib.Der.beBytes_beNat]

theorem toNat_word (hlength : bytes.length = 32) : (word bytes).toNat = beNat bytes := by
  unfold word
  have hlt := Lib.Der.beNat_lt bytes
  rw [hlength] at hlt
  rw [BitVec.toNat_ofNat, Nat.mod_eq_of_lt (hlt.trans_eq (by decide))]

theorem length_parseEs256Signature {es : Es256} (h : parseEs256Signature bytes = .ok es) :
    es.r.length = 32 ∧ es.s.length = 32 := by
  rw [parseEs256Signature_eq] at h
  obtain ⟨read, hread, heq⟩ := map_eq_ok.mp h
  obtain ⟨hr, hs⟩ := length_parseEs256 hread
  rw [← heq]
  unfold normalizeP256Signature
  split
  · exact ⟨hr, hs⟩
  · exact ⟨hr, length_beBytes ..⟩

theorem low_le (n : Scalars) : n.low ≤ P256_HALF_N := by
  have hhalf : P256_N = 2 * P256_HALF_N + 1 := by decide
  unfold Scalars.low
  omega

/-- The one of `s` and `n - s` that the contract takes. -/
theorem eq_low {n : Scalars} {k : Nat} (h : k = n.s ∨ k + n.s = P256_N) (hlow : k ≤ P256_HALF_N) :
    k = n.low := by
  have hhalf : P256_N = 2 * P256_HALF_N + 1 := by decide
  unfold Scalars.low
  omega

/-! ## Sizes -/

theorem length_octets_le (l : List Nat) : (octets l).length ≤ l.length := by
  induction l using Lib.ByteTexts.octets.induct with
  | case1 x y z w rest ih =>
    simp only [octets, List.length_cons]
    omega
  | case2 | case3 => simp [octets]
  | case4 l h1 h2 h3 => simp [octets]

theorem length_decode_le (t : Text) : (decode t).length ≤ t.length := by
  unfold decode
  have hread := length_octets_le ((t.takeWhile (· ≠ '=')).filterMap sextet)
  have hfilter := List.length_filterMap_le sextet (t.takeWhile (· ≠ '='))
  have htake := (List.takeWhile_sublist (fun c => decide (c ≠ '=')) (l := t)).length_le
  omega

theorem length_standardBase64_le (t : Text) : (standardBase64 t).length ≤ t.length + 4 := by
  unfold standardBase64
  dsimp only
  rw [List.length_append, List.length_map]
  split
  · exact Nat.le_add_right ..
  · rw [List.length_replicate]
    omega

theorem length_digitUnits_le (t : Text) : (digitUnits t).length ≤ 2 * t.length := by
  induction t with
  | nil => exact Nat.le_refl 0
  | cons c t ih =>
    unfold digitUnits at ih ⊢
    rw [List.flatMap_cons, List.length_append, List.length_cons]
    by_cases hc : c.toNat < 0x10000
    · rw [if_pos hc, List.length_singleton]
      omega
    · rw [if_neg hc, List.length_cons, List.length_singleton]
      omega

theorem length_decodeToBytes_le (t : Text) : (decodeToBytes t).length ≤ t.length + 4 := by
  unfold decodeToBytes
  split
  · rw [length_hexToBytes]
    have := length_digitUnits_le (t.drop 2)
    rw [List.length_drop] at this
    omega
  · exact (length_decode_le _).trans (length_standardBase64_le t)

theorem length_decodeClientData_le (t : Text) : (decodeClientData t).length ≤ t.length + 4 := by
  unfold decodeClientData
  dsimp only
  split
  · unfold Persist.trim
    have hfront := (List.dropWhile_sublist Lib.Casing.isWhite (l := t)).length_le
    have hback := (List.rdropWhile_prefix Lib.Casing.isWhite
      (l := t.dropWhile Lib.Casing.isWhite)).length_le
    omega
  · have hread := length_decodeUtf8 (decodeToBytes t)
    have hbytes := length_decodeToBytes_le t
    unfold textDecoder
    split
    · next c rest heq =>
      rw [heq, List.length_cons] at hread
      split
      · omega
      · rw [List.length_cons]
        omega
    · exact Nat.zero_le _

theorem length_bufferFromHex_le (t : Text) : (bufferFromHex t).length ≤ t.length := by
  induction t using bufferFromHex.induct with
  | case1 c d t high low hlow hhigh ih =>
    unfold bufferFromHex
    rw [hhigh, hlow, List.length_cons, List.length_cons, List.length_cons]
    omega
  | case2 c d t hnone =>
    unfold bufferFromHex
    split
    · next high low hhigh hlow => exact absurd (hnone high low hhigh hlow) id
    · exact Nat.zero_le _
  | case3 t hshort =>
    unfold bufferFromHex
    split
    · next c d t => exact absurd rfl (hshort c d t)
    · exact Nat.zero_le _

/-! ## The encoding is read back -/

theorem length_encodeBytes_le (bytes : Bytes) :
    (Abi.encodeBytes bytes).length ≤ bytes.length + 64 := by
  unfold Abi.encodeBytes
  rw [List.length_append, List.length_append, length_wordBytes, List.length_replicate]
  omega

theorem decode_encodeAuth {auth : WebAuthnAuth} (hdata : auth.authenticatorData.length < 2 ^ 60)
    (hclient : auth.clientDataJSON.length < 2 ^ 60) :
    decodeWebAuthnAuth (encodeAuth auth) = some auth := by
  have hlength := length_encodeBytes_le auth.authenticatorData
  obtain ⟨data, heq⟩ : ∃ data, data = encodeAuth auth := ⟨_, rfl⟩
  rw [← heq]
  have hall : Abi.Holds data 0 (encodeAuth auth) := heq ▸ List.prefix_refl _
  unfold encodeAuth encodeWords at hall
  simp only [List.flatMap_cons, List.flatMap_nil, List.append_nil, Abi.Holds.append,
    List.length_append, length_wordBytes] at hall
  obtain ⟨⟨hr, hs, hci, hti, hfirst, hsecond⟩, hauth, hjson⟩ := hall
  have hs : Abi.wordAt data 32 = some auth.s := Abi.wordAt_of_holds hs
  have hci : Abi.wordAt data 64 = some auth.challengeIndex := Abi.wordAt_of_holds hci
  have hti : Abi.wordAt data 96 = some auth.typeIndex := Abi.wordAt_of_holds hti
  have hauth : Abi.dynamicAt Abi.bytesAt data 0 128 = some auth.authenticatorData :=
    Abi.dynamicAt_of_holds (by omega) hfirst (Abi.bytesAt_of_holds (by omega) hauth)
  have hjson : Abi.dynamicAt Abi.bytesAt data 0 160 = some auth.clientDataJSON := by
    apply Abi.dynamicAt_of_holds (by omega) hsecond
    rw [← Nat.add_assoc]
    exact Abi.bytesAt_of_holds (by omega) hjson
  unfold decodeWebAuthnAuth
  rw [Abi.wordAt_of_holds hr, hs, hci, hti, hauth, hjson]
  rfl

end OnchainInvoice.WebAuthnVerify
