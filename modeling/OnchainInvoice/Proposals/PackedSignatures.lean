import OnchainInvoice.Proposals.ProposalRoutes
import OnchainInvoice.Signing.Recovering
import OnchainInvoice.Wallet.Acceptance

/-!
# Packed signatures

The coder of `advanced-wallet.ts`.  A stored signature may have been packed by the client, up to
three times over, and what is under the packings is what the server packs for the wallet.
-/

namespace OnchainInvoice.Proposals

open Evm Server
open AdvancedWalletTypes (EntitySig)
open AdvancedWalletMixin (encodeEntitySig encodeEntitySigs)
open IdentityRoutes (bytes32 hex32 bytes32_hex32)
open Lib.ByteTexts (hex hexDigit hexValue hexValue_hexDigit Text)
open Signing (hexlify getBytes_hexlify lower_hexText lowerCase_of_bytes32)
open WebAuthnSignature (getBytes)

/-! ## The coder -/

-- The reader of `ethers` wants the padding of a byte string too.
def paddedBytesAt (data : Bytes) (pos : Nat) : Option Bytes := do
  let bytes ← Abi.bytesAt data pos
  if pos + 32 + (bytes.length + 31) / 32 * 32 ≤ data.length then some bytes else none

def partAt (data : Bytes) (pos : Nat) : Option EntitySig := do
  let keyId ← Abi.wordAt data pos
  let sig ← Abi.dynamicAt paddedBytesAt data pos (pos + 32)
  return ⟨keyId, sig⟩

def decodeParts (encoded : Bytes) : Option (List EntitySig) :=
  Abi.dynamicAt (Abi.arrayAt partAt) encoded 0 0

def encodeAdvancedSignature (sigs : List (String × String)) : Option String := do
  let entries ← sigs.mapM fun part => do
    return EntitySig.mk (← bytes32 part.1) (← getBytes part.2.toList)
  return ADVANCED_SIG_MAGIC ++ String.ofList (hex (encodeEntitySigs entries))

def decodeAdvancedSignature (data : String) : Option (List (String × String)) :=
  if startsWith data ADVANCED_SIG_MAGIC then do
    let encoded ← getBytes ('0' :: 'x' :: data.toList.drop 10)
    let parts ← decodeParts encoded
    return parts.map fun part => (hex32 part.keyId, hexlify part.sig)
  else none

-- The routes with this coder.
def Ethers.advanced (ethers : Ethers) : Ethers :=
  { ethers with
    encodeSignatures := encodeAdvancedSignature
    decodeAdvancedSignature := Proposals.decodeAdvancedSignature }

abbrev MAGIC : Bytes := AdvancedWalletTypes.ADVANCED_SIG_MAGIC

def pack (entries : List EntitySig) : Bytes := MAGIC ++ encodeEntitySigs entries

/-! ## Texts of packed signatures -/

theorem hex_append (a b : Bytes) : hex (a ++ b) = hex a ++ hex b := by
  unfold hex
  rw [List.flatMap_append]

theorem magic_text (bytes : Bytes) :
    ADVANCED_SIG_MAGIC ++ String.ofList (hex bytes) = hexlify (MAGIC ++ bytes) := by
  apply String.toList_injective
  unfold hexlify
  rw [String.toList_append, String.toList_ofList, String.toList_ofList, hex_append]
  rfl

theorem hexDigit_inj {m n : Nat} (hm : m < 16) (hn : n < 16) (h : hexDigit m = hexDigit n) :
    m = n := by
  have hvalue := congrArg hexValue h
  rw [hexValue_hexDigit hm, hexValue_hexDigit hn] at hvalue
  exact Option.some.inj hvalue

theorem prefix_of_hex {a b : Bytes} (h : hex a <+: hex b) : a <+: b := by
  induction a generalizing b with
  | nil => exact List.nil_prefix
  | cons x a ih =>
    cases b with
    | nil => exact absurd (List.prefix_nil.mp h) (by simp [hex])
    | cons y b =>
      have hdigits : hexDigit (x.toNat / 16) :: hexDigit (x.toNat % 16) :: hex a <+:
          hexDigit (y.toNat / 16) :: hexDigit (y.toNat % 16) :: hex b := h
      rw [List.cons_prefix_cons, List.cons_prefix_cons] at hdigits
      obtain ⟨hhigh, hlow, hrest⟩ := hdigits
      have hx := x.toNat_lt
      have hy := y.toNat_lt
      have h1 := hexDigit_inj (by omega) (by omega) hhigh
      have h2 := hexDigit_inj (by omega) (by omega) hlow
      have hxy : x = y := UInt8.toNat_inj.mp (by omega)
      rw [hxy, List.cons_prefix_cons]
      exact ⟨rfl, ih hrest⟩

/-- A text starts with the magic just when its bytes do. -/
theorem startsWith_hexlify (bytes : Bytes) :
    startsWith (hexlify bytes) ADVANCED_SIG_MAGIC = true ↔ bytes.take 4 = MAGIC := by
  unfold startsWith hexlify
  rw [String.toList_ofList, List.isPrefixOf_iff_prefix]
  have hmagic : ADVANCED_SIG_MAGIC.toList = '0' :: 'x' :: hex MAGIC := by decide
  rw [hmagic, List.cons_prefix_cons, List.cons_prefix_cons]
  apply Iff.intro
  · intro h
    exact (List.prefix_iff_eq_take.mp (prefix_of_hex h.2.2)).symm
  · intro h
    have hsplit : hex bytes = hex MAGIC ++ hex (bytes.drop 4) := by
      rw [← h, ← hex_append, List.take_append_drop]
    rw [hsplit]
    exact ⟨rfl, rfl, List.prefix_append ..⟩

theorem lowerCase_of_getBytes {text : String} {bytes : Bytes}
    (h : getBytes text.toList = some bytes) : lowerCase text = hexlify bytes := by
  unfold getBytes at h
  split at h
  · next hprefix =>
    obtain ⟨digits, htext⟩ := WebAuthnVerify.startsWith0x_iff.mp hprefix
    have hread : WebAuthnSignature.readHex digits = some bytes := by rwa [htext] at h
    unfold lowerCase hexlify
    rw [htext, lower_hexText hread]
  · cases h

/-! ## Decoding what is encoded -/

theorem length_encodeBytes (bytes : Bytes) :
    (Abi.encodeBytes bytes).length = 32 + (bytes.length + 31) / 32 * 32 := by
  unfold Abi.encodeBytes
  rw [List.length_append, List.length_append, length_wordBytes, List.length_replicate]
  omega

theorem paddedBytesAt_of_holds {data bytes : Bytes} {pos : Nat} (hlen : bytes.length < 2 ^ 64)
    (h : Abi.Holds data pos (Abi.encodeBytes bytes)) : paddedBytesAt data pos = some bytes := by
  have hle := h.length_le
  rw [length_encodeBytes] at hle
  unfold paddedBytesAt
  rw [Abi.bytesAt_of_holds hlen h]
  exact if_pos (by omega)

theorem partAt_of_holds {data : Bytes} {pos : Nat} {entry : EntitySig}
    (hlen : entry.sig.length < 2 ^ 64) (h : Abi.Holds data pos (encodeEntitySig entry)) :
    partAt data pos = some entry := by
  unfold encodeEntitySig at h
  rw [Abi.Holds.append, Abi.Holds.append, List.length_append, length_wordBytes,
    length_wordBytes] at h
  obtain ⟨⟨hkey, hoffset⟩, hsig⟩ := h
  have hbytes := paddedBytesAt_of_holds hlen hsig
  unfold partAt
  rw [Abi.wordAt_of_holds hkey, Abi.dynamicAt_of_holds (by decide) hoffset hbytes]
  rfl

theorem length_sig_le {entries : List EntitySig} {entry : EntitySig} (hentry : entry ∈ entries) :
    entry.sig.length ≤ (entries.map encodeEntitySig).flatten.length := by
  have hitem : (encodeEntitySig entry).length ≤ (entries.map encodeEntitySig).flatten.length :=
    (List.sublist_flatten_of_mem (List.mem_map_of_mem hentry)).length_le
  have hsig := Abi.length_le_encodeBytes entry.sig
  have hlen : (Abi.encodeBytes entry.sig).length ≤ (encodeEntitySig entry).length := by
    rw [encodeEntitySig, List.length_append]
    omega
  omega

theorem length_encodeEntitySigs (entries : List EntitySig) : (encodeEntitySigs entries).length =
    64 + 32 * entries.length + (entries.map encodeEntitySig).flatten.length := by
  unfold encodeEntitySigs
  rw [List.length_append, length_wordBytes, Abi.length_encodeArray, List.length_map]
  omega

theorem decodeParts_encode {entries : List EntitySig}
    (hsize : (encodeEntitySigs entries).length < 2 ^ 64) :
    decodeParts (encodeEntitySigs entries) = some entries := by
  have hparts : Abi.Holds (encodeEntitySigs entries) 0
      (wordBytes (BitVec.ofNat 256 32) ++ Abi.encodeArray (entries.map encodeEntitySig)) :=
    List.prefix_rfl
  rw [length_encodeEntitySigs] at hsize
  rw [Abi.Holds.append, length_wordBytes] at hparts
  refine Abi.dynamicAt_of_holds (by decide) hparts.1 ?_
  refine Abi.arrayAt_of_holds ?_ (by omega) hparts.2
  intro entry hentry pos hpos
  have hsig := length_sig_le hentry
  exact partAt_of_holds (by omega) hpos

/-- The client decodes what it has encoded, with the texts in their normal form. -/
theorem decodeAdvancedSignature_pack {entries : List EntitySig}
    (hsize : (encodeEntitySigs entries).length < 2 ^ 64) :
    decodeAdvancedSignature (hexlify (pack entries)) =
      some (entries.map fun part => (hex32 part.keyId, hexlify part.sig)) := by
  have hstarts : startsWith (hexlify (pack entries)) ADVANCED_SIG_MAGIC = true :=
    (startsWith_hexlify _).mpr rfl
  have hdrop : (hexlify (pack entries)).toList.drop 10 = hex (encodeEntitySigs entries) := by
    unfold hexlify pack
    rw [String.toList_ofList, hex_append]
    rfl
  have hread : getBytes ('0' :: 'x' :: hex (encodeEntitySigs entries)) =
      some (encodeEntitySigs entries) := IdentityRoutes.getBytes_hex _
  unfold decodeAdvancedSignature
  rw [if_pos hstarts, hdrop, hread]
  simp only [Option.bind_eq_bind, Option.bind_some, decodeParts_encode hsize]
  rfl

/-- The texts of some entries. -/
def Reads (part : String × String) (entry : EntitySig) : Prop :=
  bytes32 part.1 = some entry.keyId ∧ getBytes part.2.toList = some entry.sig

theorem encodeAdvancedSignature_eq {parts : List (String × String)} {entries : List EntitySig}
    (h : List.Forall₂ Reads parts entries) :
    encodeAdvancedSignature parts = some (hexlify (pack entries)) := by
  have hread : (parts.mapM fun part => do
      return EntitySig.mk (← bytes32 part.1) (← getBytes part.2.toList)) = some entries := by
    induction h with
    | nil => rfl
    | cons hpart hparts ih =>
      rw [List.mapM_cons, ih, hpart.1, hpart.2]
      rfl
  unfold encodeAdvancedSignature
  rw [hread]
  show some (ADVANCED_SIG_MAGIC ++ String.ofList (hex (encodeEntitySigs entries))) = _
  rw [magic_text]
  rfl

/-! ## Under the packings -/

-- A signature packed alone, so many times over.
def wrapped (keyId : Bytes32) (sig : Bytes) : Nat → Bytes
  | 0 => sig
  | n + 1 => pack [⟨keyId, wrapped keyId sig n⟩]

theorem unwrapLayers_raw {ethers : Ethers} {keyId text : String} {sig : Bytes} (layers : Nat)
    (hread : getBytes text.toList = some sig) (hraw : sig.take 4 ≠ MAGIC) :
    unwrapLayers ethers.advanced keyId layers text = text := by
  cases layers with
  | zero => rfl
  | succ layers =>
    have hstarts : startsWith (lowerCase text) ADVANCED_SIG_MAGIC = false := by
      rw [lowerCase_of_getBytes hread, ← Bool.not_eq_true, startsWith_hexlify]
      exact hraw
    unfold unwrapLayers
    rw [hstarts]
    rfl

theorem lowerCase_hexlify (bytes : Bytes) : lowerCase (hexlify bytes) = hexlify bytes :=
  lowerCase_of_getBytes (getBytes_hexlify bytes)

/-- Each turn of the loop takes one packing off. -/
theorem unwrapLayers_packed {ethers : Ethers} {text : String} {keyId : Bytes32} {sig : Bytes}
    {n layers : Nat} (hkey : bytes32 text = some keyId) (hraw : sig.take 4 ≠ MAGIC)
    (hn : n ≤ layers) (hsize : (wrapped keyId sig n).length < 2 ^ 64) :
    unwrapLayers ethers.advanced text layers (hexlify (wrapped keyId sig n)) = hexlify sig := by
  induction n generalizing layers with
  | zero => exact unwrapLayers_raw layers (getBytes_hexlify sig) hraw
  | succ n ih =>
    cases layers with
    | zero => omega
    | succ layers =>
      have hstarts : startsWith (lowerCase (hexlify (wrapped keyId sig (n + 1))))
          ADVANCED_SIG_MAGIC = true := by
        rw [lowerCase_hexlify, startsWith_hexlify, wrapped]
        exact List.take_left' rfl
      have hentries : (encodeEntitySigs [⟨keyId, wrapped keyId sig n⟩]).length < 2 ^ 64 := by
        unfold wrapped pack at hsize
        rw [List.length_append] at hsize
        omega
      have hdecode : decodeAdvancedSignature (hexlify (wrapped keyId sig (n + 1))) =
          some [(hex32 keyId, hexlify (wrapped keyId sig n))] := by
        rw [wrapped, decodeAdvancedSignature_pack hentries]
        rfl
      have hinner : (wrapped keyId sig n).length < 2 ^ 64 := by
        have hle := length_sig_le (List.mem_singleton_self (EntitySig.mk keyId (wrapped keyId sig n)))
        rw [length_encodeEntitySigs] at hentries
        dsimp only at hle
        omega
      have htext : text ≠ "" := by
        rintro rfl
        have hnone : bytes32 "" = none := by decide
        rw [hnone] at hkey
        cases hkey
      have hname : lowerCase (hex32 keyId) = lowerCase text := by
        rw [lowerCase_of_bytes32 hkey, lowerCase_of_bytes32 (bytes32_hex32 keyId)]
      have hnonempty : hexlify (wrapped keyId sig n) ≠ "" := by
        intro h
        exact absurd (congrArg String.toList h) (by simp [hexlify])
      have hcoder : ethers.advanced.decodeAdvancedSignature = decodeAdvancedSignature := rfl
      unfold unwrapLayers
      rw [hstarts, hcoder, hdecode]
      simp only [Bool.not_true, Bool.false_eq_true, if_false, htext, List.find?_cons_of_pos, hname,
        decide_true, Option.some_or, Option.filter_some, ne_eq, hnonempty, not_false_eq_true, if_true]
      exact ih (by omega) hinner

/-- What the server has of an entry: its signature in any spelling, or packed by the client. -/
def Stores (sig : WalletProposalSig) (entry : EntitySig) : Prop :=
  bytes32 sig.keyId = some entry.keyId ∧ entry.sig.take 4 ≠ MAGIC ∧
    (getBytes sig.signature.toList = some entry.sig ∨
      ∃ n, n ≤ 3 ∧ (wrapped entry.keyId entry.sig n).length < 2 ^ 64 ∧
        sig.signature = hexlify (wrapped entry.keyId entry.sig n))

theorem Stores.reads {ethers : Ethers} {sig : WalletProposalSig} {entry : EntitySig}
    (h : Stores sig entry) : Reads (sig.keyId, sig.inner ethers.advanced) entry := by
  obtain ⟨hkey, hraw, hsig | ⟨n, hn, hsize, hsig⟩⟩ := h
  · refine ⟨hkey, ?_⟩
    unfold WalletProposalSig.inner unwrapAdvancedInnerSig
    rw [unwrapLayers_raw 3 hsig hraw]
    exact hsig
  · refine ⟨hkey, ?_⟩
    unfold WalletProposalSig.inner unwrapAdvancedInnerSig
    rw [hsig, unwrapLayers_packed hkey hraw hn hsize]
    exact getBytes_hexlify entry.sig

end OnchainInvoice.Proposals
