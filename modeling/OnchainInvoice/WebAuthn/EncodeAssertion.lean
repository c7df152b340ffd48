import OnchainInvoice.Persist.PersistLog
import OnchainInvoice.WebAuthn.CredentialIds
import OnchainInvoice.WebAuthn.OnChainVerify

/-!
# Assertions on their way to the chain

`encodeWebAuthnSignatureFromJson` of `webauthn-signature.ts`.  Strings are texts of characters: one
half of a surrogate pair alone is not among them.
-/

namespace OnchainInvoice.WebAuthnSignature

open Lib.ByteTexts (Text hexValue hex decode)
open Lib.Utf8 Lib.Revert WebAuthn
open Evm hiding utf8

-- An index into a JavaScript string is below `2^53`.
structure WebAuthnAssertionJson where
  authenticatorData : Text
  clientDataJSON : Text
  signature : Text
  short : authenticatorData.length < 2 ^ 53 ∧ clientDataJSON.length < 2 ^ 53 ∧
    signature.length < 2 ^ 53

structure WebAuthnAssertionParts where
  r : Bytes
  s : Bytes
  challengeIndex : Nat
  typeIndex : Nat
  authenticatorData : Text
  clientDataJSON : Text

-- The last one is thrown by the encoder.
inductive EncodeError
  | es256 (error : Es256Error)
  | invalidClientData
  | invalidBytes
deriving DecidableEq

/-! ## Reading the fields -/

def startsWith0x (value : Text) : Bool := ['0', 'x'].isPrefixOf value

-- `-` and `_` replaced, and filled up to a multiple of four.
def standardBase64 (value : Text) : Text :=
  let b64 := value.map fun c => if c = '-' then '+' else if c = '_' then '/' else c
  b64 ++ if unitLength b64 % 4 = 0 then [] else List.replicate (4 - unitLength b64 % 4) '='

-- A character of two UTF-16 units is two that are no digits.
def digitUnits (t : Text) : Text :=
  t.flatMap fun c => if c.toNat < 0x10000 then [c] else ['\uFFFD', '\uFFFD']

def decodeToBytes (value : Text) : Bytes :=
  if startsWith0x value then hexToBytes (digitUnits (value.drop 2))
  else decode (standardBase64 value)

-- `includes("challenge")`
def includesChallenge (t : Text) : Bool :=
  (cut ['c', 'h', 'a', 'l', 'l', 'e', 'n', 'g', 'e'] t).isSome

-- `TextDecoder` leaves out a byte order mark at the start.
def textDecoder (bytes : Bytes) : Text :=
  match decodeUtf8 bytes with
  | c :: t => if c = '\ufeff' then t else c :: t
  | [] => []

def decodeClientData (value : Text) : Text :=
  let t := Persist.trim value
  if ['{'].isPrefixOf t && includesChallenge t then t else textDecoder (decodeToBytes value)

def decodeToHex (value : Text) : Text :=
  if startsWith0x value then value.map Char.toLower else '0' :: 'x' :: hex (decodeToBytes value)

/-! ## Encoding -/

-- Pairs of digits, to the end.
def readHex : Text → Option Bytes
  | [] => some []
  | [_] => none
  | c :: d :: t =>
    match hexValue c, hexValue d, readHex t with
    | some high, some low, some bytes => some (UInt8.ofNat (high * 16 + low) :: bytes)
    | _, _, _ => none

-- The bytes of a hexadecimal text, as the encoder reads them.
def getBytes (value : Text) : Option Bytes :=
  if startsWith0x value then readHex (value.drop 2) else none

def word (bytes : Bytes) : Bytes32 := BitVec.ofNat 256 (beNat bytes)

-- `coder.encode(["bytes32", "bytes32", "uint256", "uint256", "bytes", "string"], …)`
def encodeAuth (auth : WebAuthnAuth) : Bytes :=
  let head := 6 * 32
  let authenticatorData := Abi.encodeBytes auth.authenticatorData
  encodeWords [auth.r, auth.s, auth.challengeIndex, auth.typeIndex, BitVec.ofNat 256 head,
    BitVec.ofNat 256 (head + authenticatorData.length)] ++
    (authenticatorData ++ Abi.encodeBytes auth.clientDataJSON)

def encodeWebAuthnParts (parts : WebAuthnAssertionParts) : Except EncodeError Bytes := do
  let authenticatorData ← orRevert .invalidBytes (getBytes parts.authenticatorData)
  return encodeAuth ⟨word parts.r, word parts.s, BitVec.ofNat 256 parts.challengeIndex,
    BitVec.ofNat 256 parts.typeIndex, authenticatorData, utf8 parts.clientDataJSON⟩

def encodeWebAuthnSignatureFromJson (input : WebAuthnAssertionJson) : Except EncodeError Bytes := do
  let clientDataJSON := decodeClientData input.clientDataJSON
  let authenticatorData := decodeToHex input.authenticatorData
  let sigBuf := decodeToBytes input.signature
  let signature ← (parseEs256Signature sigBuf).mapError .es256
  let typeIndex ← orRevert .invalidClientData (indexOf typeText clientDataJSON)
  let challengeIndex ← orRevert .invalidClientData (indexOf challengeText clientDataJSON)
  encodeWebAuthnParts
    ⟨signature.r, signature.s, challengeIndex, typeIndex, authenticatorData, clientDataJSON⟩

end OnchainInvoice.WebAuthnSignature
