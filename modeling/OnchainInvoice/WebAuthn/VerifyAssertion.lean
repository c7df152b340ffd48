import OnchainInvoice.Lib.Json
import OnchainInvoice.WebAuthn.EncodeAssertion

/-!
# Assertions that the server verifies

`verifyWebAuthnAssertion` of `webauthn-verify.ts` for an assertion in JSON.
-/

namespace OnchainInvoice.WebAuthnVerify

open Lib.ByteTexts (Text hexValue hex decode encode padding)
open Lib.Json (Value)
open Lib.Utf8 Lib.Revert WebAuthn
open WebAuthnSignature (WebAuthnAssertionJson WebAuthnAssertionParts startsWith0x standardBase64
  includesChallenge word)
open Evm hiding utf8

structure VerifyWebAuthnOptions where
  expectedChallengeBase64Url : Text
  rpId : Text
  origins : Option (List Text)
  ownerQx : Text
  ownerQy : Text

-- `typeError` and `invalidKey` are thrown by the runtime.
inductive VerifyError
  | es256 (error : Es256Error)
  | invalidClientData | invalidJson | expectedGet | challengeMismatch | originMismatch | typeError
  | invalidCoordinates | invalidKey | invalidSignature
deriving DecidableEq

/-! ## Reading the fields -/

-- `Buffer.from(t, "hex")` stops at the first pair that is not hexadecimal.
def bufferFromHex : Text → Bytes
  | c :: d :: t =>
    match hexValue c, hexValue d with
    | some high, some low => UInt8.ofNat (high * 16 + low) :: bufferFromHex t
    | _, _ => []
  | _ => []

def strip0x (hex : Text) : Text := if startsWith0x hex then hex.drop 2 else hex

def decodeToBuffer (value : Text) : Bytes :=
  if startsWith0x value then bufferFromHex (value.drop 2) else decode (standardBase64 value)

def looksLikeUtf8Json (value : Text) : Bool :=
  let t := Persist.trim value
  ['{'].isPrefixOf t && includesChallenge t

def decodeToUtf8 (value : Text) : Text :=
  if looksLikeUtf8Json value then value else decodeUtf8 (decodeToBuffer value)

def decodeToHex (value : Text) : Text :=
  if startsWith0x value then value.map Char.toLower else '0' :: 'x' :: hex (decodeToBuffer value)

def parseAssertionJson (assertion : WebAuthnAssertionJson) :
    Except VerifyError WebAuthnAssertionParts := do
  let clientDataJSON := decodeToUtf8 assertion.clientDataJSON
  let authenticatorData := decodeToHex assertion.authenticatorData
  let sigBuf := decodeToBuffer assertion.signature
  let signature ← (parseEs256 sigBuf).mapError .es256
  let typeIndex ← orRevert .invalidClientData (indexOf typeText clientDataJSON)
  let challengeIndex ← orRevert .invalidClientData (indexOf challengeText clientDataJSON)
  return ⟨signature.r, signature.s, challengeIndex, typeIndex, authenticatorData, clientDataJSON⟩

/-! ## Checks on the client data -/

def normalizeB64Url (value : Text) : Text := urlSafe value

def challengesEqual (a b : Text) : Bool := normalizeB64Url a = normalizeB64Url b

def challengeToBase64Url (bytes : Bytes) : Text := urlSafe (encode false bytes ++ padding bytes)

-- A number that is zero only after rounding is taken for true; it is no origin either way.
def truthy : Value → Bool
  | .null => false
  | .bool b => b
  | .number literal => literal.value ≠ 0
  | .string chars => chars ≠ []
  | .array _ | .object _ => true

def isLoopbackHost (host : Text) : Bool :=
  host ∈ [['l', 'o', 'c', 'a', 'l', 'h', 'o', 's', 't'],
    ['1', '2', '7', '.', '0', '.', '0', '.', '1'], ['[', ':', ':', '1', ']'], [':', ':', '1']]

-- `new URL(origin).hostname`, for the text that any value is turned into; `none` where it throws.
variable (hostname : Value → Option Text)

def originAllowed (origin : Value) (rpId : Text) (origins : Option (List Text)) : Bool :=
  match origins with
  | some (o :: os) =>
    match origin with
    | .string chars => (o :: os).contains chars
    | _ => false
  | _ =>
    match hostname origin with
    | none => false
    | some host =>
      let host := host.map Char.toLower
      let rp := rpId.map Char.toLower
      (isLoopbackHost host && isLoopbackHost rp) || host = rp || ('.' :: rp).isSuffixOf host

-- `webauthn.get`
def getType : Text := ['w', 'e', 'b', 'a', 'u', 't', 'h', 'n', '.', 'g', 'e', 't']

def checkType (clientData : Value) : Except VerifyError Unit :=
  match clientData, clientData.get? ['t', 'y', 'p', 'e'] with
  | .null, _ => .error .typeError
  | _, some (.string chars) => revertIf (chars ≠ getType) .expectedGet
  | _, _ => .error .expectedGet

-- What is neither falsy nor a string has no `replace`.
def checkChallenge (clientData : Value) (expectedChallenge : Text) : Except VerifyError Unit :=
  match clientData.get? ['c', 'h', 'a', 'l', 'l', 'e', 'n', 'g', 'e'] with
  | some (.string chars) =>
    revertIf (chars = [] || !challengesEqual chars expectedChallenge) .challengeMismatch
  | some value => .error (if truthy value then .typeError else .challengeMismatch)
  | none => .error .challengeMismatch

def checkOrigin (clientData : Value) (options : VerifyWebAuthnOptions) : Except VerifyError Unit :=
  match clientData.get? ['o', 'r', 'i', 'g', 'i', 'n'] with
  | some origin =>
    revertIf (!truthy origin || !originAllowed hostname origin options.rpId options.origins)
      .originMismatch
  | none => .error .originMismatch

/-! ## Verification -/

variable (p : P256)

-- The key is read from the coordinates; it has to be a point of the curve.
def p256PublicKeyFromCoords (qx qy : Text) : Except VerifyError (Bytes32 × Bytes32) := do
  let x := bufferFromHex (strip0x qx)
  let y := bufferFromHex (strip0x qy)
  revertIf (x.length ≠ 32 || y.length ≠ 32) .invalidCoordinates
  revertIf (!p.onCurve (word x) (word y)) .invalidKey
  return (word x, word y)

def verifyWebAuthnAssertion (assertion : WebAuthnAssertionJson) (options : VerifyWebAuthnOptions) :
    Except VerifyError Unit := do
  let parts ← parseAssertionJson assertion
  let clientData ← orRevert .invalidJson (Lib.Json.parse parts.clientDataJSON)
  checkType clientData
  checkChallenge clientData options.expectedChallengeBase64Url
  checkOrigin hostname clientData options
  let authData := bufferFromHex (strip0x parts.authenticatorData)
  let (qx, qy) ← p256PublicKeyFromCoords p options.ownerQx options.ownerQy
  let ok := p.verify (p.digest authData (utf8 parts.clientDataJSON)) (beNat parts.r)
    (beNat parts.s) qx qy
  revertIf (!ok) .invalidSignature

end OnchainInvoice.WebAuthnVerify
