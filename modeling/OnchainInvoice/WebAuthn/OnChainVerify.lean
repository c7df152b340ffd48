import OnchainInvoice.Identity.Types
import OnchainInvoice.Lib.Utf8
import OnchainInvoice.WebAuthn.Es256

/-!
# The check of an assertion on the chain

`WebAuthn.verify` of the contract library behind `IdentitySigLib.verifyWebAuthn`.  SHA-256 and the
curve are parameters: a `P256` is any choice of them in which signatures are valid for points of the
curve and for numbers below its order only, and for `n - s` where they are for `s`.
-/

namespace OnchainInvoice.WebAuthn

open Lib.ByteTexts (Text encode)
open Lib.Utf8
open Evm hiding utf8

structure P256 where
  sha256 : Bytes → Bytes32
  onCurve : Bytes32 → Bytes32 → Bool
  -- of a digest, `r` and `s` under the key
  verify : Bytes32 → Nat → Nat → Bytes32 → Bytes32 → Bool
  onCurve_zero : onCurve 0 0 = false
  range : ∀ digest r s qx qy, verify digest r s qx qy = true →
    (0 < r ∧ r < P256_N) ∧ 0 < s ∧ s < P256_N
  negate : ∀ digest r s qx qy, 0 < s → s < P256_N →
    verify digest r (P256_N - s) qx qy = verify digest r s qx qy

variable (p : P256)

def P256.digest (authenticatorData clientData : Bytes) : Bytes32 :=
  p.sha256 (authenticatorData ++ wordBytes (p.sha256 clientData))

/-! ## Texts in the client data -/

-- `"type":"webauthn.get"`
def typeText : Text :=
  ['"', 't', 'y', 'p', 'e', '"', ':', '"', 'w', 'e', 'b', 'a', 'u', 't', 'h', 'n', '.', 'g', 'e',
    't', '"']

-- `"challenge":"`
def challengeText : Text := ['"', 'c', 'h', 'a', 'l', 'l', 'e', 'n', 'g', 'e', '"', ':', '"']

-- What has to follow it.
def challengeEnd (challenge : Bytes) : Text := encode true challenge ++ ['"']

/-! ## `WebAuthn.verify` -/

-- Longer than 36 bytes, with the user present and verified, and backed up only if that is allowed.
def validFlags (authenticatorData : Bytes) : Bool :=
  let flags := (authenticatorData.getD 32 0).toNat
  36 < authenticatorData.length && flags.testBit 0 && flags.testBit 2 &&
    (flags.testBit 3 || !flags.testBit 4)

-- Bytes that a read beyond the end is filled up with are zero, which no byte of the texts is.
def standsAt (text : Text) (clientData : Bytes) (index : Nat) : Bool :=
  (clientData.drop index).take (utf8 text).length = utf8 text

def verifySignature (digest : Bytes32) (r s qx qy : Bytes32) : Bool :=
  decide (s.toNat ≤ P256_HALF_N) && p.onCurve qx qy && p.verify digest r.toNat s.toNat qx qy

def verify (challenge : Bytes) (auth : WebAuthnAuth) (qx qy : Bytes32) : Bool :=
  validFlags auth.authenticatorData &&
  standsAt typeText auth.clientDataJSON auth.typeIndex.toNat &&
  standsAt (challengeText ++ challengeEnd challenge) auth.clientDataJSON
    auth.challengeIndex.toNat &&
  verifySignature p (p.digest auth.authenticatorData auth.clientDataJSON) auth.r auth.s qx qy

-- The contracts with this check in place of the parameter.
def withP256 (crypto : Crypto) : Crypto :=
  { crypto with webAuthnVerify := verify p }

end OnchainInvoice.WebAuthn
