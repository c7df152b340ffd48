import OnchainInvoice.Signing.ClientDigests
import OnchainInvoice.WebAuthn.CredentialIds

/-!
# Authorizations of identity changes

`identity-sign.ts` and the blobs of `identity-store.ts`: a device or a browser wallet signs a
digest, and the signature goes behind the magic with the method that made it.  What the server and
the node answer and what the device and the wallet sign are arguments, and `none` is where
something throws.
-/

namespace OnchainInvoice.Signing

open Evm IdentityTypes
open Evm.Checksum (getAddress)
open IdentityRoutes (bytes32 hex32 addressOf ZERO_ADDRESS ZERO_WORD)
open Lib.ByteTexts (hex)
open WebAuthnSignature (getBytes)
open WalletLog (IdentityMethodKind)
open Server (lowerCase)
open WebAuthn (credentialIdsMatch)

variable (crypto : Crypto)

/-! ## Blobs -/

def hexlify (bytes : Bytes) : String := String.ofList ('0' :: 'x' :: hex bytes)

def computeIdentityMethodId (input : MethodInput) : Option String := do
  let eoa ← getAddress crypto input.eoa
  let identityId ← bytes32 input.identityId
  let f ← readFields crypto { input with eoa := eoa }
  return hex32 (computeMethodId crypto identityId f)

def encodeIdentityBlob (kind : Nat) (identityId methodId inner : String) : Option String := do
  let identityId ← bytes32 identityId
  let methodId ← bytes32 methodId
  let inner ← getBytes inner.toList
  if kind < 2 ^ 8 then
    return hexlify (encodeMethodBlob (BitVec.ofNat 8 kind) identityId methodId inner)
  else none

def truthy (value : Option String) : Option String := value.filter (· ≠ "")

def wrapIdentityMethodSignature (kind : Nat) (identityId qx qy : String) (eoa : Option String)
    (inner : String) : Option String := do
  let eoa ← match (truthy eoa).filter (· ≠ ZERO_ADDRESS) with
    | some eoa => getAddress crypto eoa
    | none => some ZERO_ADDRESS
  let methodId ← computeIdentityMethodId crypto ⟨identityId, kind, qx, qy, eoa⟩
  encodeIdentityBlob kind identityId methodId inner

/-! ## The signer of a session -/

def kindNum : IdentityMethodKind → Nat
  | .yubikey => METHOD_YUBIKEY.toNat
  | .eoa => METHOD_EOA.toNat
  | .webauthn => METHOD_WEBAUTHN.toNat

-- `zeroPadValue`, which throws for a longer value.
def zeroPad (value : String) : Option String :=
  ((getBytes value.toList).filter fun bytes => bytes.length ≤ 32).map fun bytes =>
    hexlify (List.replicate (32 - bytes.length) 0 ++ bytes)

def paddedCoord (value : Option String) : String :=
  ((truthy value).bind zeroPad).getD ZERO_WORD

def sameHex (a b : String) : Bool := a ≠ "" && b ≠ "" && lowerCase a == lowerCase b

-- A row of `fetchIdentityMe().keys`.
structure IdentityKey where
  id : String
  kind : IdentityMethodKind
  credentialId : Option String
  qx : Option String
  qy : Option String
  eoa : Option String

structure IdentitySigningSession where
  identityId : String
  credentialId : String
  qx : String
  qy : String
  keyType : Option Nat
deriving DecidableEq

def KEY_YUBIKEY : Nat := 1

structure SessionSigner where
  kind : Nat
  methodId : String
  credentialId : String
deriving DecidableEq

def sessionRow (keys : List IdentityKey) (session : IdentitySigningSession) : Option IdentityKey :=
  (keys.find? fun k =>
      (truthy k.credentialId).isSome && credentialIdsMatch k.credentialId session.credentialId).or
    (keys.find? fun k =>
      k.kind != .eoa && (truthy k.qx).isSome && (truthy k.qy).isSome &&
        sameHex (paddedCoord k.qx) (paddedCoord session.qx) &&
        sameHex (paddedCoord k.qy) (paddedCoord session.qy))

-- A row brings its own method id, and without one it is computed from the session.
def identitySignerFromSession (keys : List IdentityKey) (session : IdentitySigningSession) :
    Option SessionSigner :=
  match sessionRow keys session with
  | some row => some ⟨kindNum row.kind, row.id, session.credentialId⟩
  | none => do
    let kind :=
      if session.keyType = some KEY_YUBIKEY then METHOD_YUBIKEY.toNat else METHOD_WEBAUTHN.toNat
    let methodId ← computeIdentityMethodId crypto
      ⟨session.identityId, kind, paddedCoord session.qx, paddedCoord session.qy, ZERO_ADDRESS⟩
    return ⟨kind, methodId, session.credentialId⟩

-- `device digest credentialId requireUv` is `signUserOpHash`.
def signIdentityDigest (device : String → String → Bool → Option String) (keys : List IdentityKey)
    (session : IdentitySigningSession) (digest : String) : Option String := do
  let signer ← identitySignerFromSession crypto keys session
  let inner ← device digest signer.credentialId (signer.kind = METHOD_YUBIKEY.toNat)
  encodeIdentityBlob signer.kind session.identityId signer.methodId inner

/-! ## Changes of an identity -/

structure WalletSession where
  identityId : Option String
  chainId : Option Nat
  credentialId : String
  qx : String
  qy : String
  keyType : Option Nat

structure WalletConfig where
  identityStoreAddress : Option String
  chainId : Option Nat

-- What a function of `identity-sign.ts` needs before it hashes: identity, store and chain.
structure SigningContext where
  session : IdentitySigningSession
  store : String
  chainId : Nat
deriving DecidableEq

def signingContext (session : WalletSession) (storeAddress : Option String)
    (config : WalletConfig) : Option SigningContext := do
  let identityId ← truthy session.identityId
  let store ← truthy (storeAddress.or config.identityStoreAddress)
  let chainId := ((session.chainId).or config.chainId).getD 0
  if chainId = 0 then none
  else return ⟨⟨identityId, session.credentialId, session.qx, session.qy, session.keyType⟩, store,
    chainId⟩

section Session

variable (device : String → String → Bool → Option String) (keys : List IdentityKey)
  (config : WalletConfig) (session : WalletSession) (storeAddress : Option String)

def signAddMethodAuthorization (kind : IdentityMethodKind) (qx qy eoa : Option String) :
    Option String := do
  let context ← signingContext session storeAddress config
  let qx := if kind = .eoa then ZERO_WORD else paddedCoord qx
  let qy := if kind = .eoa then ZERO_WORD else paddedCoord qy
  let digest ← hashIdentityAddMethod crypto context.store context.chainId
    ⟨context.session.identityId, kindNum kind, qx, qy, eoa.getD ZERO_ADDRESS⟩
  signIdentityDigest crypto device keys context.session digest

def signRemoveMethodAuthorization (methodId : String) (digest : Option String) :
    Option String := do
  let context ← signingContext session storeAddress config
  let digest ← match digest with
    | some digest => some digest
    | none =>
      hashIdentityRemoveMethod crypto context.store context.chainId context.session.identityId
        methodId
  signIdentityDigest crypto device keys context.session digest

def signCancelRestoreAuthorization : Option String := do
  let context ← signingContext session storeAddress config
  let digest ← hashIdentityCancelRestore crypto context.store context.chainId
    context.session.identityId
  signIdentityDigest crypto device keys context.session digest

end Session

/-! ## Recovering with another method -/

-- `kind` is `yubikey` or `eoa`.
structure RecoverProvingMethod where
  eoaKind : Bool
  credentialId : Option String
  qx : Option String
  qy : Option String
  eoa : Option String

section Recover

-- `wallet digest` is the signature of the typed data with this digest by the connected wallet, and
-- `accepted digest authorization` what the node answers.
variable (device : String → String → Bool → Option String) (wallet : String → Option String)
  (accepted : String → String → Bool) (config : WalletConfig)

def recoverContext : Option (String × Nat) := do
  let store ← truthy config.identityStoreAddress
  let chainId := config.chainId.getD 0
  if chainId = 0 then none else return (store, chainId)

def wrapEoa (identityId eoa signature : String) : Option String :=
  wrapIdentityMethodSignature crypto METHOD_EOA.toNat identityId ZERO_WORD ZERO_WORD eoa signature

def wrapYubikey (proving : RecoverProvingMethod) (identityId digest : String) : Option String := do
  let credentialId ← truthy proving.credentialId
  let qx ← truthy proving.qx
  let qy ← truthy proving.qy
  let inner ← device digest credentialId true
  wrapIdentityMethodSignature crypto METHOD_YUBIKEY.toNat identityId qx qy none inner

def signRecoverAddMethodAuthorization (identityId : String) (proving : RecoverProvingMethod)
    (kind : IdentityMethodKind) (qx qy : String) : Option String := do
  let (store, chainId) ← recoverContext config
  let input : MethodInput :=
    ⟨identityId, kindNum kind, paddedCoord qx, paddedCoord qy, ZERO_ADDRESS⟩
  let digest ← hashIdentityAddMethod crypto store chainId input
  if proving.eoaKind then do
    let eoa ← truthy proving.eoa
    let signed ← wallet digest
    let addMethodAuth ← wrapEoa crypto identityId eoa signed
    if accepted digest addMethodAuth then return addMethodAuth
    else do
      let verifyDigest ← hashIdentityVerify crypto store chainId digest
      let legacy ← wallet verifyDigest
      wrapEoa crypto identityId eoa legacy
  else wrapYubikey crypto device proving identityId digest

def signRecoverUserOpAuthorization (identityId : String) (proving : RecoverProvingMethod)
    (userOpHash : String) : Option String := do
  let store ← truthy config.identityStoreAddress
  let chainId := config.chainId.getD 0
  if proving.eoaKind then do
    let eoa ← truthy proving.eoa
    let verifyDigest ← hashIdentityVerify crypto store chainId userOpHash
    let signed ← wallet verifyDigest
    wrapEoa crypto identityId eoa signed
  else wrapYubikey crypto device proving identityId userOpHash

end Recover

end OnchainInvoice.Signing
