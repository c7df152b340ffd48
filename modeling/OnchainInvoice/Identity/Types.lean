import OnchainInvoice.Evm.Abi
import OnchainInvoice.Evm.Crypto
import OnchainInvoice.Lib.Revert

/-!
# Identity methods and their signatures

`IdentityTypes`, `IdentityErrors` and `IdentitySigLib`.  The argument group
`(kind, qx, qy, eoa)` that every method operation passes around is `MethodFields`.
-/

namespace OnchainInvoice.IdentityTypes

open Evm Lib.Revert

def METHOD_WEBAUTHN : Uint8 := 0
def METHOD_YUBIKEY : Uint8 := 1
def METHOD_EOA : Uint8 := 2

def MAX_METHODS : Uint8 := 32

-- "IDS1"
def SIG_MAGIC : Bytes := [0x49, 0x44, 0x53, 0x31]

-- "SUP1"
def SUPER_MAGIC : Bytes := [0x53, 0x55, 0x50, 0x31]

structure MethodFields where
  kind : Uint8
  qx : Bytes32
  qy : Bytes32
  eoa : Address
deriving DecidableEq

structure Method extends MethodFields where
  identityId : Bytes32
  exists_ : Bool
deriving DecidableEq

structure Identity where
  exists_ : Bool
  restoreEnabled : Bool
  methodCount : Uint8
  eoaCount : Uint8
  webauthnCount : Uint8
  yubikeyCount : Uint8
deriving DecidableEq

-- The value an unset or deleted mapping entry has.
def Method.zero : Method := ⟨⟨0, 0, 0, 0⟩, 0, false⟩
def Identity.zero : Identity := ⟨false, false, 0, 0, 0, 0⟩

-- `IdentityErrors`, the errors of `Ownable`, `Initializable` and `Account`, and the two reverts
-- without a name.
inductive Error
  | identityExists | identityNotFound | invalidIdentity | invalidMethodKind | invalidMethod
  | methodExists | methodNotFound | lastMethod | invalidSignature | restoreIsDisabled
  | restoreRequiresEoa | restoreNeedsSecondMethod | notIdentityEoa | restoreAlreadyDisabled
  | notRecoveryOperator | restoreOperatorUnset | restorePending | restoreNotPending
  | restoreNotReady | tooManyMethods | zeroAddress
  | superAlreadyEnabled | notSuperWallet | invalidThreshold | signerExists | signerNotFound
  | ownableUnauthorizedAccount | ownableInvalidOwner | invalidInitialization | accountUnauthorized
  | abiDecode | panic
deriving DecidableEq

def methodIdPreimage (identityId : Bytes32) (f : MethodFields) : Bytes :=
  encodeWords [identityId, f.kind.setWidth 256, f.qx, f.qy, addressWord f.eoa]

def computeMethodId (crypto : Crypto) (identityId : Bytes32) (f : MethodFields) : Bytes32 :=
  crypto.keccak256 (methodIdPreimage identityId f)

theorem methodIdPreimage_inj {i j : Bytes32} {f g : MethodFields} :
    methodIdPreimage i f = methodIdPreimage j g ↔ i = j ∧ f = g := by
  apply Iff.intro
  · intro h
    have hwords := encodeWords_injective (by rfl) h
    simp only [List.cons.injEq, and_true] at hwords
    rcases hwords with ⟨hid, hkind, hqx, hqy, heoa⟩
    have hkind' : f.kind = g.kind := by
      have h8 := congrArg (BitVec.setWidth 8) hkind
      rwa [BitVec.setWidth_setWidth_of_le _ (by decide),
        BitVec.setWidth_setWidth_of_le _ (by decide), BitVec.setWidth_eq,
        BitVec.setWidth_eq] at h8
    have heoa' : f.eoa = g.eoa := by
      rw [← wordAddress_addressWord f.eoa, ← wordAddress_addressWord g.eoa, heoa]
    cases f
    cases g
    simp_all
  · rintro ⟨rfl, rfl⟩
    rfl

def verifyWebAuthn (crypto : Crypto) (message : Bytes32) (sig : Bytes) (qx qy : Bytes32) :
    Except Error Bool :=
  if qx = 0 ∧ qy = 0 then .ok false
  else if sig.length < 0xC0 then .ok false
  else do
    let auth ← orRevert .abiDecode (decodeWebAuthnAuth sig)
    return crypto.webAuthnVerify (wordBytes message) auth qx qy

-- `abi.decode(encoded, (uint8, bytes32, bytes32, bytes))`: kind, identity, method id, signature.
def decodeMethodBlob (encoded : Bytes) : Option (Uint8 × Bytes32 × Bytes32 × Bytes) := do
  let kind ← Abi.uint8At encoded 0
  let identityId ← Abi.wordAt encoded 32
  let id ← Abi.wordAt encoded 64
  let inner ← Abi.dynamicAt Abi.bytesAt encoded 0 96
  return (kind, identityId, id, inner)

def decodeSuperBlobs (blob : Bytes) : Except Error (List Bytes) := do
  revertIf (blob.length < 4) .invalidSignature
  revertIf (blob.take 4 != SUPER_MAGIC) .invalidSignature
  orRevert .abiDecode (Abi.dynamicAt (Abi.arrayAt Abi.bytesAt) (blob.drop 4) 0 0)

-- `abi.encode(kind, identityId, id, inner)` behind the magic.
def encodeMethodBlob (kind : Uint8) (identityId id : Bytes32) (inner : Bytes) : Bytes :=
  SIG_MAGIC ++ encodeWords [kind.setWidth 256, identityId, id, 0x80] ++ Abi.encodeBytes inner

-- `abi.encode(blobs)` behind the magic.
def encodeSuperBlobs (blobs : List Bytes) : Bytes :=
  SUPER_MAGIC ++ (wordBytes (BitVec.ofNat 256 32) ++ Abi.encodeArray (blobs.map Abi.encodeBytes))

end OnchainInvoice.IdentityTypes
