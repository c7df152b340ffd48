import Mathlib.Data.List.Zip
import Mathlib.Logic.Function.Basic
import OnchainInvoice.Lib.Bitmap
import OnchainInvoice.Wallet.Types

/-!
# `AdvancedWalletMixin` and `AdvancedWalletLib`

The M-of-N policy of an advanced wallet: entities that each own a bit, the keys of an entity, a
threshold and a set of veto entities.  What the mixin leaves to the wallet (the pending recovery and
the migration of the simple owners) are arguments of `enableAdvanced`.
-/

namespace OnchainInvoice.AdvancedWalletMixin

open Evm AdvancedWalletTypes WalletEip712 Lib.Revert Lib.Bitmap Function

structure Policy where
  advanced : Bool
  threshold : Uint8
  entityCount : Uint8
  vetoCount : Uint8
  entityBitmap : Uint256
  vetoBitmap : Uint256
  entityExists : Bytes32 → Bool
  entityBit : Bytes32 → Uint8
  entityAtBit : Uint8 → Bytes32
  entityKeyCount : Bytes32 → Uint8
  keys : Bytes32 → KeyRecord

-- The storage of a wallet in simple mode.
def Policy.unused : Policy where
  advanced := false
  threshold := 0
  entityCount := 0
  vetoCount := 0
  entityBitmap := 0
  vetoBitmap := 0
  entityExists _ := false
  entityBit _ := 0
  entityAtBit _ := 0
  entityKeyCount _ := 0
  keys _ := KeyRecord.zero

-- `uint256(1) << bit`
def bitMask (bit : Uint8) : Uint256 := mask bit.toNat

variable (env : Env) (p : Policy)

/-! ## `AdvancedWalletLib` -/

def keyIdPreimage (key : KeyRecord) : Bytes :=
  encodeWords
    [key.entityId, key.keyType.setWidth 256, key.qx, key.qy, addressWord key.eoa]

def computeKeyId (key : KeyRecord) : Bytes32 := env.crypto.keccak256 (keyIdPreimage key)

-- The `while (x != 0)` loop; `x` has `fuel` bits left, so the fuel never runs out first.
def popcountLoop : Nat → Uint256 → Uint8 → Except Error Uint8
  | 0, _, count => .ok count
  | fuel + 1, x, count =>
    if x = 0 then .ok count
    else do
      let count ← checkedAdd .panic count ((x &&& 1).setWidth 8)
      popcountLoop fuel (x >>> 1) count

def popcount (x : Uint256) : Except Error Uint8 := popcountLoop 256 x 0

def entitySigAt (data : Bytes) (pos : Nat) : Option EntitySig := do
  let keyId ← Abi.wordAt data pos
  let sig ← Abi.dynamicAt Abi.bytesAt data pos (pos + 32)
  return ⟨keyId, sig⟩

-- `abi.decode(encoded, (EntitySig[]))`
def abiDecodeEntitySigs (encoded : Bytes) : Option (List EntitySig) :=
  Abi.dynamicAt (Abi.arrayAt entitySigAt) encoded 0 0

def decodeEntitySigs (signature : Bytes) : Except Error (List EntitySig) := do
  revertIf (signature.length < 4) .invalidEntitySig
  revertIf (signature.take 4 != ADVANCED_SIG_MAGIC) .invalidEntitySig
  orRevert .abiDecode (abiDecodeEntitySigs (signature.drop 4))

def validateKeySignature (digest : Bytes32) (key : KeyRecord) (sig : Bytes) :
    Except Error Bool :=
  if key.keyType = KEY_EOA then
    if key.eoa = 0 then .ok false
    else .ok (recoverUserOp env env.this digest key.eoa sig)
  else if key.keyType = KEY_WEBAUTHN ∨ key.keyType = KEY_YUBIKEY then
    if key.qx = 0 ∧ key.qy = 0 then .ok false
    else if sig.length < 0xC0 then .ok false
    else do
      let auth ← orRevert .abiDecode (decodeWebAuthnAuth sig)
      return env.crypto.webAuthnVerify (wordBytes digest) auth key.qx key.qy
  else .ok false

-- The loop over the entries; `none` is the `return false` inside it.
def collectSignedBits (digest : Bytes32) : List EntitySig → Uint256 → Except Error (Option Uint256)
  | [], signedBits => .ok (some signedBits)
  | entry :: entries, signedBits => do
    let key := p.keys entry.keyId
    if key.entityId = 0 then return none
    let valid ← validateKeySignature env digest key entry.sig
    if valid = false then return none
    if p.entityExists key.entityId = false then return none
    let mask := bitMask (p.entityBit key.entityId)
    if signedBits &&& mask ≠ 0 then return none
    collectSignedBits digest entries (signedBits ||| mask)

-- The checks after the loop.
def meetsPolicy (signedBits : Uint256) : Except Error Bool := do
  let count ← popcount signedBits
  if count < p.threshold then return false
  if p.vetoBitmap ≠ 0 ∧ signedBits &&& p.vetoBitmap = 0 then return false
  return true

def validateAdvancedSignatures (digest : Bytes32) (signature : Bytes) : Except Error Bool := do
  let sigs ← decodeEntitySigs signature
  match ← collectSignedBits env p digest sigs 0 with
  | none => return false
  | some signedBits => meetsPolicy p signedBits

/-! ## Internal changes -/

def registerEntity (entityId : Bytes32) : Except Error Policy := do
  revertIf (entityId == 0) .entityNotFound
  revertIf (p.entityExists entityId) .entityAlreadyExists
  revertIf (MAX_ENTITIES ≤ p.entityCount) .tooManyEntities
  let bit := p.entityCount
  return { p with
    entityExists := update p.entityExists entityId true
    entityBit := update p.entityBit entityId bit
    entityAtBit := update p.entityAtBit bit entityId
    entityBitmap := p.entityBitmap ||| bitMask bit
    entityCount := p.entityCount + 1 }

-- The first half of `_removeEntityInternal`: the removed bit leaves both bitmaps.
def clearBit (removedBit : Uint8) : Policy :=
  if p.vetoBitmap &&& bitMask removedBit ≠ 0 then
    { p with
      vetoBitmap := p.vetoBitmap &&& ~~~bitMask removedBit
      vetoCount := p.vetoCount - 1
      entityBitmap := p.entityBitmap &&& ~~~bitMask removedBit }
  else { p with entityBitmap := p.entityBitmap &&& ~~~bitMask removedBit }

-- The second half: the entity of the last bit moves into the removed bit.
def moveLastBit (removedBit lastBit : Uint8) : Policy :=
  if removedBit ≠ lastBit then
    let lastEntityId := p.entityAtBit lastBit
    { p with
      entityBit := update p.entityBit lastEntityId removedBit
      entityAtBit := update (update p.entityAtBit removedBit lastEntityId) lastBit 0
      entityBitmap := p.entityBitmap &&& ~~~bitMask lastBit ||| bitMask removedBit
      vetoBitmap :=
        if p.vetoBitmap &&& bitMask lastBit ≠ 0 then
          p.vetoBitmap &&& ~~~bitMask lastBit ||| bitMask removedBit
        else p.vetoBitmap }
  else { p with entityAtBit := update p.entityAtBit lastBit 0 }

def removeEntityInternal (entityId : Bytes32) : Except Error Policy := do
  let removedBit := p.entityBit entityId
  let lastBit ← checkedSub .panic p.entityCount 1
  let p := moveLastBit (clearBit p removedBit) removedBit lastBit
  return { p with
    entityExists := update p.entityExists entityId false
    entityBit := update p.entityBit entityId 0
    entityKeyCount := update p.entityKeyCount entityId 0
    entityCount := p.entityCount - 1 }

-- The key record is the argument group `(entityId, keyType, qx, qy, eoa)`.
def addKeyInternal (key : KeyRecord) : Except Error Policy := do
  revertIf (!p.entityExists key.entityId) .entityNotFound
  revertIf (KEY_EOA < key.keyType) .invalidKeyType
  if key.keyType = KEY_EOA then revertIf (key.eoa == 0) .invalidKeyType
  else revertIf (key.qx == 0 && key.qy == 0) .invalidKeyType
  let keyId := computeKeyId env key
  revertIf ((p.keys keyId).entityId != 0) .keyAlreadyExists
  return { p with
    keys := update p.keys keyId key
    entityKeyCount := update p.entityKeyCount key.entityId (p.entityKeyCount key.entityId + 1) }

def removeKeyInternal (keyId : Bytes32) : Except Error Policy := do
  let entityId := (p.keys keyId).entityId
  revertIf (entityId == 0) .keyNotFound
  return { p with
    keys := update p.keys keyId KeyRecord.zero
    entityKeyCount := update p.entityKeyCount entityId (p.entityKeyCount entityId - 1) }

def setThresholdInternal (m : Uint8) : Except Error Policy := do
  revertIf (m == 0 || p.entityCount < m) .invalidThreshold
  return { p with threshold := m }

def setVetoInternal (entityId : Bytes32) (isVeto : Bool) : Except Error Policy := do
  revertIf (!p.entityExists entityId) .entityNotFound
  revertIf (p.entityKeyCount entityId == 0) .entityHasKeys
  let mask := bitMask (p.entityBit entityId)
  let currentlyVeto : Bool := p.vetoBitmap &&& mask != 0
  if isVeto = currentlyVeto then return p
  else if isVeto then
    return { p with vetoBitmap := p.vetoBitmap ||| mask, vetoCount := p.vetoCount + 1 }
  else return { p with vetoBitmap := p.vetoBitmap &&& ~~~mask, vetoCount := p.vetoCount - 1 }

def assertEntitiesUsable : Except Error Unit :=
  revertIf ((List.range p.entityCount.toNat).any fun i =>
    p.entityKeyCount (p.entityAtBit (BitVec.ofNat 8 i)) == 0) .lastKey

/-! ## Operations -/

def onlyAdvanced : Except Error Unit := revertIf (!p.advanced) .notAdvancedMode

-- `migrate` is `_migrateSimpleOwnersToEntity`; disabling the recovery is left to the wallet.
def enableAdvanced (pendingRecoveryActive : Bool) (migrate : Policy → Except Error Policy)
    (adminEntityId : Bytes32) : Except Error Policy := do
  revertIf p.advanced .advancedModeActive
  revertIf pendingRecoveryActive .cannotEnableWithPendingRecovery
  let p ← registerEntity { p with advanced := true, threshold := 1 } adminEntityId
  migrate p

structure MultisigConfig where
  removeKeyIds : List Bytes32
  entityIds : List Bytes32
  entityIdsForKeys : List Bytes32
  keyTypes : List Uint8
  qx : List Bytes32
  qy : List Bytes32
  eoa : List Address
  threshold : Uint8
  vetoEntityIds : List Bytes32
deriving DecidableEq

-- The parallel arrays, read index by index.
def MultisigConfig.newKeys (config : MultisigConfig) : List KeyRecord :=
  (config.entityIdsForKeys.zip (config.keyTypes.zip (config.qx.zip (config.qy.zip config.eoa)))).map
    fun (entityId, keyType, qx, qy, eoa) => ⟨entityId, keyType, qx, qy, eoa⟩

def registerMissing (entityId : Bytes32) : Except Error Policy :=
  if p.entityExists entityId = false then registerEntity p entityId else .ok p

def configureMultisig (config : MultisigConfig) : Except Error Policy := do
  onlyAdvanced p
  let p ← config.removeKeyIds.foldlM removeKeyInternal p
  let p ← config.entityIds.foldlM registerMissing p
  let keyLen := config.keyTypes.length
  revertIf (keyLen != config.entityIdsForKeys.length || keyLen != config.qx.length ||
    keyLen != config.qy.length || keyLen != config.eoa.length) .invalidEntitySig
  let p ← config.newKeys.foldlM (addKeyInternal env) p
  let p ← setThresholdInternal p config.threshold
  let p ← config.vetoEntityIds.foldlM (fun p entityId => setVetoInternal p entityId true)
    { p with vetoBitmap := 0, vetoCount := 0 }
  assertEntitiesUsable p
  return p

def addEntity (entityId : Bytes32) : Except Error Policy := do
  onlyAdvanced p
  registerEntity p entityId

def removeEntityKey (entityId : Bytes32) (p : Policy) (keyId : Bytes32) : Except Error Policy := do
  revertIf ((p.keys keyId).entityId != entityId) .keyNotFound
  removeKeyInternal p keyId

def removeEntity (entityId : Bytes32) (keyIds : List Bytes32) : Except Error Policy := do
  onlyAdvanced p
  revertIf (!p.entityExists entityId) .entityNotFound
  revertIf (p.entityCount ≤ p.threshold) .invalidThreshold
  let p ← keyIds.foldlM (removeEntityKey entityId) p
  revertIf (0 < p.entityKeyCount entityId) .entityHasKeys
  removeEntityInternal p entityId

def addKey (key : KeyRecord) : Except Error Policy := do
  onlyAdvanced p
  revertIf (!p.entityExists key.entityId) .entityNotFound
  addKeyInternal env p key

def removeKey (keyId : Bytes32) : Except Error Policy := do
  onlyAdvanced p
  let entityId := (p.keys keyId).entityId
  revertIf (entityId == 0) .keyNotFound
  revertIf (p.entityKeyCount entityId ≤ 1) .lastKey
  removeKeyInternal p keyId

def setThreshold (m : Uint8) : Except Error Policy := do
  onlyAdvanced p
  setThresholdInternal p m

def setVeto (entityId : Bytes32) (isVeto : Bool) : Except Error Policy := do
  onlyAdvanced p
  setVetoInternal p entityId isVeto

end OnchainInvoice.AdvancedWalletMixin
