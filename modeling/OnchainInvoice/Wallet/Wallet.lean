import OnchainInvoice.Lib.Runs
import OnchainInvoice.Wallet.AdvancedMixin
import OnchainInvoice.Wallet.OwnerRegistry

/-!
# The `Wallet` contract

A wallet clone from before its initialisation on.  `ERC7821.execute` makes the wallet call itself,
so a transaction whose sender is the wallet stands for each call of a batch.
-/

namespace OnchainInvoice.Wallet

open Evm AdvancedWalletTypes WalletEip712 P256OwnerRegistry AdvancedWalletMixin Lib.Revert

structure PendingOwner where
  qx : Bytes32
  qy : Bytes32
  executableAt : Uint64
  requestId : Bytes32
  active : Bool
deriving DecidableEq

def PendingOwner.zero : PendingOwner := ⟨0, 0, 0, 0, false⟩

structure State where
  initialized : Bool
  registry : OwnerRegistry
  policy : Policy
  recoveryContract : Address
  recoveryTimelock : Uint256
  paused : Bool
  recoveryMetadata : Bytes
  pendingOwner : PendingOwner

-- A clone that has just been created.
def clone : State where
  initialized := false
  registry := OwnerRegistry.empty
  policy := Policy.unused
  recoveryContract := 0
  recoveryTimelock := 0
  paused := false
  recoveryMetadata := []
  pendingOwner := PendingOwner.zero

variable (env : Env) (s : State)

/-! ## Modifiers -/

def onlyEntryPointOrSelf (sender : Address) : Except Error Unit :=
  revertIf (sender != env.entryPoint && sender != env.this) .accountUnauthorized

def whenNotPaused : Except Error Unit := revertIf s.paused .walletPaused

def onlyRecovery (sender : Address) : Except Error Unit := do
  revertIf s.policy.advanced .recoveryDisabledInAdvanced
  revertIf (sender != s.recoveryContract) .notRecovery

def initialize_ (qx qy : Bytes32) (recoveryContract : Address) (recoveryTimelock : Uint256) :
    Except Error State := do
  revertIf s.initialized .invalidInitialization
  revertIf (recoveryContract == 0) .invalidOwnerKey
  let registry ← addOwnerKey env s.registry qx qy
  return { s with
    initialized := true
    registry := registry
    recoveryContract := recoveryContract
    recoveryTimelock := recoveryTimelock }

/-! ## The advanced policy -/

-- The policy functions run for the entry point or the wallet itself while it is not paused.
def onPolicy (sender : Address) (change : Policy → Except Error Policy) : Except Error State := do
  onlyEntryPointOrSelf env sender
  whenNotPaused s
  let policy ← change s.policy
  return { s with policy := policy }

-- The record under which an owner becomes a key of the admin entity.
def migratedKey (adminEntityId : Bytes32) (key : OwnerKey) : KeyRecord :=
  if isEoaOwnerQy env key.qy then ⟨adminEntityId, KEY_EOA, 0, 0, eoaFromQx key.qx⟩
  else ⟨adminEntityId, KEY_WEBAUTHN, key.qx, key.qy, 0⟩

def migrateSimpleOwnersToEntity (registry : OwnerRegistry) (adminEntityId : Bytes32) (p : Policy) :
    Except Error Policy :=
  registry.ownerIds.foldlM (fun p id =>
    if registry.owners id = false then .ok p
    else addKeyInternal env p (migratedKey env adminEntityId (registry.ownerKeys id))) p

def disableRecovery : State :=
  { s with
    recoveryContract := 0
    pendingOwner := { s.pendingOwner with active := false } }

def enableAdvanced (sender : Address) (adminEntityId : Bytes32) : Except Error State := do
  let s ← onPolicy env s sender fun p =>
    AdvancedWalletMixin.enableAdvanced p s.pendingOwner.active
      (migrateSimpleOwnersToEntity env s.registry adminEntityId) adminEntityId
  return disableRecovery s

def configureMultisig (sender : Address) (config : MultisigConfig) : Except Error State :=
  onPolicy env s sender fun p => AdvancedWalletMixin.configureMultisig env p config

def addEntity (sender : Address) (entityId : Bytes32) : Except Error State :=
  onPolicy env s sender fun p => AdvancedWalletMixin.addEntity p entityId

def removeEntity (sender : Address) (entityId : Bytes32) (keyIds : List Bytes32) :
    Except Error State :=
  onPolicy env s sender fun p => AdvancedWalletMixin.removeEntity p entityId keyIds

def addKey (sender : Address) (key : KeyRecord) : Except Error State :=
  onPolicy env s sender fun p => AdvancedWalletMixin.addKey env p key

def addKeyEoa (sender : Address) (entityId : Bytes32) (eoa : Address) (signature : Bytes) :
    Except Error State :=
  onPolicy env s sender fun p => do
    revertIf (eoa == 0) .invalidOwnerKey
    revertIf (!recoverAddKey env env.this entityId eoa signature) .invalidSignature
    AdvancedWalletMixin.addKey env p ⟨entityId, KEY_EOA, 0, 0, eoa⟩

def removeKey (sender : Address) (keyId : Bytes32) : Except Error State :=
  onPolicy env s sender fun p => AdvancedWalletMixin.removeKey p keyId

def setThreshold (sender : Address) (m : Uint8) : Except Error State :=
  onPolicy env s sender fun p => AdvancedWalletMixin.setThreshold p m

def setVeto (sender : Address) (entityId : Bytes32) (isVeto : Bool) : Except Error State :=
  onPolicy env s sender fun p => AdvancedWalletMixin.setVeto p entityId isVeto

/-! ## Recovery -/

def pause (sender : Address) : Except Error State := do
  onlyRecovery s sender
  return { s with paused := true }

def unpause (sender : Address) : Except Error State := do
  onlyRecovery s sender
  return { s with paused := false }

def authorizeRecoveryUpdate (sender : Address) (metadata : Bytes) : Except Error State := do
  onlyRecovery s sender
  return { s with recoveryMetadata := metadata }

def recoveryRequestId (qx qy : Bytes32) (timestamp : Uint256) : Bytes32 :=
  env.crypto.keccak256
    (addressBytes env.this ++ wordBytes qx ++ wordBytes qy ++ wordBytes timestamp)

def recoveryAddOwner (sender : Address) (timestamp : Uint256) (qx qy : Bytes32) :
    Except Error State := do
  onlyRecovery s sender
  revertIf s.pendingOwner.active .pendingOwnerActive
  let executableAt ← checkedAdd .panic timestamp s.recoveryTimelock
  return { s with
    pendingOwner :=
      { qx := qx
        qy := qy
        executableAt := uint64 executableAt
        requestId := recoveryRequestId env qx qy timestamp
        active := true } }

def clearPendingOwner : State :=
  { s with pendingOwner := { s.pendingOwner with active := false } }

def executePendingOwner (timestamp : Uint256) : Except Error State := do
  revertIf s.policy.advanced .recoveryDisabledInAdvanced
  revertIf (!s.pendingOwner.active) .noPendingOwner
  revertIf (timestamp.toNat < s.pendingOwner.executableAt.toNat) .pendingOwnerNotReady
  let registry ← addOwnerKey env s.registry s.pendingOwner.qx s.pendingOwner.qy
  return { clearPendingOwner s with registry := registry, paused := false }

def cancelPendingOwner : Except Error State := do
  revertIf s.policy.advanced .recoveryDisabledInAdvanced
  revertIf (!s.pendingOwner.active) .noPendingOwner
  revertIf s.paused .walletPaused
  return clearPendingOwner s

def cancelDigest (requestId : Bytes32) : Bytes32 :=
  env.crypto.keccak256 (utf8 "cancelPendingOwner" ++ wordBytes requestId)

def cancelPendingOwnerWithSignature (signature : Bytes) : Except Error State := do
  revertIf s.policy.advanced .recoveryDisabledInAdvanced
  revertIf (!s.paused) .walletNotPaused
  revertIf (!s.pendingOwner.active) .noPendingOwner
  let digest := cancelDigest env s.pendingOwner.requestId
  revertIf (!validateAnyOwner env s.registry digest signature) .invalidSignature
  return { clearPendingOwner s with paused := false }

/-! ## Owners -/

-- The owner functions run like the policy functions, and in simple mode only.
def onOwners (sender : Address) (change : OwnerRegistry → Except Error OwnerRegistry) :
    Except Error State := do
  onlyEntryPointOrSelf env sender
  whenNotPaused s
  revertIf s.policy.advanced .advancedModeActive
  let registry ← change s.registry
  return { s with registry := registry }

def addOwner (sender : Address) (qx qy : Bytes32) : Except Error State :=
  onOwners env s sender fun r => addOwnerKey env r qx qy

def addOwnerEoa (sender owner : Address) (signature : Bytes) : Except Error State :=
  onOwners env s sender fun r => do
    revertIf (owner == 0) .invalidOwnerKey
    revertIf (!recoverAddOwner env env.this owner signature) .invalidSignature
    let (qx, qy) := eoaOwnerCoords env owner
    addOwnerKey env r qx qy

def removeOwner (sender : Address) (qx qy : Bytes32) : Except Error State :=
  onOwners env s sender fun r => removeOwnerKey env r qx qy

/-! ## Execution and signatures -/

-- `super` lets the wallet itself execute.
def erc7821AuthorizedExecutor (caller : Address) : Bool :=
  if s.paused then false else caller == env.entryPoint || caller == env.this

def rawSignatureValidation (hash : Bytes32) (signature : Bytes) : Except Error Bool :=
  if s.paused then .ok false
  else if s.policy.advanced then validateAdvancedSignatures env s.policy hash signature
  else .ok (validateAnyOwner env s.registry hash signature)

/-! ## Transactions -/

inductive Call
  | initialize_ (qx qy : Bytes32) (recoveryContract : Address) (recoveryTimelock : Uint256)
  | enableAdvanced (adminEntityId : Bytes32)
  | configureMultisig (config : MultisigConfig)
  | addEntity (entityId : Bytes32)
  | removeEntity (entityId : Bytes32) (keyIds : List Bytes32)
  | addKey (key : KeyRecord)
  | addKeyEoa (entityId : Bytes32) (eoa : Address) (signature : Bytes)
  | removeKey (keyId : Bytes32)
  | setThreshold (m : Uint8)
  | setVeto (entityId : Bytes32) (isVeto : Bool)
  | pause
  | unpause
  | authorizeRecoveryUpdate (metadata : Bytes)
  | recoveryAddOwner (qx qy : Bytes32)
  | executePendingOwner
  | cancelPendingOwner
  | cancelPendingOwnerWithSignature (signature : Bytes)
  | addOwner (qx qy : Bytes32)
  | addOwnerEoa (owner : Address) (signature : Bytes)
  | removeOwner (qx qy : Bytes32)
deriving DecidableEq

def step (tx : Tx Call) : Except Error State :=
  match tx.call with
  | .initialize_ qx qy recoveryContract recoveryTimelock =>
    initialize_ env s qx qy recoveryContract recoveryTimelock
  | .enableAdvanced adminEntityId => enableAdvanced env s tx.sender adminEntityId
  | .configureMultisig config => configureMultisig env s tx.sender config
  | .addEntity entityId => addEntity env s tx.sender entityId
  | .removeEntity entityId keyIds => removeEntity env s tx.sender entityId keyIds
  | .addKey key => addKey env s tx.sender key
  | .addKeyEoa entityId eoa signature => addKeyEoa env s tx.sender entityId eoa signature
  | .removeKey keyId => removeKey env s tx.sender keyId
  | .setThreshold m => setThreshold env s tx.sender m
  | .setVeto entityId isVeto => setVeto env s tx.sender entityId isVeto
  | .pause => pause s tx.sender
  | .unpause => unpause s tx.sender
  | .authorizeRecoveryUpdate metadata => authorizeRecoveryUpdate s tx.sender metadata
  | .recoveryAddOwner qx qy => recoveryAddOwner env s tx.sender tx.timestamp qx qy
  | .executePendingOwner => executePendingOwner env s tx.timestamp
  | .cancelPendingOwner => cancelPendingOwner s
  | .cancelPendingOwnerWithSignature signature => cancelPendingOwnerWithSignature env s signature
  | .addOwner qx qy => addOwner env s tx.sender qx qy
  | .addOwnerEoa owner signature => addOwnerEoa env s tx.sender owner signature
  | .removeOwner qx qy => removeOwner env s tx.sender qx qy

end OnchainInvoice.Wallet
