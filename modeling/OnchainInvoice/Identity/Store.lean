import Mathlib.Logic.Function.Basic
import OnchainInvoice.Identity.Types
import OnchainInvoice.Lib.Runs
import OnchainInvoice.Lib.SwapPop

/-!
# The `IdentityStore` contract

On-chain identities with WebAuthn, YubiKey and EOA methods, and the delayed restore that the
recovery operator may start.  A mapping is a function whose unset entries are zero, `delete` writes
the zero entry back, and every external function returns the new state or reverts.
-/

namespace OnchainInvoice.IdentityStore

open Evm IdentityTypes Lib.Revert Lib.SwapPop Function

structure PendingRestore extends MethodFields where
  executeAfter : Uint64
  active : Bool
deriving DecidableEq

def PendingRestore.zero : PendingRestore := ⟨⟨0, 0, 0, 0⟩, 0, false⟩

-- The deployment: what `address(this)`, `block.chainid` and the precompiles are.
structure Env where
  crypto : Crypto
  this : Address
  chainid : Uint256

structure State where
  owner : Address
  recoveryOperator : Address
  restoreDelay : Uint64
  identities : Bytes32 → Identity
  methods : Bytes32 → Method
  methodIds : Bytes32 → List Bytes32
  pendingRestores : Bytes32 → PendingRestore

variable (env : Env) (s : State)

def deployed (recoveryOperator owner : Address) : State where
  owner := owner
  recoveryOperator := recoveryOperator
  restoreDelay := 0
  identities _ := Identity.zero
  methods _ := Method.zero
  methodIds _ := []
  pendingRestores _ := PendingRestore.zero

-- The constructor.  OpenZeppelin's `Ownable(initialOwner)` rejects the zero owner.
def deploy (recoveryOperator initialOwner : Address) : Except Error State := do
  revertIf (initialOwner == 0) .ownableInvalidOwner
  return deployed recoveryOperator initialOwner

/-! ## EIP-712 hashes -/

def hashString (text : String) : Bytes32 := env.crypto.keccak256 (utf8 text)

def EIP712_DOMAIN_TYPEHASH : Bytes32 := hashString env
  "EIP712Domain(string name,string version,uint256 chainId,address verifyingContract)"
def NAME_HASH : Bytes32 := hashString env "Trustless Commerce Identity"
def VERSION_HASH : Bytes32 := hashString env "1"
def VERIFY_TYPEHASH : Bytes32 := hashString env "Verify(bytes32 message)"
def ADD_METHOD_TYPEHASH : Bytes32 := hashString env
  "AddMethod(bytes32 identityId,uint8 kind,bytes32 qx,bytes32 qy,address eoa)"
def REMOVE_METHOD_TYPEHASH : Bytes32 := hashString env
  "RemoveMethod(bytes32 identityId,bytes32 methodId)"
def CANCEL_RESTORE_TYPEHASH : Bytes32 := hashString env "CancelRestore(bytes32 identityId)"

def domainSeparator : Bytes32 :=
  env.crypto.keccak256 (encodeWords
    [EIP712_DOMAIN_TYPEHASH env, NAME_HASH env, VERSION_HASH env, env.chainid,
      addressWord env.this])

def typedDataHash (words : List Uint256) : Bytes32 :=
  env.crypto.toTypedDataHash (domainSeparator env) (env.crypto.keccak256 (encodeWords words))

def hashVerify (message : Bytes32) : Bytes32 :=
  typedDataHash env [VERIFY_TYPEHASH env, message]

def hashAddMethod (identityId : Bytes32) (f : MethodFields) : Bytes32 :=
  typedDataHash env
    [ADD_METHOD_TYPEHASH env, identityId, f.kind.setWidth 256, f.qx, f.qy, addressWord f.eoa]

def hashRemoveMethod (identityId methodId : Bytes32) : Bytes32 :=
  typedDataHash env [REMOVE_METHOD_TYPEHASH env, identityId, methodId]

def hashCancelRestore (identityId : Bytes32) : Bytes32 :=
  typedDataHash env [CANCEL_RESTORE_TYPEHASH env, identityId]

/-! ## Checks -/

def assertP256 (qx qy : Bytes32) : Except Error Unit :=
  revertIf (qx == 0 && qy == 0) .invalidMethod

def assertMethodFields (f : MethodFields) : Except Error Unit :=
  if f.kind = METHOD_EOA then
    revertIf (f.eoa == 0 || f.qx != 0 || f.qy != 0) .invalidMethod
  else if f.kind = METHOD_WEBAUTHN ∨ f.kind = METHOD_YUBIKEY then do
    revertIf (f.eoa != 0) .invalidMethod
    assertP256 f.qx f.qy
  else .error .invalidMethodKind

def identityExists (identityId : Bytes32) : Bool := (s.identities identityId).exists_

-- The method id an EOA of the identity has.
def eoaFields (who : Address) : MethodFields := ⟨METHOD_EOA, 0, 0, who⟩

def isIdentityEoa (identityId : Bytes32) (who : Address) : Bool :=
  if who = 0 ∨ (s.identities identityId).exists_ = false then false
  else
    let m := s.methods (computeMethodId env.crypto identityId (eoaFields who))
    m.exists_ && m.kind == METHOD_EOA && m.eoa == who

def checkMethodSig (message : Bytes32) (m : Method) (inner : Bytes) : Except Error Bool :=
  if m.kind = METHOD_EOA then
    if m.eoa = 0 ∨ inner.length ≠ 65 then .ok false
    -- The struct digest itself first, then the legacy `Verify(bytes32)` wrapping of it.
    else if env.crypto.tryRecover message inner = some m.eoa then .ok true
    else .ok (env.crypto.tryRecover (hashVerify env message) inner == some m.eoa)
  else if m.kind = METHOD_WEBAUTHN ∨ m.kind = METHOD_YUBIKEY then
    verifyWebAuthn env.crypto message inner m.qx m.qy
  else .ok false

-- `identityId` when the blob is valid, zero otherwise; a blob that does not decode reverts.
def verify (message : Bytes32) (blob : Bytes) : Except Error Bytes32 :=
  if blob.length < 4 then .ok 0
  else if blob.take 4 ≠ SIG_MAGIC then .ok 0
  else do
    let (kind, identityId, id, inner) ← orRevert .abiDecode (decodeMethodBlob (blob.drop 4))
    let m := s.methods id
    if m.exists_ = false ∨ m.identityId ≠ identityId ∨ m.kind ≠ kind then return 0
    let valid ← checkMethodSig env message m inner
    return if valid then identityId else 0

/-! ## Methods -/

-- The counter of a kind: `webauthnCount`, `yubikeyCount`, and `eoaCount` for every other value.
def Identity.kindCount (idn : Identity) (kind : Uint8) : Uint8 :=
  if kind = METHOD_WEBAUTHN then idn.webauthnCount
  else if kind = METHOD_YUBIKEY then idn.yubikeyCount
  else idn.eoaCount

def Identity.setKindCount (idn : Identity) (kind : Uint8) (count : Uint8) : Identity :=
  if kind = METHOD_WEBAUTHN then { idn with webauthnCount := count }
  else if kind = METHOD_YUBIKEY then { idn with yubikeyCount := count }
  else { idn with eoaCount := count }

def storeMethod (id identityId : Bytes32) (f : MethodFields) : State :=
  { s with
    methods := update s.methods id { f with identityId := identityId, exists_ := true }
    methodIds := update s.methodIds identityId (s.methodIds identityId ++ [id]) }

def addMethodInternal (identityId : Bytes32) (f : MethodFields) :
    Except Error (Bytes32 × State) := do
  let idn := s.identities identityId
  revertIf (!idn.exists_) .identityNotFound
  revertIf (MAX_METHODS ≤ idn.methodCount) .tooManyMethods
  assertMethodFields f
  let id := computeMethodId env.crypto identityId f
  revertIf (s.methods id).exists_ .methodExists
  let methodCount ← checkedAdd .panic idn.methodCount 1
  let kindCount ← checkedAdd .panic (Identity.kindCount idn f.kind) 1
  let idn := Identity.setKindCount { idn with methodCount := methodCount } f.kind kindCount
  return (id, storeMethod { s with identities := update s.identities identityId idn } id identityId f)

def removeMethodInternal (identityId methodId : Bytes32) : Except Error State := do
  let kind := (s.methods methodId).kind
  let idn := s.identities identityId
  let methodCount ← checkedSub .panic idn.methodCount 1
  let kindCount ← checkedSub .panic (Identity.kindCount idn kind) 1
  let idn := Identity.setKindCount { idn with methodCount := methodCount } kind kindCount
  return { s with
    identities := update s.identities identityId idn
    methods := update s.methods methodId Method.zero
    methodIds := update s.methodIds identityId (swapPop (s.methodIds identityId) methodId) }

def register (identityId qx qy : Bytes32) : Except Error State := do
  revertIf (identityId == 0) .invalidIdentity
  revertIf (s.identities identityId).exists_ .identityExists
  assertP256 qx qy
  let f : MethodFields := ⟨METHOD_WEBAUTHN, qx, qy, 0⟩
  let idn : Identity :=
    { exists_ := true, restoreEnabled := true, methodCount := 1, eoaCount := 0,
      webauthnCount := 1, yubikeyCount := 0 }
  return storeMethod { s with identities := update s.identities identityId idn }
    (computeMethodId env.crypto identityId f) identityId f

def addMethod (identityId : Bytes32) (f : MethodFields) (authorization : Bytes) :
    Except Error State := do
  let signer ← verify env s (hashAddMethod env identityId f) authorization
  revertIf (signer != identityId) .invalidSignature
  let (_, s') ← addMethodInternal env s identityId f
  return s'

def addMethodByEoa (sender : Address) (identityId : Bytes32) (f : MethodFields) :
    Except Error State := do
  revertIf (!isIdentityEoa env s identityId sender) .notIdentityEoa
  let (_, s') ← addMethodInternal env s identityId f
  return s'

def removeMethod (identityId methodId : Bytes32) (authorization : Bytes) : Except Error State := do
  let m := s.methods methodId
  revertIf (!m.exists_ || m.identityId != identityId) .methodNotFound
  revertIf ((s.identities identityId).methodCount ≤ 1) .lastMethod
  let signer ← verify env s (hashRemoveMethod env identityId methodId) authorization
  revertIf (signer != identityId) .invalidSignature
  removeMethodInternal s identityId methodId

/-! ## Restore -/

def clearPending (identityId : Bytes32) : State :=
  { s with pendingRestores := update s.pendingRestores identityId PendingRestore.zero }

def disableRestore (sender : Address) (identityId : Bytes32) : Except Error State := do
  let idn := s.identities identityId
  revertIf (!idn.exists_) .identityNotFound
  revertIf (!idn.restoreEnabled) .restoreAlreadyDisabled
  revertIf (idn.methodCount < 2) .restoreNeedsSecondMethod
  revertIf (idn.eoaCount == 0) .restoreRequiresEoa
  revertIf (!isIdentityEoa env s identityId sender) .notIdentityEoa
  let s := { s with
    identities := update s.identities identityId { idn with restoreEnabled := false } }
  return if (s.pendingRestores identityId).active then clearPending s identityId else s

def initiateRestoreInternal (sender : Address) (timestamp : Uint256) (identityId : Bytes32)
    (f : MethodFields) : Except Error State := do
  revertIf (s.recoveryOperator == 0) .restoreOperatorUnset
  revertIf (sender != s.recoveryOperator) .notRecoveryOperator
  let idn := s.identities identityId
  revertIf (!idn.exists_) .identityNotFound
  revertIf (!idn.restoreEnabled) .restoreIsDisabled
  revertIf (s.pendingRestores identityId).active .restorePending
  assertMethodFields f
  let executeAfter ← checkedAdd .panic (uint64 timestamp) s.restoreDelay
  return { s with
    pendingRestores := update s.pendingRestores identityId
      { f with executeAfter := executeAfter, active := true } }

def executeRestoreInternal (timestamp : Uint256) (identityId : Bytes32) : Except Error State := do
  let pending := s.pendingRestores identityId
  revertIf (!pending.active) .restoreNotPending
  revertIf (timestamp.toNat < pending.executeAfter.toNat) .restoreNotReady
  let idn := s.identities identityId
  revertIf (!idn.exists_) .identityNotFound
  revertIf (!idn.restoreEnabled) .restoreIsDisabled
  let (_, s') ← addMethodInternal env (clearPending s identityId) identityId pending.toMethodFields
  return s'

def restoreAddMethod (sender : Address) (timestamp : Uint256) (identityId : Bytes32)
    (f : MethodFields) : Except Error State := do
  let s' ← initiateRestoreInternal s sender timestamp identityId f
  if s'.restoreDelay = 0 then executeRestoreInternal env s' timestamp identityId
  else return s'

def initiateRestore (sender : Address) (timestamp : Uint256) (identityId : Bytes32)
    (f : MethodFields) : Except Error State :=
  initiateRestoreInternal s sender timestamp identityId f

def cancelRestore (identityId : Bytes32) (authorization : Bytes) : Except Error State := do
  revertIf (!(s.pendingRestores identityId).active) .restoreNotPending
  let signer ← verify env s (hashCancelRestore env identityId) authorization
  revertIf (signer != identityId) .invalidSignature
  return clearPending s identityId

def executeRestore (timestamp : Uint256) (identityId : Bytes32) : Except Error State :=
  executeRestoreInternal env s timestamp identityId

/-! ## Configuration -/

def onlyOwner (sender : Address) : Except Error Unit :=
  revertIf (sender != s.owner) .ownableUnauthorizedAccount

def setRecoveryOperator (sender recoveryOperator : Address) : Except Error State := do
  onlyOwner s sender
  return { s with recoveryOperator := recoveryOperator }

def setRestoreDelay (sender : Address) (restoreDelay : Uint64) : Except Error State := do
  onlyOwner s sender
  return { s with restoreDelay := restoreDelay }

-- Inherited from `Ownable`.
def transferOwnership (sender newOwner : Address) : Except Error State := do
  onlyOwner s sender
  revertIf (newOwner == 0) .ownableInvalidOwner
  return { s with owner := newOwner }

def renounceOwnership (sender : Address) : Except Error State := do
  onlyOwner s sender
  return { s with owner := 0 }

/-! ## Transactions -/

inductive Call
  | register (identityId qx qy : Bytes32)
  | addMethod (identityId : Bytes32) (f : MethodFields) (authorization : Bytes)
  | addMethodByEoa (identityId : Bytes32) (f : MethodFields)
  | removeMethod (identityId methodId : Bytes32) (authorization : Bytes)
  | disableRestore (identityId : Bytes32)
  | restoreAddMethod (identityId : Bytes32) (f : MethodFields)
  | initiateRestore (identityId : Bytes32) (f : MethodFields)
  | cancelRestore (identityId : Bytes32) (authorization : Bytes)
  | executeRestore (identityId : Bytes32)
  | setRecoveryOperator (recoveryOperator : Address)
  | setRestoreDelay (restoreDelay : Uint64)
  | transferOwnership (newOwner : Address)
  | renounceOwnership
deriving DecidableEq

def step (tx : Tx Call) : Except Error State :=
  match tx.call with
  | .register identityId qx qy => register env s identityId qx qy
  | .addMethod identityId f authorization => addMethod env s identityId f authorization
  | .addMethodByEoa identityId f => addMethodByEoa env s tx.sender identityId f
  | .removeMethod identityId methodId authorization =>
    removeMethod env s identityId methodId authorization
  | .disableRestore identityId => disableRestore env s tx.sender identityId
  | .restoreAddMethod identityId f => restoreAddMethod env s tx.sender tx.timestamp identityId f
  | .initiateRestore identityId f => initiateRestore s tx.sender tx.timestamp identityId f
  | .cancelRestore identityId authorization => cancelRestore env s identityId authorization
  | .executeRestore identityId => executeRestore env s tx.timestamp identityId
  | .setRecoveryOperator recoveryOperator => setRecoveryOperator s tx.sender recoveryOperator
  | .setRestoreDelay restoreDelay => setRestoreDelay s tx.sender restoreDelay
  | .transferOwnership newOwner => transferOwnership s tx.sender newOwner
  | .renounceOwnership => renounceOwnership s tx.sender

end OnchainInvoice.IdentityStore
