import OnchainInvoice.Identity.Store
import OnchainInvoice.Lib.Bitmap

/-!
# The `IdentityWallet` contract

A wallet clone from before its initialisation on, and the chain of the store and one such wallet.
-/

namespace OnchainInvoice.IdentityWallet

open Evm IdentityTypes Lib.Revert Function

structure State where
  initialized : Bool
  store : Address
  identityId : Bytes32
  superWallet : Bool
  threshold : Uint8
  signerCount : Uint8
  isSigner : Bytes32 → Bool
  signerAt : Uint8 → Bytes32

-- A clone that has just been created.
def clone : State where
  initialized := false
  store := 0
  identityId := 0
  superWallet := false
  threshold := 0
  signerCount := 0
  isSigner _ := false
  signerAt _ := 0

-- `storeState` is what `store_.identityExists` reads.
def initialize_ (storeState : IdentityStore.State) (s : State) (store_ : Address)
    (identityId_ : Bytes32) : Except Error State := do
  revertIf s.initialized .invalidInitialization
  revertIf (store_ == 0) .zeroAddress
  revertIf (identityId_ == 0) .invalidIdentity
  revertIf (!IdentityStore.identityExists storeState identityId_) .identityNotFound
  return { s with initialized := true, store := store_, identityId := identityId_ }

structure Env where
  this : Address
  entryPoint : Address

variable (env : Env) (storeState : IdentityStore.State) (s : State)

def onlyEntryPointOrSelf (sender : Address) : Except Error Unit :=
  revertIf (sender != env.entryPoint && sender != env.this) .accountUnauthorized

/-! ## Signers -/

def addSignerInternal (signerId : Bytes32) : Except Error State := do
  revertIf (signerId == 0) .invalidIdentity
  revertIf (!IdentityStore.identityExists storeState signerId) .identityNotFound
  revertIf (s.isSigner signerId) .signerExists
  let signerCount ← checkedAdd .panic s.signerCount 1
  return { s with
    isSigner := update s.isSigner signerId true
    signerAt := update s.signerAt s.signerCount signerId
    signerCount := signerCount }

def enableSuper (sender : Address) (extraIdentities : List Bytes32) (threshold_ : Uint8) :
    Except Error State := do
  onlyEntryPointOrSelf env sender
  revertIf s.superWallet .superAlreadyEnabled
  revertIf (threshold_ < 1) .invalidThreshold
  let s ← addSignerInternal storeState s s.identityId
  let s ← extraIdentities.foldlM (addSignerInternal storeState) s
  revertIf (s.signerCount < threshold_) .invalidThreshold
  return { s with superWallet := true, threshold := threshold_ }

def addSigner (sender : Address) (signerId : Bytes32) : Except Error State := do
  onlyEntryPointOrSelf env sender
  revertIf (!s.superWallet) .notSuperWallet
  addSignerInternal storeState s signerId

-- The search loops: the first index below `count` at which `id` stands.
def findSigner (signerAt : Uint8 → Bytes32) (id : Bytes32) (count : Uint8) : Option Uint8 :=
  ((List.range count.toNat).map (BitVec.ofNat 8)).find? fun i => signerAt i == id

-- `signerAt[i] = signerAt[last]; delete signerAt[last]` at the place of the signer.
def dropSigner (signerAt : Uint8 → Bytes32) (signerId : Bytes32) (count last : Uint8) :
    Uint8 → Bytes32 :=
  match findSigner signerAt signerId count with
  | some i => update (update signerAt i (signerAt last)) last 0
  | none => signerAt

def removeSigner (sender : Address) (signerId : Bytes32) : Except Error State := do
  onlyEntryPointOrSelf env sender
  revertIf (!s.superWallet) .notSuperWallet
  revertIf (!s.isSigner signerId) .signerNotFound
  revertIf (s.signerCount ≤ s.threshold) .invalidThreshold
  let signerCount ← checkedSub .panic s.signerCount 1
  let count ← checkedAdd .panic signerCount 1
  return { s with
    isSigner := update s.isSigner signerId false
    signerAt := dropSigner s.signerAt signerId count signerCount
    signerCount := signerCount }

def setThreshold (sender : Address) (threshold_ : Uint8) : Except Error State := do
  onlyEntryPointOrSelf env sender
  revertIf (!s.superWallet) .notSuperWallet
  revertIf (threshold_ < 1 || s.signerCount < threshold_) .invalidThreshold
  return { s with threshold := threshold_ }

/-! ## Signatures -/

section Signatures

-- `store.verify(hash, blob)`
variable (verify : Bytes32 → Bytes → Except Error Bytes32)

-- The loop of `_validateSuper`; `none` is the `return false` inside it.
def collectVotes (hash : Bytes32) : List Bytes → Uint8 → Uint256 → Except Error (Option Uint8)
  | [], votes, _ => .ok (some votes)
  | blob :: blobs, votes, seen => do
    let id ← verify hash blob
    if id = 0 ∨ s.isSigner id = false then return none
    match findSigner s.signerAt id s.signerCount with
    | none => return none
    | some bit =>
      let mask : Uint256 := Lib.Bitmap.mask bit.toNat
      if seen &&& mask ≠ 0 then return none
      let votes ← checkedAdd .panic votes 1
      collectVotes hash blobs votes (seen ||| mask)

def validateSuper (hash : Bytes32) (blobs : List Bytes) : Except Error Bool := do
  match ← collectVotes s verify hash blobs 0 0 with
  | none => return false
  | some votes => return decide (s.threshold ≤ votes)

def rawSignatureValidation (hash : Bytes32) (signature : Bytes) : Except Error Bool :=
  if s.superWallet then
    if 4 ≤ signature.length ∧ signature.take 4 = SUPER_MAGIC then do
      let blobs ← decodeSuperBlobs signature
      validateSuper s verify hash blobs
    else do
      -- A single identity blob still valid when threshold is 1.
      let id ← verify hash signature
      return id != 0 && s.isSigner id && decide (s.threshold ≤ 1)
  else do
    let id ← verify hash signature
    return id == s.identityId

end Signatures

/-! ## The store and the wallet -/

structure System where
  store : IdentityStore.State
  wallet : State

-- `storeEnv.this` is the store the wallet was initialised with.
structure SystemEnv where
  storeEnv : IdentityStore.Env
  walletEnv : Env

inductive Call
  | initialize_ (store_ : Address) (identityId_ : Bytes32)
  | enableSuper (extraIdentities : List Bytes32) (threshold_ : Uint8)
  | addSigner (signerId : Bytes32)
  | removeSigner (signerId : Bytes32)
  | setThreshold (threshold_ : Uint8)
  | store (call : IdentityStore.Call)
deriving DecidableEq

def walletCall (t : System) (result : Except Error State) : Except Error System := do
  let wallet ← result
  return { t with wallet := wallet }

def storeCall (env : SystemEnv) (t : System) (tx : Tx IdentityStore.Call) :
    Except Error System := do
  let store ← IdentityStore.step env.storeEnv t.store tx
  return { t with store := store }

-- The wallet is past its initialisation, so `initialize` reverts before it asks any store.
def step (env : SystemEnv) (t : System) (tx : Tx Call) : Except Error System :=
  match tx.call with
  | .initialize_ store_ identityId_ => walletCall t (initialize_ t.store t.wallet store_ identityId_)
  | .enableSuper extraIdentities threshold_ =>
    walletCall t (enableSuper env.walletEnv t.store t.wallet tx.sender extraIdentities threshold_)
  | .addSigner signerId => walletCall t (addSigner env.walletEnv t.store t.wallet tx.sender signerId)
  | .removeSigner signerId => walletCall t (removeSigner env.walletEnv t.wallet tx.sender signerId)
  | .setThreshold threshold_ => walletCall t (setThreshold env.walletEnv t.wallet tx.sender threshold_)
  | .store call => storeCall env t ⟨tx.sender, tx.timestamp, call⟩

end OnchainInvoice.IdentityWallet
