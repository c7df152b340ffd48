import OnchainInvoice.Wallet.Wallet

/-!
# The `AdminGuardianRecovery` contract

The recovery contract beside one wallet it may be asked to recover.  A call that names another
wallet leaves both as they are; whatever the code at that address calls in turn stands in a run as
transactions of its own.
-/

namespace OnchainInvoice.AdminGuardianRecovery

open Evm AdvancedWalletTypes Lib.Revert

structure State where
  owner : Address
  guardian : Address

structure System where
  recovery : State
  wallet : Wallet.State

structure Env where
  this : Address
  wallet : WalletEip712.Env
  -- `wallet.code.length != 0`
  hasCode : Address → Bool

-- What a call reverts with: an error of this contract or of `Ownable`, or one of the wallet's.
inductive Error
  | notGuardian | invalidWallet | invalidOwnerPubkey
  | ownableUnauthorizedAccount | ownableInvalidOwner
  | abiDecode
  | wallet (e : AdvancedWalletTypes.Error)
deriving DecidableEq

variable (env : Env) (s : System)

def onlyGuardian (sender : Address) : Except Error Unit :=
  revertIf (sender != s.recovery.guardian) .notGuardian

def onlyOwner (sender : Address) : Except Error Unit :=
  revertIf (sender != s.recovery.owner) .ownableUnauthorizedAccount

/-! ## The owner's functions -/

def setGuardian (sender guardian_ : Address) : Except Error System := do
  onlyOwner s sender
  return { s with recovery := { s.recovery with guardian := guardian_ } }

def transferOwnership (sender newOwner : Address) : Except Error System := do
  onlyOwner s sender
  revertIf (newOwner == 0) .ownableInvalidOwner
  return { s with recovery := { s.recovery with owner := newOwner } }

def renounceOwnership (sender : Address) : Except Error System := do
  onlyOwner s sender
  return { s with recovery := { s.recovery with owner := 0 } }

/-! ## Recovery -/

def onWallet (result : Except AdvancedWalletTypes.Error Wallet.State) : Except Error System := do
  let wallet ← result.mapError .wallet
  return { s with wallet := wallet }

-- The calls to `IWalletRecoveryTarget(wallet)`.
def onTarget (wallet : Address) (calls : Wallet.State → Except AdvancedWalletTypes.Error Wallet.State) :
    Except Error System :=
  if wallet = env.wallet.this then onWallet s (calls s.wallet) else .ok s

def initiateOwnerRecovery (sender : Address) (timestamp : Uint256) (wallet : Address)
    (newOwnerPubkey : Bytes) : Except Error System := do
  onlyGuardian s sender
  revertIf (!env.hasCode wallet) .invalidWallet
  let qx ← orRevert .abiDecode (Abi.wordAt newOwnerPubkey 0)
  let qy ← orRevert .abiDecode (Abi.wordAt newOwnerPubkey 32)
  revertIf (qx == 0 && qy == 0) .invalidOwnerPubkey
  onTarget env s wallet fun target => do
    let target ← Wallet.pause target env.this
    Wallet.recoveryAddOwner env.wallet target env.this timestamp qx qy

def executeOwnerRecovery (timestamp : Uint256) (wallet : Address) : Except Error System := do
  revertIf (!env.hasCode wallet) .invalidWallet
  onTarget env s wallet fun target => Wallet.executePendingOwner env.wallet target timestamp

def authorizeRecoveryUpdate (sender wallet : Address) (update : Bytes) : Except Error System := do
  onlyGuardian s sender
  revertIf (!env.hasCode wallet) .invalidWallet
  onTarget env s wallet fun target => Wallet.authorizeRecoveryUpdate target env.this update

/-! ## Transactions -/

inductive Call
  | setGuardian (guardian_ : Address)
  | transferOwnership (newOwner : Address)
  | renounceOwnership
  | initiateOwnerRecovery (wallet : Address) (newOwnerPubkey : Bytes)
  | executeOwnerRecovery (wallet : Address)
  | authorizeRecoveryUpdate (wallet : Address) (update : Bytes)
  | wallet (call : Wallet.Call)
deriving DecidableEq

def step (tx : Tx Call) : Except Error System :=
  match tx.call with
  | .setGuardian guardian_ => setGuardian s tx.sender guardian_
  | .transferOwnership newOwner => transferOwnership s tx.sender newOwner
  | .renounceOwnership => renounceOwnership s tx.sender
  | .initiateOwnerRecovery wallet newOwnerPubkey =>
    initiateOwnerRecovery env s tx.sender tx.timestamp wallet newOwnerPubkey
  | .executeOwnerRecovery wallet => executeOwnerRecovery env s tx.timestamp wallet
  | .authorizeRecoveryUpdate wallet update => authorizeRecoveryUpdate env s tx.sender wallet update
  | .wallet call => onWallet s (Wallet.step env.wallet s.wallet ⟨tx.sender, tx.timestamp, call⟩)

end OnchainInvoice.AdminGuardianRecovery
