import OnchainInvoice.Evm.Create2
import OnchainInvoice.Identity.IdentityWallet
import OnchainInvoice.Wallet.Wallet

/-!
# The wallet factories

`IdentityWalletFactory` and `WalletFactory` over one chain state, and `wallet-address.ts`, which
derives the salt of a wallet and predicts its address off chain.
-/

namespace OnchainInvoice

/-! ## `wallet-address.ts` -/

namespace WalletAddress

open Evm

variable (crypto : Crypto)

def WALLET_SALT_VERSION : String := "TC-WALLET-V1"
def IDENTITY_WALLET_SALT_VERSION : String := "TC-IDENTITY-WALLET-V1"

-- `abi.encode(string, word, word)`
def encodeVersioned (version : String) (a b : Uint256) : Bytes :=
  encodeWords [0x60, a, b] ++ Abi.encodeBytes (utf8 version)

def deriveWalletSalt (qx qy : Bytes32) : Bytes32 :=
  crypto.keccak256 (encodeVersioned WALLET_SALT_VERSION qx qy)

def deriveIdentityWalletSalt (identityId : Bytes32) (index : Uint256) : Bytes32 :=
  crypto.keccak256 (encodeVersioned IDENTITY_WALLET_SALT_VERSION identityId index)

def cloneInitCodeHash (implementation : Address) : Bytes32 :=
  crypto.keccak256 (cloneInitCode implementation)

def predictWalletAddress (factory implementation : Address) (salt : Bytes32) : Address :=
  create2Address crypto factory salt (cloneInitCodeHash crypto implementation)

end WalletAddress

/-! ## The chain -/

namespace Factories

open Evm

-- The deployment.  The factories hold the implementations and the store as immutables.
structure Env where
  crypto : Crypto
  chainid : Uint256
  entryPoint : Address
  store : Address
  identityWalletFactory : Address
  identityWalletImplementation : Address
  walletFactory : Address
  walletImplementation : Address

def Env.storeEnv (env : Env) : IdentityStore.Env := ⟨env.crypto, env.store, env.chainid⟩

def Env.walletEnv (env : Env) (wallet : Address) : WalletEip712.Env :=
  ⟨env.crypto, wallet, env.chainid, env.entryPoint⟩

-- A deployed clone, as it was initialised.
inductive Account
  | identityWallet (s : IdentityWallet.State)
  | wallet (s : Wallet.State)

-- `owner`, `recoveryImpl` and `recoveryTimelock` are storage of `WalletFactory`.
structure State where
  store : IdentityStore.State
  owner : Address
  recoveryImpl : Address
  recoveryTimelock : Uint256
  code : Address → Option Account

-- The chain before any `createAccount`.
def deployed (store : IdentityStore.State) (owner recoveryImpl : Address)
    (recoveryTimelock : Uint256) : State :=
  ⟨store, owner, recoveryImpl, recoveryTimelock, fun _ => none⟩

-- `Clones.cloneDeterministic` with the initialisation that follows it.
def deployClone (s : State) (wallet : Address) (account : Account) : State :=
  { s with code := Function.update s.code wallet (some account) }

-- What `createAccount` reverts with: an error of a factory, or one that a call of it bubbles up.
inductive Error
  | zeroAddress | ownableUnauthorizedAccount | identityNotFound
  | identity (e : IdentityTypes.Error)
  | wallet (e : AdvancedWalletTypes.Error)
deriving DecidableEq

end Factories

/-! ## `IdentityWalletFactory` -/

namespace IdentityWalletFactory

open Evm Factories Lib.Revert

variable (env : Env) (s : State)

def predictAddress (salt : Bytes32) : Address :=
  cloneAddress env.crypto env.identityWalletImplementation salt env.identityWalletFactory

def createAccount (identityId salt : Bytes32) : Except Error State := do
  revertIf (!IdentityStore.identityExists s.store identityId) .identityNotFound
  let wallet := predictAddress env salt
  if (s.code wallet).isNone then
    let w ← (IdentityWallet.initialize_ s.store IdentityWallet.clone env.store
      identityId).mapError .identity
    return deployClone s wallet (.identityWallet w)
  else return s

end IdentityWalletFactory

/-! ## `WalletFactory` -/

namespace WalletFactory

open Evm Factories Lib.Revert

variable (env : Env) (s : State)

def onlyOwner (sender : Address) : Except Error Unit :=
  revertIf (sender != s.owner) .ownableUnauthorizedAccount

def setRecoveryImpl (sender recoveryImpl : Address) : Except Error State := do
  onlyOwner s sender
  revertIf (recoveryImpl == 0) .zeroAddress
  return { s with recoveryImpl := recoveryImpl }

def setRecoveryTimelock (sender : Address) (recoveryTimelock : Uint256) : Except Error State := do
  onlyOwner s sender
  return { s with recoveryTimelock := recoveryTimelock }

def predictAddress (salt : Bytes32) : Address :=
  cloneAddress env.crypto env.walletImplementation salt env.walletFactory

def createAccount (qx qy salt : Bytes32) : Except Error State := do
  let wallet := predictAddress env salt
  if (s.code wallet).isNone then
    let w ← (Wallet.initialize_ (env.walletEnv wallet) Wallet.clone qx qy s.recoveryImpl
      s.recoveryTimelock).mapError .wallet
    return deployClone s wallet (.wallet w)
  else return s

end WalletFactory

/-! ## Transactions -/

namespace Factories

open Evm

inductive Call
  | createIdentityAccount (identityId salt : Bytes32)
  | createAccount (qx qy salt : Bytes32)
  | setRecoveryImpl (recoveryImpl : Address)
  | setRecoveryTimelock (recoveryTimelock : Uint256)
  | store (call : IdentityStore.Call)

-- A transaction to the store reaches the factories through `identityExists` only.
def storeCall (env : Env) (s : State) (tx : Tx IdentityStore.Call) : Except Error State := do
  let store ← (IdentityStore.step env.storeEnv s.store tx).mapError .identity
  return { s with store := store }

def step (env : Env) (s : State) (tx : Tx Call) : Except Error State :=
  match tx.call with
  | .createIdentityAccount identityId salt =>
    IdentityWalletFactory.createAccount env s identityId salt
  | .createAccount qx qy salt => WalletFactory.createAccount env s qx qy salt
  | .setRecoveryImpl recoveryImpl => WalletFactory.setRecoveryImpl s tx.sender recoveryImpl
  | .setRecoveryTimelock recoveryTimelock =>
    WalletFactory.setRecoveryTimelock s tx.sender recoveryTimelock
  | .store call => storeCall env s ⟨tx.sender, tx.timestamp, call⟩

end Factories

end OnchainInvoice
