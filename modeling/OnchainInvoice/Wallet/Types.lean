import OnchainInvoice.Evm.Crypto
import OnchainInvoice.Lib.Revert

/-!
# Wallet types and hashes

`AdvancedWalletTypes` with the errors of the wallet contracts, and `WalletEip712`: the typed data an
EOA owner or key signs, and the sentinel under which an EOA is stored as an owner.
-/

namespace OnchainInvoice.AdvancedWalletTypes

open Evm

def KEY_WEBAUTHN : Uint8 := 0
def KEY_YUBIKEY : Uint8 := 1
def KEY_EOA : Uint8 := 2

def MAX_ENTITIES : Uint8 := 255

-- "AWD1"
def ADVANCED_SIG_MAGIC : Bytes := [0x41, 0x57, 0x44, 0x31]

structure KeyRecord where
  entityId : Bytes32
  keyType : Uint8
  qx : Bytes32
  qy : Bytes32
  eoa : Address
deriving DecidableEq

def KeyRecord.zero : KeyRecord := ⟨0, 0, 0, 0, 0⟩

structure EntitySig where
  keyId : Bytes32
  sig : Bytes
deriving DecidableEq

-- The errors of `Wallet` and of what it inherits, and the two reverts without a name of their own.
inductive Error
  | accountUnauthorized | invalidInitialization
  | notRecovery | walletPaused | walletNotPaused | noPendingOwner | pendingOwnerNotReady
  | pendingOwnerActive | invalidSignature
  | ownerAlreadyExists | ownerNotFound | lastOwner | invalidOwnerKey
  | advancedModeActive | notAdvancedMode | entityAlreadyExists | entityNotFound
  | keyAlreadyExists | keyNotFound | invalidThreshold | invalidKeyType | invalidEntitySig
  | entityHasKeys | lastKey | recoveryDisabledInAdvanced | cannotEnableWithPendingRecovery
  | tooManyEntities
  | abiDecode | panic
deriving DecidableEq

end OnchainInvoice.AdvancedWalletTypes

namespace OnchainInvoice.WalletEip712

open Evm

-- What `address(this)`, `block.chainid`, `entryPoint()` and the precompiles are for a wallet.
structure Env where
  crypto : Crypto
  this : Address
  chainid : Uint256
  entryPoint : Address

variable (env : Env)

def hashString (text : String) : Bytes32 := env.crypto.keccak256 (utf8 text)

def EIP712_DOMAIN_TYPEHASH : Bytes32 := hashString env
  "EIP712Domain(string name,string version,uint256 chainId,address verifyingContract)"
def NAME_HASH : Bytes32 := hashString env "Trustless Commerce Wallet"
def VERSION_HASH : Bytes32 := hashString env "1"
def ADD_OWNER_TYPEHASH : Bytes32 := hashString env "AddOwner(address wallet,address owner)"
def ADD_KEY_TYPEHASH : Bytes32 :=
  hashString env "AddKey(address wallet,bytes32 entityId,address owner)"
def USER_OP_TYPEHASH : Bytes32 := hashString env "UserOp(bytes32 userOpHash)"

-- Sentinel `qy` for EOA owners; their `qx` is the padded address.
def EOA_OWNER_QY : Bytes32 := hashString env "TrustlessCommerce.EOAOwner"

def domainSeparator (wallet : Address) : Bytes32 :=
  env.crypto.keccak256 (encodeWords
    [EIP712_DOMAIN_TYPEHASH env, NAME_HASH env, VERSION_HASH env, env.chainid, addressWord wallet])

def typedDataHash (wallet : Address) (words : List Uint256) : Bytes32 :=
  env.crypto.toTypedDataHash (domainSeparator env wallet)
    (env.crypto.keccak256 (encodeWords words))

def hashAddOwner (wallet owner : Address) : Bytes32 :=
  typedDataHash env wallet [ADD_OWNER_TYPEHASH env, addressWord wallet, addressWord owner]

def hashAddKey (wallet : Address) (entityId : Bytes32) (owner : Address) : Bytes32 :=
  typedDataHash env wallet
    [ADD_KEY_TYPEHASH env, addressWord wallet, entityId, addressWord owner]

def hashUserOp (wallet : Address) (userOpHash : Bytes32) : Bytes32 :=
  typedDataHash env wallet [USER_OP_TYPEHASH env, userOpHash]

def eoaOwnerQx (owner : Address) : Bytes32 := addressWord owner

def eoaFromQx (qx : Bytes32) : Address := wordAddress qx

def isEoaOwnerQy (qy : Bytes32) : Bool := qy == EOA_OWNER_QY env

def eoaOwnerCoords (owner : Address) : Bytes32 × Bytes32 := (eoaOwnerQx owner, EOA_OWNER_QY env)

-- The zero address stands for every failure.
def recover (digest : Bytes32) (signature : Bytes) : Address :=
  match env.crypto.tryRecover digest signature with
  | some recovered => recovered
  | none => 0

def recoverAddOwner (wallet owner : Address) (signature : Bytes) : Bool :=
  recover env (hashAddOwner env wallet owner) signature == owner

def recoverAddKey (wallet : Address) (entityId : Bytes32) (owner : Address) (signature : Bytes) :
    Bool :=
  recover env (hashAddKey env wallet entityId owner) signature == owner

def recoverUserOp (wallet : Address) (userOpHash : Bytes32) (owner : Address)
    (signature : Bytes) : Bool :=
  recover env (hashUserOp env wallet userOpHash) signature == owner

variable {env}

@[simp] theorem eoaFromQx_eoaOwnerQx (owner : Address) : eoaFromQx (eoaOwnerQx owner) = owner :=
  wordAddress_addressWord owner

/-- Recovering an address other than zero is a successful recovery. -/
theorem recover_eq {digest : Bytes32} {signature : Bytes} {owner : Address} (h : owner ≠ 0) :
    recover env digest signature = owner ↔ env.crypto.tryRecover digest signature = some owner := by
  unfold recover
  cases hrec : env.crypto.tryRecover digest signature with
  | none => simpa using h.symm
  | some recovered => simp

theorem recover_eq_zero {digest : Bytes32} {signature : Bytes} :
    recover env digest signature = 0 ↔ env.crypto.tryRecover digest signature = none := by
  unfold recover
  cases hrec : env.crypto.tryRecover digest signature with
  | none => simp
  | some recovered => simpa using env.crypto.tryRecover_ne_zero _ _ _ hrec

end OnchainInvoice.WalletEip712
