import OnchainInvoice.Evm.Checksum
import OnchainInvoice.Evm.TypedData
import OnchainInvoice.Session.IdentityOnChain
import OnchainInvoice.Wallet.Types

/-!
# Requests for a signature

The typed data of `identity-store.ts` and of `wallet-eip712.ts`: from the texts that the client has
to the hash that is signed.  `none` is where `ethers` throws.
-/

namespace OnchainInvoice.Signing

open Evm IdentityTypes
open Evm.Checksum (getAddress addressText)
open Evm.TypedData (Value Member Struct)
open IdentityRoutes (bytes32 hex32 addressOf)

variable (crypto : Crypto)

/-! ## The encoder of `ethers` -/

inductive JsValue
  | text (s : String)
  | bigint (n : Nat)

structure TypedDataField where
  name : String
  type : String

abbrev JsObject : Type := List (String × JsValue)

def uintWord (bits n : Nat) : Option Value :=
  if n < 2 ^ bits then some (.word (BitVec.ofNat 256 n)) else none

-- The types that occur.
def encodeValue (type : String) (value : JsValue) : Option Value :=
  match value with
  | .text s =>
    if type = "string" then some (.text s)
    else if type = "address" then
      (getAddress crypto s).map fun address => .word (addressWord (addressOf address))
    else if type = "bytes32" then (bytes32 s).map .word
    else none
  | .bigint n =>
    if type = "uint8" then uintWord 8 n
    else if type = "uint256" then uintWord 256 n
    else none

def encodeMember (object : JsObject) (field : TypedDataField) : Option Member := do
  let value ← object.lookup field.name
  let encoded ← encodeValue crypto field.type value
  return ⟨field.type, field.name, encoded⟩

def encodeStruct (name : String) (fields : List TypedDataField) (object : JsObject) :
    Option Struct := do
  let members ← fields.mapM (encodeMember crypto object)
  return ⟨name, members⟩

structure Eip712Domain where
  name : String
  version : String
  chainId : Nat
  verifyingContract : String

def EIP712_DOMAIN_FIELDS : List TypedDataField :=
  [⟨"name", "string"⟩, ⟨"version", "string"⟩, ⟨"chainId", "uint256"⟩,
    ⟨"verifyingContract", "address"⟩]

def Eip712Domain.object (domain : Eip712Domain) : JsObject :=
  [("name", .text domain.name), ("version", .text domain.version),
    ("chainId", .bigint domain.chainId), ("verifyingContract", .text domain.verifyingContract)]

-- `TypedDataEncoder.hash`
def typedDataHash (domain : Eip712Domain) (types : String × List TypedDataField)
    (message : JsObject) : Option String := do
  let domain ← encodeStruct crypto "EIP712Domain" EIP712_DOMAIN_FIELDS domain.object
  let message ← encodeStruct crypto types.1 types.2 message
  return hex32 (TypedData.hash crypto domain message)

/-! ## Identities -/

def IDENTITY_EIP712_NAME : String := "Trustless Commerce Identity"
def IDENTITY_EIP712_VERSION : String := "1"

def IDENTITY_VERIFY_TYPES : String × List TypedDataField := ("Verify", [⟨"message", "bytes32"⟩])

def IDENTITY_ADD_METHOD_TYPES : String × List TypedDataField :=
  ("AddMethod", [⟨"identityId", "bytes32"⟩, ⟨"kind", "uint8"⟩, ⟨"qx", "bytes32"⟩,
    ⟨"qy", "bytes32"⟩, ⟨"eoa", "address"⟩])

def IDENTITY_REMOVE_METHOD_TYPES : String × List TypedDataField :=
  ("RemoveMethod", [⟨"identityId", "bytes32"⟩, ⟨"methodId", "bytes32"⟩])

def IDENTITY_CANCEL_RESTORE_TYPES : String × List TypedDataField :=
  ("CancelRestore", [⟨"identityId", "bytes32"⟩])

def identityEip712Domain (store : String) (chainId : Nat) : Option Eip712Domain := do
  let verifyingContract ← getAddress crypto store
  return ⟨IDENTITY_EIP712_NAME, IDENTITY_EIP712_VERSION, chainId, verifyingContract⟩

def hashIdentityVerify (store : String) (chainId : Nat) (message : String) : Option String := do
  let domain ← identityEip712Domain crypto store chainId
  typedDataHash crypto domain IDENTITY_VERIFY_TYPES [("message", .text message)]

structure MethodInput where
  identityId : String
  kind : Nat
  qx : String
  qy : String
  eoa : String

def hashIdentityAddMethod (store : String) (chainId : Nat) (input : MethodInput) :
    Option String := do
  let domain ← identityEip712Domain crypto store chainId
  let eoa ← getAddress crypto input.eoa
  typedDataHash crypto domain IDENTITY_ADD_METHOD_TYPES
    [("identityId", .text input.identityId), ("kind", .bigint input.kind), ("qx", .text input.qx),
      ("qy", .text input.qy), ("eoa", .text eoa)]

def hashIdentityRemoveMethod (store : String) (chainId : Nat) (identityId methodId : String) :
    Option String := do
  let domain ← identityEip712Domain crypto store chainId
  typedDataHash crypto domain IDENTITY_REMOVE_METHOD_TYPES
    [("identityId", .text identityId), ("methodId", .text methodId)]

def hashIdentityCancelRestore (store : String) (chainId : Nat) (identityId : String) :
    Option String := do
  let domain ← identityEip712Domain crypto store chainId
  typedDataHash crypto domain IDENTITY_CANCEL_RESTORE_TYPES [("identityId", .text identityId)]

/-! ## Wallets -/

def WALLET_EIP712_NAME : String := "Trustless Commerce Wallet"
def WALLET_EIP712_VERSION : String := "1"

def ADD_OWNER_TYPES : String × List TypedDataField :=
  ("AddOwner", [⟨"wallet", "address"⟩, ⟨"owner", "address"⟩])

def ADD_KEY_TYPES : String × List TypedDataField :=
  ("AddKey", [⟨"wallet", "address"⟩, ⟨"entityId", "bytes32"⟩, ⟨"owner", "address"⟩])

def USER_OP_TYPES : String × List TypedDataField := ("UserOp", [⟨"userOpHash", "bytes32"⟩])

def RECOVER_TYPES : String × List TypedDataField :=
  ("Recover", [⟨"wallet", "address"⟩, ⟨"challenge", "string"⟩, ⟨"signer", "address"⟩])

def walletEip712Domain (wallet : String) (chainId : Nat) : Option Eip712Domain := do
  let verifyingContract ← getAddress crypto wallet
  return ⟨WALLET_EIP712_NAME, WALLET_EIP712_VERSION, chainId, verifyingContract⟩

structure TypedDataRequest where
  domain : Eip712Domain
  types : String × List TypedDataField
  message : JsObject

def addOwnerTypedData (wallet owner : String) (chainId : Nat) : Option TypedDataRequest := do
  let domain ← walletEip712Domain crypto wallet chainId
  let wallet ← getAddress crypto wallet
  let owner ← getAddress crypto owner
  return ⟨domain, ADD_OWNER_TYPES, [("wallet", .text wallet), ("owner", .text owner)]⟩

def addKeyTypedData (wallet entityId owner : String) (chainId : Nat) :
    Option TypedDataRequest := do
  let domain ← walletEip712Domain crypto wallet chainId
  let wallet ← getAddress crypto wallet
  let owner ← getAddress crypto owner
  return ⟨domain, ADD_KEY_TYPES,
    [("wallet", .text wallet), ("entityId", .text entityId), ("owner", .text owner)]⟩

def userOpTypedData (wallet userOpHash : String) (chainId : Nat) : Option TypedDataRequest := do
  let domain ← walletEip712Domain crypto wallet chainId
  return ⟨domain, USER_OP_TYPES, [("userOpHash", .text userOpHash)]⟩

def recoverTypedData (wallet challenge signer : String) (chainId : Nat) :
    Option TypedDataRequest := do
  let domain ← walletEip712Domain crypto wallet chainId
  let wallet ← getAddress crypto wallet
  let signer ← getAddress crypto signer
  return ⟨domain, RECOVER_TYPES,
    [("wallet", .text wallet), ("challenge", .text challenge), ("signer", .text signer)]⟩

def TypedDataRequest.hash (td : TypedDataRequest) : Option String :=
  typedDataHash crypto td.domain td.types td.message

def hashAddOwnerTypedData (wallet owner : String) (chainId : Nat) : Option String := do
  let td ← addOwnerTypedData crypto wallet owner chainId
  td.hash crypto

def hashAddKeyTypedData (wallet entityId owner : String) (chainId : Nat) : Option String := do
  let td ← addKeyTypedData crypto wallet entityId owner chainId
  td.hash crypto

def hashUserOpTypedData (wallet userOpHash : String) (chainId : Nat) : Option String := do
  let td ← userOpTypedData crypto wallet userOpHash chainId
  td.hash crypto

def hashRecoverTypedData (wallet challenge signer : String) (chainId : Nat) : Option String := do
  let td ← recoverTypedData crypto wallet challenge signer chainId
  td.hash crypto

end OnchainInvoice.Signing
