import OnchainInvoice.Identity.Store
import OnchainInvoice.Persist.WalletDb
import OnchainInvoice.Session.IdentitySession
import OnchainInvoice.WebAuthn.Readings

/-!
# The identity store as the server reaches it

`identity-onchain.ts` over the model of the contract: each function reads the store, sends at most
one transaction and waits for its receipt.  What the RPC node does on the way is an argument.
-/

namespace OnchainInvoice.IdentityRoutes

open Evm IdentityTypes IdentityStore Lib.Runs
open WebAuthnSignature (getBytes)
open WalletLog (IdentityMethodKind)
open Lib.ByteTexts (hex Text)
open Session (Primitives)

/-! ## Words as texts -/

-- What `ethers` takes as `bytes32`.
def bytes32 (s : String) : Option Bytes32 :=
  ((getBytes s.toList).filter fun bytes => bytes.length = 32).map fun bytes =>
    BitVec.ofNat 256 (beNat bytes)

def hex32 (x : Bytes32) : String := String.ofList ('0' :: 'x' :: hex (wordBytes x))

theorem getBytes_hex (bytes : Bytes) : getBytes ('0' :: 'x' :: hex bytes) = some bytes :=
  WebAuthnVerify.readHex_hex bytes

@[simp] theorem bytes32_hex32 (x : Bytes32) : bytes32 (hex32 x) = some x := by
  have hread : getBytes (hex32 x).toList = some (wordBytes x) := by
    rw [hex32, String.toList_ofList, getBytes_hex]
  have hlength : (wordBytes x).length = 32 := length_wordBytes x
  rw [bytes32, hread, Option.filter_some, if_pos (decide_eq_true hlength), Option.map_some,
    beNat_wordBytes, BitVec.ofNat_toNat, BitVec.setWidth_eq]

def addressOf (s : String) : Address := BitVec.ofNat 160 (beNat ((getBytes s.toList).getD []))

def ZERO_ADDRESS : String := String.ofList ('0' :: 'x' :: List.replicate 40 '0')

def ZERO_WORD : String := String.ofList ('0' :: 'x' :: List.replicate 64 '0')

/-! ## The node -/

-- A transaction is not sent, or it is mined and its receipt is lost or arrives.
inductive Delivery
  | refused | lost | confirmed
deriving DecidableEq

-- What happens while a route waits for the chain: whether its read is answered, what others have
-- mined by the time its transaction is, and the message of what is thrown.
structure Rpc where
  reads : Bool
  meanwhile : List (Tx Call)
  timestamp : Uint256
  delivery : Delivery
  message : String

-- The configuration and the libraries.
structure Env where
  rpcUrl : Option String
  storeAddress : Option String
  deployerPrivateKey : Option String
  -- the address of that key
  deployer : Address
  contract : IdentityStore.Env
  -- `config.wallet`
  walletStoreAddress : Option String
  chainId : Nat
  walletFactory : Option (String × String)
  secret : Text
  tokens : Primitives
  getAddress : String → Option String
  verifyTypedData : String → Nat → String → String → Option String
  hashOtpCode : String → String
  deriveIdentityWalletSalt : String → Nat → String
  predictWalletAddress : String → String → String → String

variable (env : Env)

def present (value : Option String) : Bool := value.any (· ≠ "")

def hasProvider : Bool := present env.rpcUrl && present env.storeAddress

def hasSigner : Bool := hasProvider env && present env.deployerPrivateKey

def Rpc.transaction (rpc : Rpc) (call : Call) : Tx Call := ⟨env.deployer, rpc.timestamp, call⟩

-- The store when the transaction is mined.
def Rpc.before (rpc : Rpc) (store : State) : State := run (step env.contract) store rpc.meanwhile

-- `await store.f(…)` and `await tx.wait()`: whether neither throws.
def send (rpc : Rpc) (call : Call) (store : State) : Bool × State :=
  let store := rpc.before env store
  let tx := rpc.transaction env call
  match rpc.delivery with
  | .refused => (false, store)
  | .lost => (false, commit (step env.contract) store tx)
  | .confirmed =>
    (decide (Succeeds (step env.contract) store tx), commit (step env.contract) store tx)

/-! ## Method ids -/

def kindToNum : IdentityMethodKind → Uint8
  | .yubikey => METHOD_YUBIKEY
  | .eoa => METHOD_EOA
  | .webauthn => METHOD_WEBAUTHN

def eoaAddress (eoa : String) : Option Address :=
  if eoa = ZERO_ADDRESS then some 0 else (env.getAddress eoa).map addressOf

def methodFields (kind : IdentityMethodKind) (qx qy eoa : String) : Option MethodFields := do
  let x ← bytes32 qx
  let y ← bytes32 qy
  let address ← eoaAddress env eoa
  return ⟨kindToNum kind, x, y, address⟩

-- `none` where the encoder throws.
def computeIdentityMethodId (identityId : String) (kind : IdentityMethodKind) (qx qy eoa : String) :
    Option String := do
  let i ← bytes32 identityId
  let f ← methodFields env kind qx qy eoa
  return hex32 (computeMethodId env.contract.crypto i f)

/-! ## Reads and transactions -/

-- The answer, or the message of what is thrown, and the store that is left.
abbrev Answer := Except String Bool × State

def sendOr (rpc : Rpc) (call : Call) (store : State) : Answer :=
  let (arrived, store) := send env rpc call store
  (if arrived then .ok true else .error rpc.message, store)

def identityMethodExistsOnChain (rpc : Rpc) (store : State) (methodId : String) : Bool :=
  if !hasProvider env then true
  else if !rpc.reads then false
  else (bytes32 methodId).any fun id => (store.methods id).exists_

def registerIdentityOnChain (rpc : Rpc) (store : State) (identityId qx qy : String) : Answer :=
  if !hasSigner env then (.ok false, store)
  else if !rpc.reads then (.error rpc.message, store)
  else
    match bytes32 identityId, bytes32 qx, bytes32 qy with
    | some i, some x, some y =>
      if identityExists store i then (.ok true, store)
      else sendOr env rpc (.register i x y) store
    | _, _, _ => (.error rpc.message, store)

def addIdentityMethodOnChain (rpc : Rpc) (store : State) (identityId : String)
    (kind : IdentityMethodKind) (qx qy eoa authorization : String) : Answer :=
  if !hasSigner env then (.ok false, store)
  else
    match bytes32 identityId, methodFields env kind qx qy eoa, getBytes authorization.toList with
    | some i, some f, some bytes => sendOr env rpc (.addMethod i f bytes) store
    | _, _, _ => (.error rpc.message, store)

def removeIdentityMethodOnChain (rpc : Rpc) (store : State)
    (identityId methodId authorization : String) : Answer :=
  if !hasSigner env then (.ok false, store)
  else
    match bytes32 identityId, bytes32 methodId, getBytes authorization.toList with
    | some i, some id, some bytes => sendOr env rpc (.removeMethod i id bytes) store
    | _, _, _ => (.error rpc.message, store)

-- With a delay the restore is only started.
def restoreIdentityMethodOnChain (rpc : Rpc) (store : State) (identityId : String)
    (kind : IdentityMethodKind) (qx qy : String) : Answer :=
  if !hasSigner env then (.ok false, store)
  else if !rpc.reads then (.error rpc.message, store)
  else
    match bytes32 identityId, methodFields env kind qx qy ZERO_ADDRESS with
    | some i, some f =>
      if store.restoreDelay = 0 then sendOr env rpc (.restoreAddMethod i f) store
      else sendOr env rpc (.initiateRestore i f) store
    | _, _ => (.error rpc.message, store)

end OnchainInvoice.IdentityRoutes
