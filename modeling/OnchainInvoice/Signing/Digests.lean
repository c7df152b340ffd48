import OnchainInvoice.Signing.Requests

/-!
# What is signed

The client computes the digest that the contract computes for what its texts spell, and a digest is
of one request only: of one contract, one chain, one kind of message and one message.
-/

namespace OnchainInvoice.Signing

open Evm Evm.TypedData IdentityTypes
open Evm.Checksum (getAddress addressText getAddress_eq_some getAddress_addressText)
open IdentityRoutes (bytes32 hex32 addressOf)

/-! ## Requests -/

inductive Message
  | verify (message : Bytes32)
  | addMethod (identityId : Bytes32) (f : MethodFields)
  | removeMethod (identityId methodId : Bytes32)
  | cancelRestore (identityId : Bytes32)
  | addOwner (owner : Address)
  | addKey (entityId : Bytes32) (owner : Address)
  | userOp (userOpHash : Bytes32)
  | recover (challenge : String) (signer : Address)
deriving DecidableEq

/-- A message to the contract at an address of a chain. -/
structure Request where
  contract : Address
  chainId : Uint256
  message : Message
deriving DecidableEq

def Message.forStore : Message → Bool
  | .verify .. | .addMethod .. | .removeMethod .. | .cancelRestore .. => true
  | _ => false

def Message.kind : Message → Fin 8
  | .verify .. => 0
  | .addMethod .. => 1
  | .removeMethod .. => 2
  | .cancelRestore .. => 3
  | .addOwner .. => 4
  | .addKey .. => 5
  | .userOp .. => 6
  | .recover .. => 7

def typesOf (kind : Fin 8) : String × List TypedDataField :=
  [IDENTITY_VERIFY_TYPES, IDENTITY_ADD_METHOD_TYPES, IDENTITY_REMOVE_METHOD_TYPES,
    IDENTITY_CANCEL_RESTORE_TYPES, ADD_OWNER_TYPES, ADD_KEY_TYPES, USER_OP_TYPES,
    RECOVER_TYPES].get kind

def nameOf (kind : Fin 8) : String :=
  if kind < 4 then IDENTITY_EIP712_NAME else WALLET_EIP712_NAME

def Request.values (r : Request) : List Value :=
  match r.message with
  | .verify message => [.word message]
  | .addMethod i f =>
    [.word i, .word (f.kind.setWidth 256), .word f.qx, .word f.qy, .word (addressWord f.eoa)]
  | .removeMethod i id => [.word i, .word id]
  | .cancelRestore i => [.word i]
  | .addOwner owner => [.word (addressWord r.contract), .word (addressWord owner)]
  | .addKey entityId owner =>
    [.word (addressWord r.contract), .word entityId, .word (addressWord owner)]
  | .userOp userOpHash => [.word userOpHash]
  | .recover challenge signer =>
    [.word (addressWord r.contract), .text challenge, .word (addressWord signer)]

def structOf (types : String × List TypedDataField) (values : List Value) : Struct :=
  ⟨types.1, List.zipWith (fun field value => ⟨field.type, field.name, value⟩) types.2 values⟩

def Request.struct (r : Request) : Struct := structOf (typesOf r.message.kind) r.values

def Request.domain (r : Request) : Struct :=
  structOf ("EIP712Domain", EIP712_DOMAIN_FIELDS)
    [.text (if r.message.forStore then IDENTITY_EIP712_NAME else WALLET_EIP712_NAME), .text "1",
      .word r.chainId, .word (addressWord r.contract)]

variable (crypto : Crypto)

def Request.digest (r : Request) : Bytes32 := TypedData.hash crypto r.domain r.struct

def Request.hashed (r : Request) : List Bytes := TypedData.hashed crypto r.domain r.struct

-- What the contract checks a signature against; nothing on chain reads the last message.
def Request.onChain (r : Request) : Option Bytes32 :=
  let store : IdentityStore.Env := ⟨crypto, r.contract, r.chainId⟩
  let wallet : WalletEip712.Env := ⟨crypto, r.contract, r.chainId, 0⟩
  match r.message with
  | .verify message => some (IdentityStore.hashVerify store message)
  | .addMethod i f => some (IdentityStore.hashAddMethod store i f)
  | .removeMethod i id => some (IdentityStore.hashRemoveMethod store i id)
  | .cancelRestore i => some (IdentityStore.hashCancelRestore store i)
  | .addOwner owner => some (WalletEip712.hashAddOwner wallet r.contract owner)
  | .addKey entityId owner => some (WalletEip712.hashAddKey wallet r.contract entityId owner)
  | .userOp userOpHash => some (WalletEip712.hashUserOp wallet r.contract userOpHash)
  | .recover .. => none

variable {crypto}

theorem onChain_eq (r : Request) : ∀ d ∈ r.onChain crypto, r.digest crypto = d := by
  obtain ⟨contract, chainId, message⟩ := r
  intro d hd
  cases message <;> cases hd <;> rfl

/-! ## One request for a digest -/

theorem encodeType_struct (r : Request) :
    r.struct.encodeType = (structOf (typesOf r.message.kind)
      ((typesOf r.message.kind).2.map fun _ => .word 0)).encodeType := by
  obtain ⟨contract, chainId, message⟩ := r
  cases message <;> rfl

theorem kind_of_encodeType {r r' : Request} (h : r.struct.encodeType = r'.struct.encodeType) :
    r.message.kind = r'.message.kind := by
  have hall : ∀ k k' : Fin 8,
      (structOf (typesOf k) ((typesOf k).2.map fun _ => .word 0)).encodeType =
        (structOf (typesOf k') ((typesOf k').2.map fun _ => .word 0)).encodeType → k = k' := by
    decide +kernel
  rw [encodeType_struct, encodeType_struct] at h
  exact hall _ _ h

theorem addressWord_inj {a b : Address} (h : addressWord a = addressWord b) : a = b := by
  rw [← wordAddress_addressWord a, ← wordAddress_addressWord b, h]

theorem place_of_words {r r' : Request}
    (h : r.domain.words crypto = r'.domain.words crypto) :
    r.contract = r'.contract ∧ r.chainId = r'.chainId := by
  have hwords : [r.chainId, addressWord r.contract] = [r'.chainId, addressWord r'.contract] :=
    congrArg (List.drop 2) h
  simp only [List.cons.injEq, and_true] at hwords
  exact ⟨addressWord_inj hwords.2, hwords.1⟩

theorem words_struct (r : Request) :
    r.struct.words crypto = r.values.map fun value => value.encode crypto := by
  obtain ⟨contract, chainId, message⟩ := r
  cases message <;> rfl

theorem addMethod_of_words {i j : Bytes32} {f g : MethodFields}
    (h : [i, f.kind.setWidth 256, f.qx, f.qy, addressWord f.eoa] =
      [j, g.kind.setWidth 256, g.qx, g.qy, addressWord g.eoa]) : i = j ∧ f = g :=
  methodIdPreimage_inj.mp (congrArg encodeWords h)

/-- Messages of one kind differ in their words. -/
theorem message_of_words {inputs : List Bytes} (hcf : crypto.CollisionFree inputs) {r r' : Request}
    (hr : r.struct.hashed crypto ⊆ inputs) (hr' : r'.struct.hashed crypto ⊆ inputs)
    (hkind : r.message.kind = r'.message.kind)
    (h : r.struct.words crypto = r'.struct.words crypto) : r.message = r'.message := by
  obtain ⟨contract, chainId, message⟩ := r
  obtain ⟨contract', chainId', message'⟩ := r'
  rw [words_struct, words_struct] at h
  cases message <;> cases message' <;> try cases hkind
  case verify.verify =>
    exact congrArg Message.verify (List.cons.inj h).1
  case addMethod.addMethod =>
    obtain ⟨rfl, rfl⟩ := addMethod_of_words h
    rfl
  case removeMethod.removeMethod =>
    obtain ⟨hi, hid⟩ := List.cons.inj h
    exact congrArg₂ Message.removeMethod hi (List.cons.inj hid).1
  case cancelRestore.cancelRestore =>
    exact congrArg Message.cancelRestore (List.cons.inj h).1
  case addOwner.addOwner =>
    have howner := (List.cons.inj (List.cons.inj h).2).1
    exact congrArg Message.addOwner (addressWord_inj howner)
  case addKey.addKey =>
    obtain ⟨hentity, howner⟩ := List.cons.inj (List.cons.inj h).2
    exact congrArg₂ Message.addKey hentity (addressWord_inj (List.cons.inj howner).1)
  case userOp.userOp =>
    exact congrArg Message.userOp (List.cons.inj h).1
  case recover.recover =>
    obtain ⟨htext, hsigner⟩ := List.cons.inj (List.cons.inj h).2
    have hchallenge := encode_text_inj hcf (hr (.tail _ (.tail _ (.head _))))
      (hr' (.tail _ (.tail _ (.head _)))) htext
    exact congrArg₂ Message.recover hchallenge (addressWord_inj (List.cons.inj hsigner).1)

/-- A digest is of one request only. -/
theorem digest_inj {r r' : Request}
    (hcf : crypto.CollisionFree (r.hashed crypto ++ r'.hashed crypto))
    (h : r.digest crypto = r'.digest crypto) : r = r' := by
  have hleft : r.hashed crypto ⊆ r.hashed crypto ++ r'.hashed crypto :=
    List.subset_append_left ..
  have hright : r'.hashed crypto ⊆ r.hashed crypto ++ r'.hashed crypto :=
    List.subset_append_right ..
  have hstruct : ∀ r : Request, r.struct.hashed crypto ⊆ r.hashed crypto := fun r =>
    List.Subset.trans (List.subset_append_right ..) (List.subset_cons_self ..)
  obtain ⟨⟨-, hdomain⟩, htype, hwords⟩ := hash_inj hcf hleft hright h
  obtain ⟨hcontract, hchain⟩ := place_of_words hdomain
  have hmessage := message_of_words hcf (List.Subset.trans (hstruct r) hleft)
    (List.Subset.trans (hstruct r') hright) (kind_of_encodeType htype) hwords
  obtain ⟨contract, chainId, message⟩ := r
  obtain ⟨contract', chainId', message'⟩ := r'
  cases hcontract
  cases hchain
  cases hmessage
  rfl

/-! ## From texts -/

inductive ClientMessage
  | verify (message : String)
  | addMethod (input : MethodInput)
  | removeMethod (identityId methodId : String)
  | cancelRestore (identityId : String)
  | addOwner (owner : String)
  | addKey (entityId owner : String)
  | userOp (userOpHash : String)
  | recover (challenge signer : String)

def ClientMessage.kind : ClientMessage → Fin 8
  | .verify .. => 0
  | .addMethod .. => 1
  | .removeMethod .. => 2
  | .cancelRestore .. => 3
  | .addOwner .. => 4
  | .addKey .. => 5
  | .userOp .. => 6
  | .recover .. => 7

-- A request as the client has it.
structure ClientRequest where
  contract : String
  chainId : Nat
  message : ClientMessage

section Texts

variable (crypto : Crypto)

def ClientRequest.hash (r : ClientRequest) : Option String :=
  match r.message with
  | .verify message => hashIdentityVerify crypto r.contract r.chainId message
  | .addMethod input => hashIdentityAddMethod crypto r.contract r.chainId input
  | .removeMethod identityId methodId =>
    hashIdentityRemoveMethod crypto r.contract r.chainId identityId methodId
  | .cancelRestore identityId => hashIdentityCancelRestore crypto r.contract r.chainId identityId
  | .addOwner owner => hashAddOwnerTypedData crypto r.contract owner r.chainId
  | .addKey entityId owner => hashAddKeyTypedData crypto r.contract entityId owner r.chainId
  | .userOp userOpHash => hashUserOpTypedData crypto r.contract userOpHash r.chainId
  | .recover challenge signer => hashRecoverTypedData crypto r.contract challenge signer r.chainId

def readAddress (s : String) : Option Address := (getAddress crypto s).map addressOf

def readFields (input : MethodInput) : Option MethodFields := do
  let qx ← bytes32 input.qx
  let qy ← bytes32 input.qy
  let eoa ← readAddress crypto input.eoa
  if input.kind < 2 ^ 8 then return ⟨BitVec.ofNat 8 input.kind, qx, qy, eoa⟩ else none

def ClientMessage.read : ClientMessage → Option Message
  | .verify message => (bytes32 message).map .verify
  | .addMethod input => do
    return .addMethod (← bytes32 input.identityId) (← readFields crypto input)
  | .removeMethod identityId methodId => do
    return .removeMethod (← bytes32 identityId) (← bytes32 methodId)
  | .cancelRestore identityId => (bytes32 identityId).map .cancelRestore
  | .addOwner owner => (readAddress crypto owner).map .addOwner
  | .addKey entityId owner => do return .addKey (← bytes32 entityId) (← readAddress crypto owner)
  | .userOp userOpHash => (bytes32 userOpHash).map .userOp
  | .recover challenge signer => (readAddress crypto signer).map (.recover challenge)

-- What the texts spell.
def ClientRequest.read (r : ClientRequest) : Option Request := do
  let contract ← readAddress crypto r.contract
  let message ← r.message.read crypto
  if r.chainId < 2 ^ 256 then return ⟨contract, BitVec.ofNat 256 r.chainId, message⟩ else none

end Texts

theorem getAddress_idem {s t : String} (h : getAddress crypto s = some t) :
    getAddress crypto t = some t := by
  obtain ⟨a, rfl⟩ := getAddress_eq_some h
  exact getAddress_addressText a

end OnchainInvoice.Signing
