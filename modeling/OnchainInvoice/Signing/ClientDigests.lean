import OnchainInvoice.Signing.Digests
import OnchainInvoice.Session.MethodIndex

/-!
# The client signs what the contract hashes

An object encodes to the values that it holds for the fields of its type, so what the client hashes
is the digest of the request that its texts spell, or nothing when they spell none.
-/

namespace OnchainInvoice.Signing

open Evm Evm.TypedData IdentityTypes
open Evm.Checksum (getAddress)
open IdentityRoutes (bytes32 hex32 addressOf hex32_injective)

/-! ## Encoding the fields in order -/

/-- The object holds these values for the fields. -/
def Holds (object : JsObject) : List TypedDataField → List JsValue → Prop
  | [], [] => True
  | field :: fields, value :: values =>
    object.lookup field.name = some value ∧ Holds object fields values
  | _, _ => False

def encodeValues (crypto : Crypto) : List TypedDataField → List JsValue → Option (List Value)
  | field :: fields, value :: values =>
    (encodeValue crypto field.type value).bind fun encoded =>
      (encodeValues crypto fields values).map (encoded :: ·)
  | _, _ => some []

variable {crypto : Crypto}

theorem encodeMembers_eq {object : JsObject} {fields : List TypedDataField} {values : List JsValue}
    (h : Holds object fields values) :
    fields.mapM (encodeMember crypto object) = (encodeValues crypto fields values).map
      (List.zipWith (fun field value => ⟨field.type, field.name, value⟩) fields) := by
  induction fields generalizing values with
  | nil =>
    cases values with
    | nil => rfl
    | cons value values => exact h.elim
  | cons field fields ih =>
    cases values with
    | nil => exact h.elim
    | cons value values =>
      rw [List.mapM_cons, ih h.2]
      simp only [encodeMember, encodeValues, h.1, Option.bind_eq_bind, Option.bind_some,
        Option.pure_def]
      cases encodeValue crypto field.type value with
      | none => rfl
      | some encoded => cases encodeValues crypto fields values <;> rfl

theorem encodeStruct_eq (types : String × List TypedDataField) {object : JsObject}
    {values : List JsValue} (h : Holds object types.2 values) :
    encodeStruct crypto types.1 types.2 object =
      (encodeValues crypto types.2 values).map (structOf types) := by
  unfold encodeStruct
  rw [encodeMembers_eq h]
  cases encodeValues crypto types.2 values <;> rfl

theorem encodeValues_cons (field : TypedDataField) (fields : List TypedDataField) (value : JsValue)
    (values : List JsValue) : encodeValues crypto (field :: fields) (value :: values) =
      (encodeValue crypto field.type value).bind fun encoded =>
        (encodeValues crypto fields values).map (encoded :: ·) := rfl

theorem encodeValues_nil : encodeValues crypto [] [] = some [] := rfl

theorem encodeValue_text (s : String) :
    encodeValue crypto "string" (.text s) = some (.text s) := rfl

theorem encodeValue_address (s : String) : encodeValue crypto "address" (.text s) =
    (readAddress crypto s).map fun address => .word (addressWord address) := by
  show Option.map _ _ = Option.map _ (Option.map _ _)
  rw [Option.map_map]
  rfl

theorem encodeValue_bytes32 (s : String) :
    encodeValue crypto "bytes32" (.text s) = (bytes32 s).map .word := rfl

theorem encodeValue_uint8 (n : Nat) : encodeValue crypto "uint8" (.bigint n) = uintWord 8 n := rfl

theorem encodeValue_uint256 (n : Nat) :
    encodeValue crypto "uint256" (.bigint n) = uintWord 256 n := rfl

/-! ## The domain -/

def domainOf (name : String) (chainId : Nat) (contract : Address) : Struct :=
  structOf ("EIP712Domain", EIP712_DOMAIN_FIELDS)
    [.text name, .text "1", .word (BitVec.ofNat 256 chainId), .word (addressWord contract)]

variable {name s t : String} {chainId : Nat} {contract : Address}

theorem encode_domain (ht : readAddress crypto t = some contract) :
    encodeStruct crypto "EIP712Domain" EIP712_DOMAIN_FIELDS
        (Eip712Domain.object ⟨name, "1", chainId, t⟩) =
      if chainId < 2 ^ 256 then some (domainOf name chainId contract) else none := by
  have hholds : Holds (Eip712Domain.object ⟨name, "1", chainId, t⟩) EIP712_DOMAIN_FIELDS
      [.text name, .text "1", .bigint chainId, .text t] := ⟨rfl, rfl, rfl, rfl, trivial⟩
  rw [encodeStruct_eq ("EIP712Domain", EIP712_DOMAIN_FIELDS) hholds]
  simp only [EIP712_DOMAIN_FIELDS, encodeValues_cons, encodeValues_nil, encodeValue_text,
    encodeValue_address, encodeValue_uint256, ht, uintWord, Option.bind_some, Option.map_some]
  split <;> rfl

theorem typedDataHash_eq {types : String × List TypedDataField} {object : JsObject}
    {values : List JsValue} (ht : readAddress crypto t = some contract)
    (h : Holds object types.2 values) :
    typedDataHash crypto ⟨name, "1", chainId, t⟩ types object =
      if chainId < 2 ^ 256 then
        (encodeValues crypto types.2 values).map fun values =>
          hex32 (TypedData.hash crypto (domainOf name chainId contract) (structOf types values))
      else none := by
  unfold typedDataHash
  rw [encodeStruct_eq types h, encode_domain ht]
  split
  · cases encodeValues crypto types.2 values <;> rfl
  · rfl

/-! ## Each kind of message -/

theorem readAddress_getAddress (h : getAddress crypto s = some t) :
    readAddress crypto t = readAddress crypto s := by
  unfold readAddress
  rw [h, getAddress_idem h]

theorem readAddress_of_getAddress (h : getAddress crypto s = some t) :
    readAddress crypto s = some (addressOf t) := by
  unfold readAddress
  rw [h]
  rfl

theorem readAddress_eq_none (h : getAddress crypto s = none) : readAddress crypto s = none := by
  unfold readAddress
  rw [h]
  rfl

-- The request that a message makes at a place, where the chain id is one.
def requestAt (contract : Address) (chainId : Nat) (message : Option Message) : Option Request :=
  if chainId < 2 ^ 256 then message.map (Request.mk contract (BitVec.ofNat 256 chainId)) else none

theorem requestAt_none (contract : Address) (chainId : Nat) :
    requestAt contract chainId none = none := by
  unfold requestAt
  split <;> rfl

def Request.text (crypto : Crypto) (r : Request) : String := hex32 (r.digest crypto)

theorem read_eq {r : ClientRequest} (h : readAddress crypto r.contract = some contract) :
    r.read crypto = requestAt contract r.chainId (r.message.read crypto) := by
  unfold ClientRequest.read requestAt
  rw [h]
  cases r.message.read crypto with
  | none => split <;> rfl
  | some m => rfl

theorem kind_of_map {α : Type} {kind : Fin 8} {x : Option α} {f : α → Message}
    (hf : ∀ a, (f a).kind = kind) : ∀ m ∈ x.map f, m.kind = kind := by
  intro m hm
  obtain ⟨a, -, rfl⟩ := Option.map_eq_some_iff.mp hm
  exact hf a

theorem kind_of_bind {α β : Type} {kind : Fin 8} {x : Option α} {y : Option β}
    {f : α → β → Message} (hf : ∀ a b, (f a b).kind = kind) :
    ∀ m ∈ x.bind fun a => y.bind fun b => some (f a b), m.kind = kind := by
  intro m hm
  obtain ⟨a, -, hm⟩ := Option.bind_eq_some_iff.mp hm
  obtain ⟨b, -, hm⟩ := Option.bind_eq_some_iff.mp hm
  cases hm
  exact hf a b

theorem kind_read {message : ClientMessage} : ∀ m ∈ message.read crypto, m.kind = message.kind := by
  cases message with
  | verify => exact kind_of_map fun _ => rfl
  | addMethod => exact kind_of_bind fun _ _ => rfl
  | removeMethod => exact kind_of_bind fun _ _ => rfl
  | cancelRestore => exact kind_of_map fun _ => rfl
  | addOwner => exact kind_of_map fun _ => rfl
  | addKey => exact kind_of_bind fun _ _ => rfl
  | userOp => exact kind_of_map fun _ => rfl
  | recover => exact kind_of_map fun _ => rfl

theorem domain_eq (chainId : Nat) (m : Message) :
    domainOf (nameOf m.kind) chainId contract =
      (Request.mk contract (BitVec.ofNat 256 chainId) m).domain := by
  cases m <;> rfl

/-- An object whose values are those of a message hashes to the digest of its request. -/
theorem typedDataHash_request (message : ClientMessage) {object : JsObject} (values : List JsValue)
    (ht : readAddress crypto t = some contract) (h : Holds object (typesOf message.kind).2 values)
    (hvalues : encodeValues crypto (typesOf message.kind).2 values =
      (message.read crypto).map fun m =>
        (Request.mk contract (BitVec.ofNat 256 chainId) m).values) :
    typedDataHash crypto ⟨nameOf message.kind, "1", chainId, t⟩ (typesOf message.kind) object =
      (requestAt contract chainId (message.read crypto)).map (Request.text crypto) := by
  rw [typedDataHash_eq ht h, hvalues]
  unfold requestAt
  split
  · cases hread : message.read crypto with
    | none => rfl
    | some m =>
      have hkind := kind_read m hread
      simp only [Option.map_some, ← hkind, domain_eq]
      rfl
  · rfl

-- The message is one word.
theorem encodeValues_word (field word : String) {message : Bytes32 → Message}
    {values : Message → List Value} (h : ∀ w, values (message w) = [.word w]) :
    encodeValues crypto [⟨field, "bytes32"⟩] [.text word] =
      ((bytes32 word).map message).map values := by
  rw [encodeValues_cons, encodeValue_bytes32]
  cases bytes32 word with
  | none => rfl
  | some w => exact congrArg some (h w).symm

section Kinds

variable {entityId challenge owner signer owner' : String}
variable (hs : getAddress crypto s = some t)

include hs

theorem readAddress_checksummed : readAddress crypto t = some (addressOf t) := by
  rw [readAddress_getAddress hs, readAddress_of_getAddress hs]

theorem hash_verify (message : String) :
    hashIdentityVerify crypto s chainId message =
      (requestAt (addressOf t) chainId ((ClientMessage.verify message).read crypto)).map
        (Request.text crypto) := by
  unfold hashIdentityVerify identityEip712Domain
  rw [hs]
  refine typedDataHash_request (.verify message) [.text message] (readAddress_checksummed hs)
    ⟨rfl, trivial⟩ ?_
  exact encodeValues_word "message" message fun _ => rfl

theorem hash_cancelRestore (identityId : String) :
    hashIdentityCancelRestore crypto s chainId identityId =
      (requestAt (addressOf t) chainId ((ClientMessage.cancelRestore identityId).read crypto)).map
        (Request.text crypto) := by
  unfold hashIdentityCancelRestore identityEip712Domain
  rw [hs]
  refine typedDataHash_request (.cancelRestore identityId) [.text identityId]
    (readAddress_checksummed hs) ⟨rfl, trivial⟩ ?_
  exact encodeValues_word "identityId" identityId fun _ => rfl

theorem hash_removeMethod (identityId methodId : String) :
    hashIdentityRemoveMethod crypto s chainId identityId methodId =
      (requestAt (addressOf t) chainId
        ((ClientMessage.removeMethod identityId methodId).read crypto)).map
          (Request.text crypto) := by
  unfold hashIdentityRemoveMethod identityEip712Domain
  rw [hs]
  refine typedDataHash_request (.removeMethod identityId methodId)
    [.text identityId, .text methodId] (readAddress_checksummed hs) ⟨rfl, rfl, trivial⟩ ?_
  show encodeValues crypto [⟨"identityId", "bytes32"⟩, ⟨"methodId", "bytes32"⟩]
      [.text identityId, .text methodId] =
    ((bytes32 identityId).bind fun i => (bytes32 methodId).bind fun id =>
      some (Message.removeMethod i id)).map _
  simp only [encodeValues_cons, encodeValues_nil, encodeValue_bytes32]
  cases bytes32 identityId with
  | none => rfl
  | some i => cases bytes32 methodId <;> rfl

theorem hash_userOp (userOpHash : String) :
    hashUserOpTypedData crypto s userOpHash chainId =
      (requestAt (addressOf t) chainId ((ClientMessage.userOp userOpHash).read crypto)).map
        (Request.text crypto) := by
  unfold hashUserOpTypedData userOpTypedData walletEip712Domain
  rw [hs]
  refine typedDataHash_request (.userOp userOpHash) [.text userOpHash]
    (readAddress_checksummed hs) ⟨rfl, trivial⟩ ?_
  exact encodeValues_word "userOpHash" userOpHash fun _ => rfl

theorem hash_addOwner (owner : String) :
    hashAddOwnerTypedData crypto s owner chainId =
      (requestAt (addressOf t) chainId ((ClientMessage.addOwner owner).read crypto)).map
        (Request.text crypto) := by
  unfold hashAddOwnerTypedData addOwnerTypedData walletEip712Domain
  rw [hs]
  cases howner : getAddress crypto owner with
  | none =>
    show none = (requestAt _ _ ((readAddress crypto owner).map Message.addOwner)).map _
    rw [readAddress_eq_none howner, Option.map_none, requestAt_none]
    rfl
  | some owner' =>
    refine typedDataHash_request (.addOwner owner) [.text t, .text owner']
      (readAddress_checksummed hs) ⟨rfl, rfl, trivial⟩ ?_
    show encodeValues crypto [⟨"wallet", "address"⟩, ⟨"owner", "address"⟩] [.text t, .text owner'] =
      ((readAddress crypto owner).map Message.addOwner).map _
    simp only [encodeValues_cons, encodeValues_nil, encodeValue_address, readAddress_checksummed hs,
      readAddress_checksummed howner, readAddress_of_getAddress howner]
    rfl

theorem hash_addKey (entityId owner : String) :
    hashAddKeyTypedData crypto s entityId owner chainId =
      (requestAt (addressOf t) chainId ((ClientMessage.addKey entityId owner).read crypto)).map
        (Request.text crypto) := by
  unfold hashAddKeyTypedData addKeyTypedData walletEip712Domain
  rw [hs]
  cases howner : getAddress crypto owner with
  | none =>
    have hnone : ClientMessage.read crypto (.addKey entityId owner) = none := by
      unfold ClientMessage.read
      simp only [readAddress_eq_none howner]
      cases bytes32 entityId <;> rfl
    rw [hnone, requestAt_none]
    rfl
  | some owner' =>
    refine typedDataHash_request (.addKey entityId owner) [.text t, .text entityId, .text owner']
      (readAddress_checksummed hs) ⟨rfl, rfl, rfl, trivial⟩ ?_
    show encodeValues crypto [⟨"wallet", "address"⟩, ⟨"entityId", "bytes32"⟩, ⟨"owner", "address"⟩]
        [.text t, .text entityId, .text owner'] =
      ((bytes32 entityId).bind fun entityId =>
        (readAddress crypto owner).bind fun owner => some (Message.addKey entityId owner)).map _
    simp only [encodeValues_cons, encodeValues_nil, encodeValue_address, encodeValue_bytes32,
      readAddress_checksummed hs, readAddress_checksummed howner, readAddress_of_getAddress howner]
    cases bytes32 entityId <;> rfl

theorem hash_recover (challenge signer : String) :
    hashRecoverTypedData crypto s challenge signer chainId =
      (requestAt (addressOf t) chainId ((ClientMessage.recover challenge signer).read crypto)).map
        (Request.text crypto) := by
  unfold hashRecoverTypedData recoverTypedData walletEip712Domain
  rw [hs]
  cases hsigner : getAddress crypto signer with
  | none =>
    show none = (requestAt _ _ ((readAddress crypto signer).map (Message.recover challenge))).map _
    rw [readAddress_eq_none hsigner, Option.map_none, requestAt_none]
    rfl
  | some signer' =>
    refine typedDataHash_request (.recover challenge signer)
      [.text t, .text challenge, .text signer'] (readAddress_checksummed hs)
      ⟨rfl, rfl, rfl, trivial⟩ ?_
    show encodeValues crypto [⟨"wallet", "address"⟩, ⟨"challenge", "string"⟩, ⟨"signer", "address"⟩]
        [.text t, .text challenge, .text signer'] =
      ((readAddress crypto signer).map (Message.recover challenge)).map _
    simp only [encodeValues_cons, encodeValues_nil, encodeValue_address, encodeValue_text,
      readAddress_checksummed hs, readAddress_checksummed hsigner,
      readAddress_of_getAddress hsigner]
    rfl

theorem hash_addMethod (input : MethodInput) :
    hashIdentityAddMethod crypto s chainId input =
      (requestAt (addressOf t) chainId ((ClientMessage.addMethod input).read crypto)).map
        (Request.text crypto) := by
  unfold hashIdentityAddMethod identityEip712Domain
  rw [hs]
  obtain ⟨identityId, kind, qx, qy, eoa⟩ := input
  cases heoa : getAddress crypto eoa with
  | none =>
    have hnone : ClientMessage.read crypto (.addMethod ⟨identityId, kind, qx, qy, eoa⟩) = none := by
      unfold ClientMessage.read readFields
      simp only [readAddress_eq_none heoa]
      cases bytes32 identityId <;> cases bytes32 qx <;> cases bytes32 qy <;> rfl
    rw [hnone, requestAt_none]
    rfl
  | some eoa' =>
    refine typedDataHash_request (.addMethod ⟨identityId, kind, qx, qy, eoa⟩)
      [.text identityId, .bigint kind, .text qx, .text qy, .text eoa']
      (readAddress_checksummed hs) ⟨rfl, rfl, rfl, rfl, rfl, trivial⟩ ?_
    show encodeValues crypto [⟨"identityId", "bytes32"⟩, ⟨"kind", "uint8"⟩, ⟨"qx", "bytes32"⟩,
      ⟨"qy", "bytes32"⟩, ⟨"eoa", "address"⟩] _ = _
    simp only [ClientMessage.read, readFields, encodeValues_cons, encodeValues_nil,
      encodeValue_address, encodeValue_bytes32, encodeValue_uint8, readAddress_checksummed heoa,
      readAddress_of_getAddress heoa, uintWord, Option.bind_eq_bind, Option.bind_some,
      Option.map_some]
    cases bytes32 identityId with
    | none => rfl
    | some i =>
      cases bytes32 qx with
      | none => split <;> rfl
      | some x =>
        cases bytes32 qy with
        | none => split <;> rfl
        | some y =>
          by_cases hkind : kind < 2 ^ 8
          · simp only [if_pos hkind, Option.bind_some, Option.map_some]
            have hword : (BitVec.ofNat 8 kind).setWidth 256 = BitVec.ofNat 256 kind := by
              apply BitVec.eq_of_toNat_eq
              simp
              omega
            show some [Value.word i, .word (BitVec.ofNat 256 kind), _, _, _] =
              some [Value.word i, .word ((BitVec.ofNat 8 kind).setWidth 256), _, _, _]
            rw [hword]
          · simp only [if_neg hkind]
            rfl

end Kinds

/-- What the client hashes is the digest of what its texts spell. -/
theorem hash_eq (r : ClientRequest) :
    r.hash crypto = (r.read crypto).map (Request.text crypto) := by
  obtain ⟨s, chainId, message⟩ := r
  cases hs : getAddress crypto s with
  | none =>
    have hread : ClientRequest.read crypto ⟨s, chainId, message⟩ = none := by
      unfold ClientRequest.read
      rw [readAddress_eq_none hs]
      rfl
    rw [hread]
    unfold ClientRequest.hash
    cases message <;>
      simp only [hashIdentityVerify, hashIdentityAddMethod, hashIdentityRemoveMethod,
        hashIdentityCancelRestore, identityEip712Domain, hashAddOwnerTypedData, addOwnerTypedData,
        walletEip712Domain, hashAddKeyTypedData, addKeyTypedData, hashUserOpTypedData,
        userOpTypedData, hashRecoverTypedData, recoverTypedData, hs] <;> rfl
  | some t =>
    rw [read_eq (readAddress_of_getAddress hs)]
    cases message with
    | verify => exact hash_verify hs _
    | addMethod => exact hash_addMethod hs _
    | removeMethod => exact hash_removeMethod hs _ _
    | cancelRestore => exact hash_cancelRestore hs _
    | addOwner => exact hash_addOwner hs _
    | addKey => exact hash_addKey hs _ _
    | userOp => exact hash_userOp hs _
    | recover => exact hash_recover hs _ _

/-- A digest that the client signs is the one the contract hashes, and no other request's. -/
theorem client_digests_bind {c c' : ClientRequest} {r r' : Request}
    (hr : c.read crypto = some r) (hr' : c'.read crypto = some r')
    (hcf : crypto.CollisionFree (r.hashed crypto ++ r'.hashed crypto)) :
    c.hash crypto = some (hex32 (r.digest crypto)) ∧
      (∀ d ∈ r.onChain crypto, r.digest crypto = d) ∧
      (c.hash crypto = c'.hash crypto ↔ r = r') := by
  have hc : c.hash crypto = some (hex32 (r.digest crypto)) := by rw [hash_eq, hr]; rfl
  have hc' : c'.hash crypto = some (hex32 (r'.digest crypto)) := by rw [hash_eq, hr']; rfl
  refine ⟨hc, onChain_eq r, ?_⟩
  rw [hc, hc']
  apply Iff.intro
  · intro h
    exact digest_inj hcf (hex32_injective (Option.some.inj h))
  · rintro rfl
    rfl

-- One request in two spellings, and a wallet of another address.
def toyClient (contract digit : Char) : ClientRequest :=
  ⟨String.ofList ('0' :: 'x' :: List.replicate 40 contract), 8453,
    .recover "challenge" (String.ofList (List.replicate 40 digit))⟩

def toyRequest (contract : Address) : Request :=
  ⟨contract, 8453, .recover "challenge" 0xaaaaaaaaaaaaaaaaaaaaaaaaaaaaaaaaaaaaaaaa⟩

def toyContract : Address := 0xbbbbbbbbbbbbbbbbbbbbbbbbbbbbbbbbbbbbbbbb

def toyOther : Address := 0x1111111111111111111111111111111111111111

theorem client_digests_bind_spellings :
    ((toyClient 'b' 'a').hash Crypto.toy = (toyClient 'B' 'A').hash Crypto.toy ↔
        toyRequest toyContract = toyRequest toyContract) ∧
      ((toyClient 'b' 'a').hash Crypto.toy = (toyClient '1' 'a').hash Crypto.toy ↔
        toyRequest toyContract = toyRequest toyOther) := by
  have hb : (toyClient 'b' 'a').read Crypto.toy = some (toyRequest toyContract) := by
    decide +kernel
  have hB : (toyClient 'B' 'A').read Crypto.toy = some (toyRequest toyContract) := by
    decide +kernel
  have h1 : (toyClient '1' 'a').read Crypto.toy = some (toyRequest toyOther) := by decide +kernel
  exact ⟨(client_digests_bind hb hB (by decide +kernel)).2.2,
    (client_digests_bind hb h1 (by decide +kernel)).2.2⟩

end OnchainInvoice.Signing
