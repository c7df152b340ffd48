import OnchainInvoice.Identity.Malformed
import OnchainInvoice.Signing.Authorizations

/-!
# The store accepts what the client authorizes

A blob that the client builds decodes to what went in, so the store comes to the method that signed
and checks the signature over the digest it has hashed itself.
-/

namespace OnchainInvoice.Signing

open Evm IdentityTypes IdentityStore Lib.Revert Lib.Runs
open Evm.Checksum (getAddress)
open IdentityRoutes (bytes32 hex32 addressOf bytes32_hex32 getBytes_hex ZERO_ADDRESS ZERO_WORD)
open WebAuthnSignature (getBytes)

/-! ## Blobs -/

theorem encodeWords_four (a b c d : Uint256) :
    encodeWords [a, b, c, d] = wordBytes a ++ wordBytes b ++ wordBytes c ++ wordBytes d := by
  unfold encodeWords
  simp only [List.flatMap_cons, List.flatMap_nil, List.append_nil, List.append_assoc]

theorem drop_encodeMethodBlob (kind : Uint8) (i id : Bytes32) (inner : Bytes) :
    (encodeMethodBlob kind i id inner).drop 4 = wordBytes (kind.setWidth 256) ++ wordBytes i ++
      wordBytes id ++ wordBytes (BitVec.ofNat 256 128) ++ Abi.encodeBytes inner := by
  unfold encodeMethodBlob
  rw [List.append_assoc, List.drop_left' (show SIG_MAGIC.length = 4 from rfl), encodeWords_four]
  rfl

theorem uint8At_of_holds {data : Bytes} {pos : Nat} {kind : Uint8}
    (h : Abi.Holds data pos (wordBytes (kind.setWidth 256))) :
    Abi.uint8At data pos = some kind := by
  have hkind := kind.isLt
  unfold Abi.uint8At
  rw [Abi.wordAt_of_holds h]
  simp
  omega

theorem decodeMethodBlob_encode (kind : Uint8) (i id : Bytes32) {inner : Bytes}
    (hlen : inner.length < 2 ^ 64) :
    decodeMethodBlob ((encodeMethodBlob kind i id inner).drop 4) = some (kind, i, id, inner) := by
  have hall : Abi.Holds ((encodeMethodBlob kind i id inner).drop 4) 0
      (wordBytes (kind.setWidth 256) ++ wordBytes i ++ wordBytes id ++
        wordBytes (BitVec.ofNat 256 128) ++ Abi.encodeBytes inner) := by
    rw [drop_encodeMethodBlob]
    exact List.prefix_rfl
  obtain ⟨hwords, hinner⟩ := Abi.Holds.append.mp hall
  obtain ⟨hwords, hoffset⟩ := Abi.Holds.append.mp hwords
  obtain ⟨hwords, hid⟩ := Abi.Holds.append.mp hwords
  obtain ⟨hkind, hi⟩ := Abi.Holds.append.mp hwords
  simp only [List.length_append, length_wordBytes, Nat.zero_add, Nat.reduceAdd]
    at hi hid hoffset hinner
  unfold decodeMethodBlob
  rw [uint8At_of_holds hkind, Abi.wordAt_of_holds hi, Abi.wordAt_of_holds hid,
    Abi.dynamicAt_of_holds (by decide) hoffset (Abi.bytesAt_of_holds hlen hinner)]
  rfl

variable {env : IdentityStore.Env} {s s' : IdentityStore.State} {i id d : Bytes32} {kind : Uint8}
  {sig : Bytes}

/-- The store looks at the method that a blob names. -/
theorem verify_blob (hi : i ≠ 0) (hlen : sig.length < 2 ^ 64) :
    verify env s d (encodeMethodBlob kind i id sig) = .ok i ↔
      Names s kind i id ∧ checkMethodSig env d (s.methods id) sig = .ok true := by
  have hlength : 4 ≤ (encodeMethodBlob kind i id sig).length := by
    unfold encodeMethodBlob
    rw [List.append_assoc, List.length_append]
    exact Nat.le_add_right ..
  rw [verify_eq hlength rfl (decodeMethodBlob_encode kind i id hlen)]
  by_cases hnames : Names s kind i id
  · rw [if_neg (names_iff.mp hnames)]
    simp only [hnames, true_and, bind_eq_ok, pure_eq_ok]
    apply Iff.intro
    · rintro ⟨valid, hvalid, hanswer⟩
      cases valid with
      | false => exact absurd hanswer.symm hi
      | true => exact hvalid
    · intro h
      exact ⟨true, h, rfl⟩
  · rw [if_pos (not_not.mp (mt names_iff.mpr hnames))]
    exact iff_of_false (fun h => hi (pure_eq_ok.mp h).symm) fun h => hnames h.1

/-! ## Changes -/

inductive Change
  | addMethod (f : MethodFields)
  | removeMethod (methodId : Bytes32)
  | cancelRestore

def Change.message (i : Bytes32) : Change → Message
  | .addMethod f => .addMethod i f
  | .removeMethod methodId => .removeMethod i methodId
  | .cancelRestore => .cancelRestore i

def Change.digest (env : IdentityStore.Env) (i : Bytes32) : Change → Bytes32
  | .addMethod f => hashAddMethod env i f
  | .removeMethod methodId => hashRemoveMethod env i methodId
  | .cancelRestore => hashCancelRestore env i

def Change.call (i : Bytes32) (authorization : Bytes) : Change → IdentityStore.Call
  | .addMethod f => .addMethod i f authorization
  | .removeMethod methodId => .removeMethod i methodId authorization
  | .cancelRestore => .cancelRestore i authorization

/-- What the store asks for beside a signature. -/
def Change.Allowed (env : IdentityStore.Env) (s : IdentityStore.State) (i : Bytes32) :
    Change → Prop
  | .addMethod f => CanAdd env s i f
  | .removeMethod methodId => (s.methods methodId).exists_ = true ∧
      (s.methods methodId).identityId = i ∧ 1 < (s.identities i).methodCount.toNat
  | .cancelRestore => (s.pendingRestores i).active = true

def Change.after (env : IdentityStore.Env) (s : IdentityStore.State) (i : Bytes32) :
    Change → IdentityStore.State
  | .addMethod f => added env s i f
  | .removeMethod methodId => removed s i methodId
  | .cancelRestore => clearPending s i

variable {inputs : List Bytes}

/-- A live method is counted among those of its kind. -/
theorem kindCount_pos (h : Sound env inputs s) (hlive : (s.methods id).exists_ = true)
    (hmember : (s.methods id).identityId = i) :
    1 ≤ (Identity.kindCount (s.identities i) (s.methods id).kind).toNat := by
  have hkind : IsKind (s.methods id).kind := (h.registry.valid id hlive).kind_cases
  rw [h.registry.counts i _ hkind]
  have hlisted : id ∈ s.methodIds i := (h.registry.listed i id).mpr ⟨hlive, hmember⟩
  exact List.countP_pos_iff.mpr ⟨id, hlisted, beq_self_eq_true _⟩

theorem step_change (h : Sound env inputs s) {tx : Tx IdentityStore.Call} {change : Change}
    {authorization : Bytes} (hcall : tx.call = change.call i authorization) :
    step env s tx = .ok s' ↔ change.Allowed env s i ∧
      verify env s (change.digest env i) authorization = .ok i ∧ s' = change.after env s i := by
  unfold step
  rw [hcall]
  cases change with
  | addMethod f =>
    show addMethod env s i f authorization = .ok s' ↔ _
    simp only [addMethod, bind_eq_ok, revertIf_eq_ok, pure_eq_ok, bne_eq_false_iff_eq,
      exists_const, Prod.exists, addMethodInternal_eq_ok]
    apply Iff.intro
    · rintro ⟨signer, hverify, rfl, _, _, ⟨hcan, -, rfl⟩, rfl⟩
      exact ⟨hcan, hverify, rfl⟩
    · rintro ⟨hcan, hverify, rfl⟩
      exact ⟨i, hverify, rfl, _, _, ⟨hcan, rfl, rfl⟩, rfl⟩
  | removeMethod methodId =>
    show removeMethod env s i methodId authorization = .ok s' ↔ _
    simp only [removeMethod, bind_eq_ok, revertIf_eq_ok, Bool.or_eq_false_iff, Bool.not_eq_false',
      bne_eq_false_iff_eq, decide_eq_false_iff_not, exists_const, removeMethodInternal_eq_ok]
    apply Iff.intro
    · rintro ⟨⟨hlive, hmember⟩, hcount, signer, hverify, rfl, -, -, rfl⟩
      have hcount' : 1 < (s.identities signer).methodCount.toNat :=
        BitVec.lt_def.mp (BitVec.not_le.mp hcount)
      exact ⟨⟨hlive, hmember, hcount'⟩, hverify, rfl⟩
    · rintro ⟨⟨hlive, hmember, hcount⟩, hverify, rfl⟩
      exact ⟨⟨hlive, hmember⟩, BitVec.not_le.mpr (BitVec.lt_def.mpr hcount), i, hverify, rfl,
        Nat.le_of_lt hcount, kindCount_pos h hlive hmember, rfl⟩
  | cancelRestore =>
    show cancelRestore env s i authorization = .ok s' ↔ _
    simp only [cancelRestore, bind_eq_ok, revertIf_eq_ok, pure_eq_ok, Bool.not_eq_false',
      bne_eq_false_iff_eq, exists_const]
    apply Iff.intro
    · rintro ⟨hactive, signer, hverify, rfl, rfl⟩
      exact ⟨hactive, hverify, rfl⟩
    · rintro ⟨hactive, hverify, rfl⟩
      exact ⟨hactive, i, hverify, rfl, rfl⟩

theorem Change.Allowed.exists_ (h : Sound env inputs s) {change : Change}
    (hallowed : change.Allowed env s i) : (s.identities i).exists_ = true := by
  cases change with
  | addMethod f => exact CanAdd.exists_ hallowed
  | removeMethod methodId =>
    have hexists := h.registry.exists_of_live hallowed.1
    rwa [hallowed.2.1] at hexists
  | cancelRestore => exact h.pending.exists_ i hallowed

/-- A change goes through just when it is allowed and the method named has signed it. -/
theorem step_authorized (h : Sound env inputs s) {tx : Tx IdentityStore.Call} {change : Change}
    (hlen : sig.length < 2 ^ 64)
    (hcall : tx.call = change.call i (encodeMethodBlob kind i id sig)) :
    step env s tx = .ok s' ↔ change.Allowed env s i ∧ Names s kind i id ∧
      checkMethodSig env (change.digest env i) (s.methods id) sig = .ok true ∧
        s' = change.after env s i := by
  rw [step_change h hcall]
  by_cases hallowed : change.Allowed env s i
  · have hi : i ≠ 0 := h.ne_zero_of_exists (hallowed.exists_ h)
    simp only [hallowed, true_and, verify_blob hi hlen, and_assoc]
  · simp only [hallowed, false_and]

/-! ## From the session of a browser -/

-- A change as the user asks for it; before a removal the app asks the store for the digest.
inductive SessionChange
  | addMethod (kind : WalletLog.IdentityMethodKind) (qx qy eoa : Option String)
  | removeMethod (methodId : String) (digest : Option String)
  | cancelRestore

def SessionChange.client (identityId : String) : SessionChange → ClientMessage
  | .addMethod kind qx qy eoa =>
    .addMethod ⟨identityId, kindNum kind, if kind = .eoa then ZERO_WORD else paddedCoord qx,
      if kind = .eoa then ZERO_WORD else paddedCoord qy, eoa.getD ZERO_ADDRESS⟩
  | .removeMethod methodId _ => .removeMethod identityId methodId
  | .cancelRestore => .cancelRestore identityId

-- What the store has answered.
def SessionChange.storeDigest : SessionChange → Option String
  | .removeMethod _ digest => digest
  | _ => none

section Session

variable (crypto : Crypto) (device : String → String → Bool → Option String)
  (keys : List IdentityKey) (config : WalletConfig) (session : WalletSession)
  (storeAddress : Option String)

def SessionChange.authorization : SessionChange → Option String
  | .addMethod kind qx qy eoa =>
    signAddMethodAuthorization crypto device keys config session storeAddress kind qx qy eoa
  | .removeMethod methodId digest =>
    signRemoveMethodAuthorization crypto device keys config session storeAddress methodId digest
  | .cancelRestore =>
    signCancelRestoreAuthorization crypto device keys config session storeAddress

variable {crypto device keys config session storeAddress} {context : SigningContext}

/-- What the device signs is the digest that the client hashes, as long as the store answers the
same. -/
theorem authorization_eq {digest : String}
    (hcontext : signingContext session storeAddress config = some context)
    (request : SessionChange)
    (hhash : (ClientRequest.mk context.store context.chainId
      (request.client context.session.identityId)).hash crypto = some digest)
    (hstore : ∀ answered ∈ request.storeDigest, answered = digest) :
    request.authorization crypto device keys config session storeAddress =
      signIdentityDigest crypto device keys context.session digest := by
  have hbind := congrArg (Option.bind · (signIdentityDigest crypto device keys context.session)) hhash
  cases request with
  | addMethod kind qx qy eoa =>
    show signAddMethodAuthorization .. = _
    unfold signAddMethodAuthorization
    rw [hcontext]
    exact hbind
  | removeMethod methodId answered =>
    show signRemoveMethodAuthorization crypto device keys config session storeAddress methodId
      answered = _
    unfold signRemoveMethodAuthorization
    cases answered with
    | none =>
      rw [hcontext]
      exact hbind
    | some answered =>
      rw [hcontext, hstore answered rfl]
      rfl
  | cancelRestore =>
    show signCancelRestoreAuthorization .. = _
    unfold signCancelRestoreAuthorization
    rw [hcontext]
    exact hbind

theorem signer_kind_lt {session : IdentitySigningSession} {signer : SessionSigner}
    (h : identitySignerFromSession crypto keys session = some signer) : signer.kind < 2 ^ 8 := by
  have hkind : ∀ kind, kindNum kind < 2 ^ 8 := by
    intro kind
    cases kind <;> decide
  unfold identitySignerFromSession at h
  cases hrow : sessionRow keys session with
  | some row =>
    rw [hrow] at h
    obtain rfl := Option.some.inj h
    exact hkind row.kind
  | none =>
    rw [hrow] at h
    obtain ⟨methodId, -, h⟩ := Option.bind_eq_some_iff.mp h
    obtain rfl := Option.some.inj h
    show (if session.keyType = some KEY_YUBIKEY then METHOD_YUBIKEY.toNat
      else METHOD_WEBAUTHN.toNat) < 2 ^ 8
    split <;> decide

/-- A change that reads as one of an identity has its text. -/
theorem bytes32_of_read {request : SessionChange} {identityId : String} {change : Change}
    (h : (request.client identityId).read crypto = some (change.message i)) :
    bytes32 identityId = some i := by
  cases request with
  | addMethod kind qx qy eoa =>
    obtain ⟨j, hj, h⟩ := Option.bind_eq_some_iff.mp h
    obtain ⟨f, -, h⟩ := Option.bind_eq_some_iff.mp h
    cases change <;> cases h
    exact hj
  | removeMethod methodId digest =>
    obtain ⟨j, hj, h⟩ := Option.bind_eq_some_iff.mp h
    obtain ⟨f, -, h⟩ := Option.bind_eq_some_iff.mp h
    cases change <;> cases h
    exact hj
  | cancelRestore =>
    obtain ⟨j, hj, h⟩ := Option.map_eq_some_iff.mp h
    cases change <;> cases h
    exact hj

end Session

theorem onChain_change (change : Change) :
    (Request.mk env.this env.chainid (change.message i)).onChain env.crypto =
      some (change.digest env i) := by
  obtain ⟨crypto, this, chainid⟩ := env
  cases change with
  | addMethod f =>
    show some (hashAddMethod ⟨crypto, this, chainid⟩ i f) =
      some (hashAddMethod ⟨crypto, this, chainid⟩ i f)
    rfl
  | removeMethod methodId =>
    show some (hashRemoveMethod ⟨crypto, this, chainid⟩ i methodId) =
      some (hashRemoveMethod ⟨crypto, this, chainid⟩ i methodId)
    rfl
  | cancelRestore =>
    show some (hashCancelRestore ⟨crypto, this, chainid⟩ i) =
      some (hashCancelRestore ⟨crypto, this, chainid⟩ i)
    rfl

/-- What a client hashes for the store is what the store checks a signature against. -/
theorem hash_onChain {store : String} {chainId : Nat} {client : ClientMessage} {message : Message}
    (hstore : readAddress env.crypto store = some env.this) (hchain : chainId = env.chainid.toNat)
    (hread : client.read env.crypto = some message)
    (hmessage : (Request.mk env.this env.chainid message).onChain env.crypto = some d) :
    (ClientRequest.mk store chainId client).hash env.crypto = some (hex32 d) := by
  have hrequest : (ClientRequest.mk store chainId client).read env.crypto =
      requestAt env.this chainId (client.read env.crypto) :=
    read_eq (r := ⟨store, chainId, client⟩) hstore
  rw [hash_eq, hrequest, hread, hchain]
  unfold requestAt
  rw [if_pos env.chainid.isLt, Option.map_some, Option.map_some, BitVec.ofNat_toNat,
    BitVec.setWidth_eq]
  unfold Request.text
  rw [onChain_eq _ _ hmessage]

theorem getBytes_hexlify (bytes : Bytes) : getBytes (hexlify bytes).toList = some bytes := by
  unfold hexlify
  rw [String.toList_ofList, getBytes_hex]

theorem encodeIdentityBlob_eq {number : Nat} {identityId methodId inner : String}
    (hkind : number < 2 ^ 8) (hi : bytes32 identityId = some i) (hid : bytes32 methodId = some id)
    (hinner : getBytes inner.toList = some sig) :
    encodeIdentityBlob number identityId methodId inner =
      some (hexlify (encodeMethodBlob (BitVec.ofNat 8 number) i id sig)) := by
  unfold encodeIdentityBlob
  rw [hi, hid, hinner]
  simp only [Option.bind_eq_bind, Option.bind_some, if_pos hkind]
  rfl

/-- A change that a session has authorized goes through just when the store allows it and the
method of the session has signed its digest. -/
theorem session_authorization_accepted {recoveryOperator initialOwner : Address}
    {s₀ : IdentityStore.State} {device : String → String → Bool → Option String}
    {keys : List IdentityKey} {config : WalletConfig} {session : WalletSession}
    {storeAddress : Option String} {context : SigningContext} {request : SessionChange}
    {change : Change} {signer : SessionSigner} {inner : String}
    (hdeploy : deploy recoveryOperator initialOwner = .ok s₀)
    (txs : List (Tx IdentityStore.Call))
    (hcf : env.crypto.CollisionFree (txs.flatMap hashedBy))
    (hcontext : signingContext session storeAddress config = some context)
    (hstore : readAddress env.crypto context.store = some env.this)
    (hchain : context.chainId = env.chainid.toNat)
    (hread : (request.client context.session.identityId).read env.crypto =
      some (change.message i))
    (hdigest : ∀ digest ∈ request.storeDigest, digest = hex32 (change.digest env i))
    (hsigner : identitySignerFromSession env.crypto keys context.session = some signer)
    (hid : bytes32 signer.methodId = some id)
    (hdevice : device (hex32 (change.digest env i)) signer.credentialId
      (signer.kind = METHOD_YUBIKEY.toNat) = some inner)
    (hinner : getBytes inner.toList = some sig) (hlen : sig.length < 2 ^ 64) :
    ∃ authorization,
      request.authorization env.crypto device keys config session storeAddress =
        some (hexlify authorization) ∧
      getBytes (hexlify authorization).toList = some authorization ∧
      ∀ tx s', tx.call = change.call i authorization →
        (step env (run (step env) s₀ txs) tx = .ok s' ↔
          change.Allowed env (run (step env) s₀ txs) i ∧
            Names (run (step env) s₀ txs) (BitVec.ofNat 8 signer.kind) i id ∧
            checkMethodSig env (change.digest env i) ((run (step env) s₀ txs).methods id) sig =
              .ok true ∧
            s' = change.after env (run (step env) s₀ txs) i) := by
  have hsound : Sound env (txs.flatMap hashedBy) (run (step env) s₀ txs) :=
    run_sound hdeploy hcf fun tx htx p hp => List.mem_flatMap.mpr ⟨tx, htx, hp⟩
  refine ⟨encodeMethodBlob (BitVec.ofNat 8 signer.kind) i id sig, ?_, getBytes_hexlify _,
    fun tx s' hcall => step_authorized hsound hlen hcall⟩
  rw [authorization_eq hcontext request
    (hash_onChain hstore hchain hread (onChain_change change)) hdigest]
  unfold signIdentityDigest
  rw [hsigner]
  simp only [Option.bind_eq_bind, Option.bind_some, hdevice]
  exact encodeIdentityBlob_eq (signer_kind_lt hsigner) (bytes32_of_read hread) hid hinner

-- A browser whose server lists no key and whose device signs with its passkey, and a YubiKey with
-- a short coordinate.
def toyDevice (digest _credentialId : String) (_requireUv : Bool) : Option String :=
  (bytes32 digest).map fun digest => hexlify (toyAssertion 11 12 digest)

def toySession : WalletSession :=
  ⟨some (hex32 1), some 8453, "credential", hex32 11, hex32 12, none⟩

def toyConfig : WalletConfig := ⟨some (Checksum.addressText Crypto.toy toyEnv.this), none⟩

def toyContext : SigningContext :=
  ⟨⟨hex32 1, "credential", hex32 11, hex32 12, none⟩, Checksum.addressText Crypto.toy toyEnv.this,
    8453⟩

def toyChange : SessionChange := .addMethod .yubikey (some "0x15") (some (hex32 22)) none

def yubikeyFields (qx qy : Bytes32) : MethodFields := ⟨METHOD_YUBIKEY, qx, qy, 0⟩

def registration : List (Tx IdentityStore.Call) := [⟨0xCA11, 100, .register 1 11 12⟩]

theorem session_authorization_accepted_yubikey :
    ∃ authorization,
      toyChange.authorization Crypto.toy toyDevice [] toyConfig toySession none =
        some (hexlify authorization) ∧
      step toyEnv (run (step toyEnv) toyStore registration)
          ⟨0xCA11, 101, .addMethod 1 (yubikeyFields 21 22) authorization⟩ =
        .ok (added toyEnv (run (step toyEnv) toyStore registration) 1 (yubikeyFields 21 22)) := by
  let id := computeMethodId Crypto.toy 1 (passkeyFields 11 12)
  let digest := hashAddMethod toyEnv 1 (yubikeyFields 21 22)
  have hdeploy : deploy 0x0BE0 0x0A11CE = .ok toyStore := rfl
  have hcf : toyEnv.crypto.CollisionFree (registration.flatMap hashedBy) := by decide +kernel
  have hcontext : signingContext toySession none toyConfig = some toyContext := by decide +kernel
  have hstore : readAddress toyEnv.crypto toyContext.store = some toyEnv.this := by decide +kernel
  have hread : (toyChange.client toyContext.session.identityId).read toyEnv.crypto =
      some (Change.message 1 (.addMethod (yubikeyFields 21 22))) := by decide +kernel
  have hsigner : identitySignerFromSession toyEnv.crypto [] toyContext.session =
      some ⟨0, hex32 id, "credential"⟩ := by decide +kernel
  have hdevice : toyDevice (hex32 (Change.digest toyEnv 1 (.addMethod (yubikeyFields 21 22))))
      "credential" false = some (hexlify (toyAssertion 11 12 digest)) := by
    unfold toyDevice
    rw [bytes32_hex32]
    rfl
  obtain ⟨authorization, htext, -, hstep⟩ := session_authorization_accepted hdeploy registration hcf
    hcontext hstore rfl hread (fun _ h => absurd h (Option.not_mem_none _)) hsigner
    (bytes32_hex32 id) hdevice (getBytes_hexlify _) (by decide +kernel)
  refine ⟨authorization, htext, (hstep _ _ rfl).mpr ⟨?_, ?_, ?_, rfl⟩⟩
  · have hvalid : ValidFields (yubikeyFields 21 22) :=
      .inr ⟨.inr rfl, rfl, fun hzero => absurd hzero.1 (by decide)⟩
    exact ⟨by decide +kernel, by decide +kernel, hvalid, by decide +kernel, by decide +kernel⟩
  · apply And.intro
    · decide +kernel
    · decide +kernel
  · decide +kernel

end OnchainInvoice.Signing
