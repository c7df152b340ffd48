import OnchainInvoice.Identity.Store

/-!
# What one `IdentityStore` transaction does

`Effect env s tx s'` lists the ways a successful transaction changes the store, each with every
check the source makes on the way.  Invariants and histories are derived from `step_effect` alone,
so that no later proof unfolds an external function.
-/

namespace OnchainInvoice.IdentityStore

open Evm IdentityTypes Lib.Revert Lib.SwapPop Function

variable {env : Env} {s s' : State}

/-! ## The checks as propositions -/

def ValidP256 (qx qy : Bytes32) : Prop := ¬(qx = 0 ∧ qy = 0)

-- What `_assertMethodFields` accepts.
def ValidFields (f : MethodFields) : Prop :=
  (f.kind = METHOD_EOA ∧ f.eoa ≠ 0 ∧ f.qx = 0 ∧ f.qy = 0) ∨
    ((f.kind = METHOD_WEBAUTHN ∨ f.kind = METHOD_YUBIKEY) ∧ f.eoa = 0 ∧ ValidP256 f.qx f.qy)

theorem ValidFields.kind_cases {f : MethodFields} (h : ValidFields f) :
    f.kind = METHOD_WEBAUTHN ∨ f.kind = METHOD_YUBIKEY ∨ f.kind = METHOD_EOA := by
  rcases h with h | h
  · exact .inr (.inr h.1)
  · exact h.1.imp id .inl

theorem assertP256_eq_ok {qx qy : Bytes32} {u : Unit} :
    assertP256 qx qy = .ok u ↔ ValidP256 qx qy := by
  simp [assertP256, ValidP256]

theorem assertMethodFields_eq_ok {f : MethodFields} {u : Unit} :
    assertMethodFields f = .ok u ↔ ValidFields f := by
  unfold assertMethodFields ValidFields
  split
  · rename_i heoa
    have hne : ¬(METHOD_EOA = METHOD_WEBAUTHN ∨ METHOD_EOA = METHOD_YUBIKEY) := by decide
    simp [heoa, hne, and_assoc]
  · split
    · rename_i heoa hkey
      simp [bind_eq_ok, assertP256_eq_ok, heoa, hkey]
    · rename_i heoa hkey
      simp [heoa, hkey]

-- The checks of `_addMethod`.
structure CanAdd (env : Env) (s : State) (identityId : Bytes32) (f : MethodFields) : Prop where
  exists_ : (s.identities identityId).exists_ = true
  room : (s.identities identityId).methodCount.toNat < 32
  valid : ValidFields f
  fresh : (s.methods (computeMethodId env.crypto identityId f)).exists_ = false
  noOverflow : (Identity.kindCount (s.identities identityId) f.kind).toNat + 1 < 2 ^ 8

-- The checks of `_initiateRestore`.
structure CanInitiate (s : State) (tx : Tx Call) (identityId : Bytes32) (f : MethodFields) :
    Prop where
  operator : s.recoveryOperator ≠ 0
  sender : tx.sender = s.recoveryOperator
  exists_ : (s.identities identityId).exists_ = true
  enabled : (s.identities identityId).restoreEnabled = true
  idle : (s.pendingRestores identityId).active = false
  valid : ValidFields f
  noOverflow : (uint64 tx.timestamp).toNat + s.restoreDelay.toNat < 2 ^ 64

-- The checks of `_executeRestore` before it adds the method.
structure CanExecute (s : State) (tx : Tx Call) (identityId : Bytes32) : Prop where
  active : (s.pendingRestores identityId).active = true
  ready : (s.pendingRestores identityId).executeAfter.toNat ≤ tx.timestamp.toNat
  exists_ : (s.identities identityId).exists_ = true
  enabled : (s.identities identityId).restoreEnabled = true

/-! ## The successor states -/

def countAdded (idn : Identity) (kind : Uint8) : Identity :=
  Identity.setKindCount { idn with methodCount := idn.methodCount + 1 } kind
    (Identity.kindCount idn kind + 1)

def countRemoved (idn : Identity) (kind : Uint8) : Identity :=
  Identity.setKindCount { idn with methodCount := idn.methodCount - 1 } kind
    (Identity.kindCount idn kind - 1)

def added (env : Env) (s : State) (identityId : Bytes32) (f : MethodFields) : State :=
  storeMethod
    { s with
      identities := update s.identities identityId (countAdded (s.identities identityId) f.kind) }
    (computeMethodId env.crypto identityId f) identityId f

def removed (s : State) (identityId methodId : Bytes32) : State :=
  { s with
    identities := update s.identities identityId
      (countRemoved (s.identities identityId) (s.methods methodId).kind)
    methods := update s.methods methodId Method.zero
    methodIds := update s.methodIds identityId (swapPop (s.methodIds identityId) methodId) }

def passkeyFields (qx qy : Bytes32) : MethodFields := ⟨METHOD_WEBAUTHN, qx, qy, 0⟩

def registered (env : Env) (s : State) (identityId qx qy : Bytes32) : State :=
  storeMethod
    { s with
      identities := update s.identities identityId
        { exists_ := true, restoreEnabled := true, methodCount := 1, eoaCount := 0,
          webauthnCount := 1, yubikeyCount := 0 } }
    (computeMethodId env.crypto identityId (passkeyFields qx qy)) identityId (passkeyFields qx qy)

-- The `IDS1` blob of the toy assertion that a passkey of the identity makes over a digest.
def passkeyBlob (env : Env) (identityId qx qy digest : Bytes32) : Bytes :=
  encodeMethodBlob METHOD_WEBAUTHN identityId
    (computeMethodId env.crypto identityId (passkeyFields qx qy))
    (toyAssertion qx qy digest)

def initiated (s : State) (timestamp : Uint256) (identityId : Bytes32) (f : MethodFields) : State :=
  { s with
    pendingRestores := update s.pendingRestores identityId
      { f with executeAfter := uint64 timestamp + s.restoreDelay, active := true } }

def optedOut (s : State) (identityId : Bytes32) : State :=
  { s with
    identities := update s.identities identityId
      { s.identities identityId with restoreEnabled := false } }

def restoreDisabled (s : State) (identityId : Bytes32) : State :=
  if (s.pendingRestores identityId).active then clearPending (optedOut s identityId) identityId
  else optedOut s identityId

theorem addMethodInternal_eq_ok {identityId id : Bytes32} {f : MethodFields} :
    addMethodInternal env s identityId f = .ok (id, s') ↔
      CanAdd env s identityId f ∧ id = computeMethodId env.crypto identityId f ∧
        s' = added env s identityId f := by
  unfold addMethodInternal
  simp only [bind_eq_ok, revertIf_eq_ok, assertMethodFields_eq_ok, checkedAdd_eq_ok, pure_eq_ok,
    Bool.not_eq_false', decide_eq_false_iff_not, Prod.mk.injEq, exists_const, and_assoc]
  apply Iff.intro
  · rintro ⟨hexists, hroom, hvalid, hfresh, methodCount, _, hmc, kindCount, hk, hkc, hid, hs⟩
    have hlt : (s.identities identityId).methodCount.toNat < 32 :=
      BitVec.lt_def.mp (BitVec.not_le.mp hroom)
    refine ⟨⟨hexists, hlt, hvalid, hfresh, hk⟩, hid.symm, ?_⟩
    rw [← hs, ← hmc, ← hkc]
    rfl
  · rintro ⟨h, hid, hs⟩
    have hroom := h.room
    refine ⟨h.exists_, ?_, h.valid, h.fresh, _, ?_, rfl, _, h.noOverflow, rfl, hid.symm, hs.symm⟩
    · exact BitVec.not_le.mpr (BitVec.lt_def.mpr hroom)
    · show (s.identities identityId).methodCount.toNat + 1 < 2 ^ 8
      omega

theorem removeMethodInternal_eq_ok {identityId methodId : Bytes32} :
    removeMethodInternal s identityId methodId = .ok s' ↔
      1 ≤ (s.identities identityId).methodCount.toNat ∧
        1 ≤ (Identity.kindCount (s.identities identityId) (s.methods methodId).kind).toNat ∧
        s' = removed s identityId methodId := by
  unfold removeMethodInternal
  simp only [bind_eq_ok, checkedSub_eq_ok, pure_eq_ok, and_assoc]
  apply Iff.intro
  · rintro ⟨_, hm, hmc, _, hk, hkc, hs⟩
    refine ⟨hm, hk, ?_⟩
    rw [← hs, ← hmc, ← hkc]
    rfl
  · rintro ⟨hm, hk, hs⟩
    exact ⟨_, hm, rfl, _, hk, rfl, hs.symm⟩

/-! ## Authorization -/

-- The blob names the method `id` of the identity, which is live and whose signature it carries.
def VerifiedUnder (env : Env) (s : State) (message : Bytes32) (blob : Bytes)
    (identityId id : Bytes32) : Prop :=
  ∃ inner, 4 ≤ blob.length ∧ blob.take 4 = SIG_MAGIC ∧
    decodeMethodBlob (blob.drop 4) = some ((s.methods id).kind, identityId, id, inner) ∧
    (s.methods id).exists_ = true ∧ (s.methods id).identityId = identityId ∧
    checkMethodSig env message (s.methods id) inner = .ok true

theorem verify_eq_ok {message identityId : Bytes32} {blob : Bytes} (hid : identityId ≠ 0) :
    verify env s message blob = .ok identityId ↔
      ∃ id, VerifiedUnder env s message blob identityId id := by
  unfold verify VerifiedUnder
  by_cases hlen : blob.length < 4
  · have hlen' : ¬4 ≤ blob.length := by omega
    simpa [hlen, hlen'] using hid.symm
  by_cases hmagic : blob.take 4 = SIG_MAGIC
  · cases hdec : decodeMethodBlob (blob.drop 4) with
    | none => simp [hlen, hmagic, orRevert, bind_eq_ok]
    | some fields =>
      rcases fields with ⟨kind, signer, id, inner⟩
      have hlen' : 4 ≤ blob.length := by omega
      simp only [hlen, hmagic, if_false, not_true_eq_false, ne_eq, bind_eq_ok, orRevert_eq_ok,
        Option.some.injEq, exists_eq_left', Prod.mk.injEq, hlen', true_and]
      apply Iff.intro
      · intro h
        split at h
        · exact absurd (pure_eq_ok.mp h).symm hid
        · rename_i hlive
          rcases bind_eq_ok.mp h with ⟨valid, hcheck, hret⟩
          cases valid with
          | false => exact absurd (pure_eq_ok.mp hret).symm hid
          | true =>
            have hsigner : signer = identityId := pure_eq_ok.mp hret
            simp only [not_or, Bool.not_eq_false, not_not] at hlive
            rcases hlive with ⟨hexists, hident, hkind⟩
            exact ⟨id, inner, ⟨hkind.symm, hsigner, rfl, rfl⟩, hexists, hident.trans hsigner, hcheck⟩
      · rintro ⟨id', inner', ⟨hkind, hsigner, hid', hinner⟩, hexists, hident, hcheck⟩
        subst hid' hinner
        have hlive : ¬((s.methods id).exists_ = false ∨ (s.methods id).identityId ≠ signer ∨
            (s.methods id).kind ≠ kind) := by
          simp [hexists, hident, hkind, hsigner]
        rw [if_neg hlive]
        exact bind_eq_ok.mpr ⟨true, hcheck, by simp [hsigner]⟩
  · simpa [hlen, hmagic] using hid.symm

/-! ## The effects -/

inductive Effect (env : Env) (s : State) (tx : Tx Call) : State → Prop
  | register (identityId qx qy : Bytes32) (hcall : tx.call = .register identityId qx qy)
      (hid : identityId ≠ 0) (hnew : (s.identities identityId).exists_ = false)
      (hkey : ValidP256 qx qy) : Effect env s tx (registered env s identityId qx qy)
  | addMethod (identityId : Bytes32) (f : MethodFields) (authorization : Bytes)
      (hcall : tx.call = .addMethod identityId f authorization)
      (hverify : verify env s (hashAddMethod env identityId f) authorization = .ok identityId)
      (hcan : CanAdd env s identityId f) : Effect env s tx (added env s identityId f)
  | addMethodByEoa (identityId : Bytes32) (f : MethodFields)
      (hcall : tx.call = .addMethodByEoa identityId f)
      (heoa : isIdentityEoa env s identityId tx.sender = true)
      (hcan : CanAdd env s identityId f) : Effect env s tx (added env s identityId f)
  | removeMethod (identityId methodId : Bytes32) (authorization : Bytes)
      (hcall : tx.call = .removeMethod identityId methodId authorization)
      (hlive : (s.methods methodId).exists_ = true)
      (hmember : (s.methods methodId).identityId = identityId)
      (hcount : 1 < (s.identities identityId).methodCount.toNat)
      (hkind : 1 ≤ (Identity.kindCount (s.identities identityId) (s.methods methodId).kind).toNat)
      (hverify : verify env s (hashRemoveMethod env identityId methodId) authorization =
        .ok identityId) : Effect env s tx (removed s identityId methodId)
  | disableRestore (identityId : Bytes32) (hcall : tx.call = .disableRestore identityId)
      (hexists : (s.identities identityId).exists_ = true)
      (henabled : (s.identities identityId).restoreEnabled = true)
      (heoa : isIdentityEoa env s identityId tx.sender = true) :
      Effect env s tx (restoreDisabled s identityId)
  | initiateRestore (identityId : Bytes32) (f : MethodFields)
      (hcall : tx.call = .initiateRestore identityId f ∨
        tx.call = .restoreAddMethod identityId f ∧ s.restoreDelay ≠ 0)
      (hcan : CanInitiate s tx identityId f) :
      Effect env s tx (initiated s tx.timestamp identityId f)
  | restoreAddMethod (identityId : Bytes32) (f : MethodFields)
      (hcall : tx.call = .restoreAddMethod identityId f) (hdelay : s.restoreDelay = 0)
      (hinit : CanInitiate s tx identityId f) (hcan : CanAdd env s identityId f) :
      Effect env s tx (added env (clearPending s identityId) identityId f)
  | cancelRestore (identityId : Bytes32) (authorization : Bytes)
      (hcall : tx.call = .cancelRestore identityId authorization)
      (hactive : (s.pendingRestores identityId).active = true)
      (hverify : verify env s (hashCancelRestore env identityId) authorization = .ok identityId) :
      Effect env s tx (clearPending s identityId)
  | executeRestore (identityId : Bytes32) (hcall : tx.call = .executeRestore identityId)
      (hready : CanExecute s tx identityId)
      (hcan : CanAdd env s identityId (s.pendingRestores identityId).toMethodFields) :
      Effect env s tx (added env (clearPending s identityId) identityId
        (s.pendingRestores identityId).toMethodFields)
  | configure (owner recoveryOperator : Address) (restoreDelay : Uint64)
      (hcall : tx.call = .setRecoveryOperator recoveryOperator ∨
        tx.call = .setRestoreDelay restoreDelay ∨ tx.call = .transferOwnership owner ∨
        tx.call = .renounceOwnership)
      (howner : tx.sender = s.owner) :
      Effect env s tx { s with
        owner := owner, recoveryOperator := recoveryOperator, restoreDelay := restoreDelay }

theorem initiateRestoreInternal_eq_ok {tx : Tx Call} {identityId : Bytes32} {f : MethodFields} :
    initiateRestoreInternal s tx.sender tx.timestamp identityId f = .ok s' ↔
      CanInitiate s tx identityId f ∧ s' = initiated s tx.timestamp identityId f := by
  unfold initiateRestoreInternal
  simp only [bind_eq_ok, revertIf_eq_ok, assertMethodFields_eq_ok, checkedAdd_eq_ok, pure_eq_ok,
    Bool.not_eq_false', beq_eq_false_iff_ne, bne_eq_false_iff_eq, exists_const, and_assoc]
  apply Iff.intro
  · rintro ⟨hop, hsender, hexists, henabled, hidle, hvalid, after, hlt, hafter, hs⟩
    refine ⟨⟨hop, hsender, hexists, henabled, hidle, hvalid, hlt⟩, ?_⟩
    rw [← hs, ← hafter]
    rfl
  · rintro ⟨h, hs⟩
    exact ⟨h.operator, h.sender, h.exists_, h.enabled, h.idle, h.valid, _, h.noOverflow, rfl,
      hs.symm⟩

-- Adding a method neither reads nor writes the pending restores.
theorem canAdd_clearPending {identityId i : Bytes32} {f : MethodFields} :
    CanAdd env (clearPending s i) identityId f ↔ CanAdd env s identityId f :=
  ⟨fun h => ⟨h.1, h.2, h.3, h.4, h.5⟩, fun h => ⟨h.1, h.2, h.3, h.4, h.5⟩⟩

theorem executeRestoreInternal_eq_ok {tx : Tx Call} {identityId : Bytes32} :
    executeRestoreInternal env s tx.timestamp identityId = .ok s' ↔
      CanExecute s tx identityId ∧
        CanAdd env s identityId (s.pendingRestores identityId).toMethodFields ∧
        s' = added env (clearPending s identityId) identityId
          (s.pendingRestores identityId).toMethodFields := by
  unfold executeRestoreInternal
  simp only [bind_eq_ok, revertIf_eq_ok, pure_eq_ok, Bool.not_eq_false', decide_eq_false_iff_not,
    Nat.not_lt, exists_const, Prod.exists, addMethodInternal_eq_ok, canAdd_clearPending, and_assoc]
  apply Iff.intro
  · rintro ⟨hactive, hready, hexists, henabled, _, _, hcan, _, hadded, hs⟩
    exact ⟨⟨hactive, hready, hexists, henabled⟩, hcan, hs ▸ hadded⟩
  · rintro ⟨h, hcan, hs⟩
    exact ⟨h.active, h.ready, h.exists_, h.enabled, _, _, hcan, rfl, rfl, hs.symm⟩

theorem restoreAddMethod_eq_ok {tx : Tx Call} {identityId : Bytes32} {f : MethodFields}
    (h : restoreAddMethod env s tx.sender tx.timestamp identityId f = .ok s') :
    CanInitiate s tx identityId f ∧
      (s.restoreDelay ≠ 0 ∧ s' = initiated s tx.timestamp identityId f ∨
        s.restoreDelay = 0 ∧ CanAdd env s identityId f ∧
          s' = added env (clearPending s identityId) identityId f) := by
  unfold restoreAddMethod at h
  rcases bind_eq_ok.mp h with ⟨s₁, h₁, h₂⟩
  rcases initiateRestoreInternal_eq_ok.mp h₁ with ⟨hcan, rfl⟩
  refine ⟨hcan, ?_⟩
  by_cases hdelay : s.restoreDelay = 0
  · rw [if_pos (show (initiated s tx.timestamp identityId f).restoreDelay = 0 from hdelay)] at h₂
    rcases executeRestoreInternal_eq_ok.mp h₂ with ⟨-, hadd, rfl⟩
    -- The record that `_initiateRestore` wrote is the one that is executed and deleted.
    have hfields : ((initiated s tx.timestamp identityId f).pendingRestores
        identityId).toMethodFields = f := by simp [initiated]
    have hcleared : clearPending (initiated s tx.timestamp identityId f) identityId =
        clearPending s identityId := by simp [initiated, clearPending]
    rw [hfields] at hadd ⊢
    rw [hcleared]
    exact .inr ⟨hdelay, ⟨hadd.1, hadd.2, hadd.3, hadd.4, hadd.5⟩, rfl⟩
  · rw [if_neg (show ¬(initiated s tx.timestamp identityId f).restoreDelay = 0 from hdelay)] at h₂
    exact .inl ⟨hdelay, (pure_eq_ok.mp h₂).symm⟩

theorem disableRestore_eq_ok {sender : Address} {identityId : Bytes32}
    (h : disableRestore env s sender identityId = .ok s') :
    (s.identities identityId).exists_ = true ∧ (s.identities identityId).restoreEnabled = true ∧
      isIdentityEoa env s identityId sender = true ∧ s' = restoreDisabled s identityId := by
  unfold disableRestore at h
  simp only [bind_eq_ok, revertIf_eq_ok, pure_eq_ok, Bool.not_eq_false', exists_const] at h
  rcases h with ⟨hexists, henabled, -, -, heoa, hs⟩
  exact ⟨hexists, henabled, heoa, hs.symm⟩

/-- Every successful transaction is one of the effects. -/
theorem step_effect {tx : Tx Call} (h : step env s tx = .ok s') : Effect env s tx s' := by
  unfold step at h
  cases hcall : tx.call with
  | register identityId qx qy =>
    simp only [hcall, register, bind_eq_ok, revertIf_eq_ok, assertP256_eq_ok, pure_eq_ok,
      beq_eq_false_iff_ne, exists_const] at h
    rcases h with ⟨hid, hnew, hkey, rfl⟩
    exact .register identityId qx qy hcall hid hnew hkey
  | addMethod identityId f authorization =>
    simp only [hcall, addMethod, bind_eq_ok, revertIf_eq_ok, pure_eq_ok, bne_eq_false_iff_eq,
      exists_const, Prod.exists, addMethodInternal_eq_ok] at h
    rcases h with ⟨signer, hverify, rfl, _, _, ⟨hcan, -, rfl⟩, rfl⟩
    exact .addMethod signer f authorization hcall hverify hcan
  | addMethodByEoa identityId f =>
    simp only [hcall, addMethodByEoa, bind_eq_ok, revertIf_eq_ok, pure_eq_ok, Bool.not_eq_false',
      exists_const, Prod.exists, addMethodInternal_eq_ok] at h
    rcases h with ⟨heoa, _, _, ⟨hcan, -, rfl⟩, rfl⟩
    exact .addMethodByEoa identityId f hcall heoa hcan
  | removeMethod identityId methodId authorization =>
    simp only [hcall, removeMethod, bind_eq_ok, revertIf_eq_ok, Bool.or_eq_false_iff,
      Bool.not_eq_false', bne_eq_false_iff_eq, decide_eq_false_iff_not, exists_const,
      removeMethodInternal_eq_ok] at h
    rcases h with ⟨⟨hlive, hmember⟩, hcount, signer, hverify, rfl, -, hkind, rfl⟩
    have hcount' : 1 < (s.identities signer).methodCount.toNat :=
      BitVec.lt_def.mp (BitVec.not_le.mp hcount)
    exact .removeMethod signer methodId authorization hcall hlive hmember hcount' hkind hverify
  | disableRestore identityId =>
    simp only [hcall] at h
    rcases disableRestore_eq_ok h with ⟨hexists, henabled, heoa, rfl⟩
    exact .disableRestore identityId hcall hexists henabled heoa
  | restoreAddMethod identityId f =>
    simp only [hcall] at h
    rcases restoreAddMethod_eq_ok h with ⟨hinit, ⟨hdelay, rfl⟩ | ⟨hdelay, hadd, rfl⟩⟩
    · exact .initiateRestore identityId f (.inr ⟨hcall, hdelay⟩) hinit
    · exact .restoreAddMethod identityId f hcall hdelay hinit hadd
  | initiateRestore identityId f =>
    simp only [hcall, initiateRestore] at h
    rcases initiateRestoreInternal_eq_ok.mp h with ⟨hcan, rfl⟩
    exact .initiateRestore identityId f (.inl hcall) hcan
  | cancelRestore identityId authorization =>
    simp only [hcall, cancelRestore, bind_eq_ok, revertIf_eq_ok, pure_eq_ok, Bool.not_eq_false',
      bne_eq_false_iff_eq, exists_const] at h
    rcases h with ⟨hactive, signer, hverify, rfl, rfl⟩
    exact .cancelRestore signer authorization hcall hactive hverify
  | executeRestore identityId =>
    simp only [hcall, executeRestore] at h
    rcases executeRestoreInternal_eq_ok.mp h with ⟨hready, hcan, rfl⟩
    exact .executeRestore identityId hcall hready hcan
  | setRecoveryOperator recoveryOperator =>
    simp only [hcall, setRecoveryOperator, onlyOwner, bind_eq_ok, revertIf_eq_ok, pure_eq_ok,
      bne_eq_false_iff_eq, exists_const] at h
    rcases h with ⟨howner, rfl⟩
    exact .configure s.owner recoveryOperator s.restoreDelay (.inl hcall) howner
  | setRestoreDelay restoreDelay =>
    simp only [hcall, setRestoreDelay, onlyOwner, bind_eq_ok, revertIf_eq_ok, pure_eq_ok,
      bne_eq_false_iff_eq, exists_const] at h
    rcases h with ⟨howner, rfl⟩
    exact .configure s.owner s.recoveryOperator restoreDelay (.inr (.inl hcall)) howner
  | transferOwnership newOwner =>
    simp only [hcall, transferOwnership, onlyOwner, bind_eq_ok, revertIf_eq_ok, pure_eq_ok,
      bne_eq_false_iff_eq, exists_const] at h
    rcases h with ⟨howner, -, rfl⟩
    exact .configure newOwner s.recoveryOperator s.restoreDelay (.inr (.inr (.inl hcall))) howner
  | renounceOwnership =>
    simp only [hcall, renounceOwnership, onlyOwner, bind_eq_ok, revertIf_eq_ok, pure_eq_ok,
      bne_eq_false_iff_eq, exists_const] at h
    rcases h with ⟨howner, rfl⟩
    exact .configure 0 s.recoveryOperator s.restoreDelay (.inr (.inr (.inr hcall))) howner

end OnchainInvoice.IdentityStore
