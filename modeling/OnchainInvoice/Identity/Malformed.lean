import OnchainInvoice.Identity.SuperWallet

/-!
# Blobs that do not decode

`verify` answers zero for a blob that is not valid and reverts on one that `abi.decode` rejects, in
the blob itself or in the assertion for a passkey that it names.
-/

namespace OnchainInvoice.IdentityStore

open Evm IdentityTypes Lib.Revert

-- The method is the one that the blob says it is.
def Names (s : State) (kind : Uint8) (identityId id : Bytes32) : Prop :=
  (s.methods id).exists_ = true ∧ (s.methods id).identityId = identityId ∧ (s.methods id).kind = kind

-- A passkey method reads the signature as an assertion, unless it is too short for one.
def ReadsAssertion (m : Method) (inner : Bytes) : Prop :=
  (m.kind = METHOD_WEBAUTHN ∨ m.kind = METHOD_YUBIKEY) ∧ ¬(m.qx = 0 ∧ m.qy = 0) ∧
    0xC0 ≤ inner.length

/-- What is decoded is a well-formed encoding. -/
def WellFormed (s : State) (blob : Bytes) : Prop :=
  4 ≤ blob.length → blob.take 4 = SIG_MAGIC →
    ∃ kind identityId id inner, decodeMethodBlob (blob.drop 4) = some (kind, identityId, id, inner) ∧
      (Names s kind identityId id → ReadsAssertion (s.methods id) inner →
        (decodeWebAuthnAuth inner).isSome = true)

/-- `verify` returns the identity whose method has signed, or zero. -/
def Returns (env : Env) (s : State) (message : Bytes32) (blob : Bytes) : Prop :=
  ∃ answer, verify env s message blob = .ok answer ∧ (answer ≠ 0 →
    ∃ kind id inner, blob.take 4 = SIG_MAGIC ∧
      decodeMethodBlob (blob.drop 4) = some (kind, answer, id, inner) ∧ Names s kind answer id ∧
      checkMethodSig env message (s.methods id) inner = .ok true)

variable {env : Env} {s : State} {message : Bytes32} {blob inner : Bytes} {m : Method}

theorem verifyWebAuthn_ok_iff {crypto : Crypto} {qx qy : Bytes32} :
    (∃ valid, verifyWebAuthn crypto message inner qx qy = .ok valid) ↔
      (¬(qx = 0 ∧ qy = 0) → 0xC0 ≤ inner.length → (decodeWebAuthnAuth inner).isSome = true) := by
  unfold verifyWebAuthn
  by_cases hkey : qx = 0 ∧ qy = 0
  · rw [if_pos hkey]
    exact iff_of_true ⟨false, rfl⟩ fun hne => absurd hkey hne
  rw [if_neg hkey]
  by_cases hshort : inner.length < 0xC0
  · rw [if_pos hshort]
    exact iff_of_true ⟨false, rfl⟩ fun _ hlen => absurd hshort (by omega)
  rw [if_neg hshort]
  cases decodeWebAuthnAuth inner with
  | none =>
    apply iff_of_false
    · rintro ⟨valid, h⟩
      cases h
    · intro h
      cases h hkey (by omega)
  | some auth => exact iff_of_true ⟨_, rfl⟩ fun _ _ => rfl

theorem checkMethodSig_ok_iff : (∃ valid, checkMethodSig env message m inner = .ok valid) ↔
    (ReadsAssertion m inner → (decodeWebAuthnAuth inner).isSome = true) := by
  unfold checkMethodSig ReadsAssertion
  by_cases heoa : m.kind = METHOD_EOA
  · have hnot : ¬(m.kind = METHOD_WEBAUTHN ∨ m.kind = METHOD_YUBIKEY) := by
      rw [heoa]
      decide
    rw [if_pos heoa]
    refine iff_of_true ?_ fun h => absurd h.1 hnot
    split
    · exact ⟨_, rfl⟩
    · split <;> exact ⟨_, rfl⟩
  rw [if_neg heoa]
  by_cases hpasskey : m.kind = METHOD_WEBAUTHN ∨ m.kind = METHOD_YUBIKEY
  · rw [if_pos hpasskey, verifyWebAuthn_ok_iff]
    apply Iff.intro
    · intro h hreads
      exact h hreads.2.1 hreads.2.2
    · intro h hkey hlen
      exact h ⟨hpasskey, hkey, hlen⟩
  · rw [if_neg hpasskey]
    exact iff_of_true ⟨false, rfl⟩ fun h => absurd h.1 hpasskey

-- Past the magic.
theorem verify_eq (hlen : 4 ≤ blob.length) (hmagic : blob.take 4 = SIG_MAGIC) {kind : Uint8}
    {identityId id : Bytes32}
    (hdecode : decodeMethodBlob (blob.drop 4) = some (kind, identityId, id, inner)) :
    verify env s message blob = (do
      if (s.methods id).exists_ = false ∨ (s.methods id).identityId ≠ identityId ∨
        (s.methods id).kind ≠ kind then return 0
      let valid ← checkMethodSig env message (s.methods id) inner
      return if valid then identityId else 0) := by
  unfold verify
  rw [if_neg (by omega), if_neg (not_not.mpr hmagic), hdecode]
  rfl

theorem names_iff {kind : Uint8} {identityId id : Bytes32} : Names s kind identityId id ↔
    ¬((s.methods id).exists_ = false ∨ (s.methods id).identityId ≠ identityId ∨
      (s.methods id).kind ≠ kind) := by
  unfold Names
  simp only [not_or, Bool.not_eq_false, ne_eq, not_not]

/-- `verify` returns just when what it decodes is well formed. -/
theorem returns_iff : Returns env s message blob ↔ WellFormed s blob := by
  unfold Returns WellFormed
  by_cases hlen : 4 ≤ blob.length
  swap
  · refine iff_of_true ⟨0, ?_, fun h => absurd rfl h⟩ fun h => absurd h hlen
    unfold verify
    rw [if_pos (by omega)]
  by_cases hmagic : blob.take 4 = SIG_MAGIC
  swap
  · refine iff_of_true ⟨0, ?_, fun h => absurd rfl h⟩ fun _ h => absurd h hmagic
    unfold verify
    rw [if_neg (by omega), if_pos hmagic]
  cases hdecode : decodeMethodBlob (blob.drop 4) with
  | none =>
    have hreverts : verify env s message blob = .error .abiDecode := by
      unfold verify
      rw [if_neg (by omega), if_neg (not_not.mpr hmagic), hdecode]
      rfl
    rw [hreverts]
    apply iff_of_false
    · rintro ⟨_, h, -⟩
      cases h
    · intro h
      obtain ⟨_, _, _, _, hsome, -⟩ := h hlen hmagic
      cases hsome
  | some decoded =>
    obtain ⟨kind, identityId, id, inner⟩ := decoded
    rw [verify_eq hlen hmagic hdecode]
    by_cases hnames : Names s kind identityId id
    swap
    · -- The blob names no method of the identity.
      rw [if_pos (not_not.mp (mt names_iff.mpr hnames))]
      exact iff_of_true ⟨0, rfl, fun h => absurd rfl h⟩
        fun _ _ => ⟨kind, identityId, id, inner, rfl, fun h => absurd h hnames⟩
    rw [if_neg (names_iff.mp hnames)]
    apply Iff.intro
    · rintro ⟨answer, hok, -⟩ - -
      obtain ⟨valid, hvalid, -⟩ := bind_eq_ok.mp hok
      exact ⟨kind, identityId, id, inner, rfl, fun _ => checkMethodSig_ok_iff.mp ⟨valid, hvalid⟩⟩
    · intro h
      obtain ⟨_, _, _, _, hsome, hreads⟩ := h hlen hmagic
      cases hsome
      have hreturns : ∃ valid, checkMethodSig env message (s.methods id) inner = .ok valid :=
        checkMethodSig_ok_iff.mpr (hreads hnames)
      obtain ⟨valid, hvalid⟩ := hreturns
      refine ⟨if valid then identityId else 0, by rw [hvalid]; rfl, fun hne => ?_⟩
      cases valid with
      | false => exact absurd rfl hne
      | true => exact ⟨kind, id, inner, hmagic, rfl, hnames, hvalid⟩

end OnchainInvoice.IdentityStore

namespace OnchainInvoice.IdentityWallet

open Evm IdentityTypes Lib.Revert Lib.Runs

section Votes

variable {s : State} {verify : Bytes32 → Bytes → Except Error Bytes32} {hash : Bytes32}
  {pre post : List Bytes} {bad : Bytes}

/-- Past blobs that have voted the loop comes to the next one. -/
theorem collectVotes_append {votes total : Uint8} {seen : Uint256}
    (h : collectVotes s verify hash pre votes seen = .ok (some total)) :
    ∃ seen', collectVotes s verify hash (pre ++ post) votes seen =
      collectVotes s verify hash post total seen' := by
  induction pre generalizing votes seen with
  | nil =>
    cases h
    exact ⟨seen, rfl⟩
  | cons blob pre ih =>
    rw [List.cons_append]
    simp only [collectVotes] at h ⊢
    obtain ⟨id, hid, h⟩ := bind_eq_ok.mp h
    rw [hid]
    simp only [bind, Except.bind]
    by_cases hsigner : id = 0 ∨ s.isSigner id = false
    · rw [if_pos hsigner] at h
      cases h
    rw [if_neg hsigner] at h ⊢
    cases hfind : findSigner s.signerAt id s.signerCount with
    | none =>
      rw [hfind] at h
      cases h
    | some bit =>
      simp only [hfind] at h ⊢
      by_cases hseen : seen &&& Lib.Bitmap.mask bit.toNat ≠ 0
      · rw [if_pos hseen] at h
        cases h
      rw [if_neg hseen] at h ⊢
      obtain ⟨votes', hvotes, h⟩ := bind_eq_ok.mp h
      rw [hvotes]
      exact ih h

/-- A blob that does not verify ends the loop, unless it reverts. -/
theorem collectVotes_bad (hbad : ∀ id, verify hash bad = .ok id → id = 0) {votes : Uint8}
    {seen : Uint256} : collectVotes s verify hash (bad :: post) votes seen =
      (verify hash bad).map fun _ => none := by
  simp only [collectVotes]
  cases hverify : verify hash bad with
  | error e => rfl
  | ok id =>
    have hzero : id = 0 ∨ s.isSigner id = false := .inl (hbad id hverify)
    simp only [bind, Except.bind, if_pos hzero]
    rfl

theorem validateSuper_bad {votes : Uint8}
    (hpre : collectVotes s verify hash pre 0 0 = .ok (some votes))
    (hbad : ∀ id, verify hash bad = .ok id → id = 0) :
    validateSuper s verify hash (pre ++ bad :: post) = (verify hash bad).map fun _ => false := by
  have happend : ∃ seen, collectVotes s verify hash (pre ++ bad :: post) 0 0 =
      collectVotes s verify hash (bad :: post) votes seen := collectVotes_append hpre
  obtain ⟨seen, hloop⟩ := happend
  unfold validateSuper
  rw [hloop, collectVotes_bad hbad]
  cases verify hash bad <;> rfl

end Votes

/-- `verify` returns just when what it decodes is well formed, and so a super wallet rejects a list
with a blob that does not verify just when that blob is well formed. -/
theorem verify_returns_iff (env : IdentityStore.Env) (store : IdentityStore.State) :
    (∀ message blob,
      IdentityStore.Returns env store message blob ↔ IdentityStore.WellFormed store blob) ∧
    ∀ (s : State) (hash : Bytes32) (signature : Bytes) (pre : List Bytes) (bad : Bytes)
      (post : List Bytes) (votes : Uint8), s.superWallet = true →
      decodeSuperBlobs signature = .ok (pre ++ bad :: post) →
      collectVotes s (IdentityStore.verify env store) hash pre 0 0 = .ok (some votes) →
      (∀ id, IdentityStore.verify env store hash bad = .ok id → id = 0) →
      (rawSignatureValidation s (IdentityStore.verify env store) hash signature = .ok false ↔
        IdentityStore.WellFormed store bad) := by
  refine ⟨fun message blob => IdentityStore.returns_iff, ?_⟩
  intro s hash signature pre bad post votes hsuper hdecode hpre hbad
  have hmagic : 4 ≤ signature.length ∧ signature.take 4 = SUPER_MAGIC := by
    unfold decodeSuperBlobs at hdecode
    simp only [bind_eq_ok, revertIf_eq_ok, exists_const, decide_eq_false_iff_not,
      bne_eq_false_iff_eq] at hdecode
    exact ⟨not_lt.mp hdecode.1, hdecode.2.1⟩
  unfold rawSignatureValidation
  rw [if_pos hsuper, if_pos hmagic, hdecode, ← @IdentityStore.returns_iff env store hash bad]
  show validateSuper s (IdentityStore.verify env store) hash (pre ++ bad :: post) = .ok false ↔ _
  rw [validateSuper_bad hpre hbad]
  unfold IdentityStore.Returns
  cases hverify : IdentityStore.verify env store hash bad with
  | error e => exact iff_of_false (by simp [Except.map]) (by simp)
  | ok id => exact iff_of_true rfl ⟨id, rfl, fun hne => absurd (hbad id hverify) hne⟩

-- A signer's passkey signature, and a blob that is the magic and nothing else.
def malformedBlobs (hash : Bytes32) : List Bytes :=
  [IdentityStore.passkeyBlob IdentityStore.toyEnv 4 41 42 hash, SIG_MAGIC]

theorem decodeSuperBlobs_malformed :
    decodeSuperBlobs (encodeSuperBlobs (malformedBlobs 7)) = .ok (malformedBlobs 7) := by
  decide +kernel

theorem verify_returns_iff_superRun :
    ¬IdentityStore.WellFormed (run (step toyEnv) toySystem superRun).store SIG_MAGIC := by
  have hverify : IdentityStore.verify IdentityStore.toyEnv
      (run (step toyEnv) toySystem superRun).store 7 SIG_MAGIC = .error .abiDecode := by
    decide +kernel
  have hiff := (verify_returns_iff IdentityStore.toyEnv
    (run (step toyEnv) toySystem superRun).store).2 (run (step toyEnv) toySystem superRun).wallet 7
    (encodeSuperBlobs (malformedBlobs 7)) [IdentityStore.passkeyBlob IdentityStore.toyEnv 4 41 42 7]
    SIG_MAGIC [] 1 (by decide +kernel) decodeSuperBlobs_malformed (by decide +kernel)
    fun id hid => by
      rw [hverify] at hid
      cases hid
  have hreverts : rawSignatureValidation (run (step toyEnv) toySystem superRun).wallet
      (IdentityStore.verify IdentityStore.toyEnv (run (step toyEnv) toySystem superRun).store) 7
      (encodeSuperBlobs (malformedBlobs 7)) ≠ .ok false := by
    decide +kernel
  exact mt hiff.mpr hreverts

/-- The magic alone makes `verify` revert, and a super wallet with it. -/
theorem magic_alone_reverts :
    IdentityStore.verify IdentityStore.toyEnv (run (step toyEnv) toySystem superRun).store 7
        SIG_MAGIC = .error .abiDecode ∧
      rawSignatureValidation (run (step toyEnv) toySystem superRun).wallet
          (IdentityStore.verify IdentityStore.toyEnv (run (step toyEnv) toySystem superRun).store) 7
          (encodeSuperBlobs (malformedBlobs 7)) = .error .abiDecode := by
  decide +kernel

end OnchainInvoice.IdentityWallet
