import OnchainInvoice.Wallet.Bijection

/-!
# What a simple wallet accepts

The owner list, map and count agree in every reachable state, so the signature check asks every
owner.  A malformed signature convinces none of them, except an EOA owner whose address is zero:
the zero address is also what a failed recovery yields.
-/

namespace OnchainInvoice.P256OwnerRegistry

open Evm AdvancedWalletTypes WalletEip712 Lib.SwapPop Function

variable {env : Env} {r r' : OwnerRegistry} {qx qy digest : Bytes32} {signature : Bytes}

/-! ## The owner list -/

structure WellFormed (r : OwnerRegistry) : Prop where
  mem : ∀ id, id ∈ r.ownerIds ↔ r.owners id = true
  nodup : r.ownerIds.Nodup
  count : r.ownerCount.toNat = r.ownerIds.length
  nonempty : r.ownerIds ≠ []

theorem WellFormed.first (hok : addOwnerKey env OwnerRegistry.empty qx qy = .ok r) :
    WellFormed r := by
  rcases addOwnerKey_eq_ok.mp hok with ⟨-, -, -, rfl⟩
  refine ⟨fun id => ?_, List.nodup_singleton _, rfl, List.cons_ne_nil _ _⟩
  show id ∈ [ownerId env qx qy] ↔ update (fun _ => false) (ownerId env qx qy) true id = true
  rw [List.mem_singleton, update_apply]
  by_cases hid : id = ownerId env qx qy
  · simp [hid]
  · simp [hid]

theorem WellFormed.addOwnerKey (h : WellFormed r) (hok : addOwnerKey env r qx qy = .ok r') :
    WellFormed r' := by
  rcases addOwnerKey_eq_ok.mp hok with ⟨-, hnew, hfit, rfl⟩
  have hfresh : ownerId env qx qy ∉ r.ownerIds := by
    rw [h.mem, hnew]
    exact Bool.false_ne_true
  refine ⟨fun id => ?_, ?_, ?_, by simp [ownerAdded, storeOwnerKey]⟩
  · show id ∈ r.ownerIds ++ [ownerId env qx qy] ↔ update r.owners (ownerId env qx qy) true id = true
    rw [List.mem_append, List.mem_singleton, h.mem, update_apply]
    by_cases hid : id = ownerId env qx qy
    · simp [hid]
    · simp [hid]
  · show (r.ownerIds ++ [ownerId env qx qy]).Nodup
    rw [← List.concat_eq_append]
    exact h.nodup.concat hfresh
  · show (r.ownerCount + 1).toNat = (r.ownerIds ++ [ownerId env qx qy]).length
    have hone : (1 : Uint256).toNat = 1 := rfl
    rw [BitVec.toNat_add, hone, Nat.mod_eq_of_lt hfit, List.length_append, h.count]
    rfl

theorem WellFormed.removeOwnerKey (h : WellFormed r) (hok : removeOwnerKey env r qx qy = .ok r') :
    WellFormed r' := by
  rcases removeOwnerKey_eq_ok.mp hok with ⟨howner, hcount, rfl⟩
  have hmem : ownerId env qx qy ∈ r.ownerIds := (h.mem _).mpr howner
  have hlength := length_swapPop hmem
  have hone : (1 : Uint256).toNat = 1 := rfl
  have hsub : (r.ownerCount - 1).toNat = r.ownerCount.toNat - 1 := by
    rw [BitVec.toNat_sub_of_le (BitVec.le_def.mpr (by omega)), hone]
  have hold := h.count
  refine ⟨fun id => ?_, nodup_swapPop _ h.nodup, ?_, ?_⟩
  · show id ∈ swapPop r.ownerIds (ownerId env qx qy) ↔
      update r.owners (ownerId env qx qy) false id = true
    rw [mem_swapPop h.nodup, h.mem, update_apply]
    by_cases hid : id = ownerId env qx qy
    · simp [hid]
    · simp [hid]
  · show (r.ownerCount - 1).toNat = (swapPop r.ownerIds (ownerId env qx qy)).length
    omega
  · show swapPop r.ownerIds (ownerId env qx qy) ≠ []
    apply List.ne_nil_of_length_pos
    omega

/-! ## Registered owners -/

def Registered (r : OwnerRegistry) (key : OwnerKey) : Prop :=
  ∃ id, r.owners id = true ∧ r.ownerKeys id = key

theorem registered_of_addOwnerKey {key : OwnerKey} (hok : addOwnerKey env r qx qy = .ok r')
    (h : Registered r' key) : key = ⟨qx, qy⟩ ∨ Registered r key := by
  rcases addOwnerKey_eq_ok.mp hok with ⟨-, -, -, rfl⟩
  rcases h with ⟨id, howner, hkey⟩
  simp only [ownerAdded, storeOwnerKey, update_apply] at howner hkey
  by_cases hid : id = ownerId env qx qy
  · rw [if_pos hid] at hkey
    exact .inl hkey.symm
  · rw [if_neg hid] at howner hkey
    exact .inr ⟨id, howner, hkey⟩

theorem registered_of_removeOwnerKey {key : OwnerKey} (hok : removeOwnerKey env r qx qy = .ok r')
    (h : Registered r' key) : Registered r key := by
  rcases removeOwnerKey_eq_ok.mp hok with ⟨-, -, rfl⟩
  rcases h with ⟨id, howner, hkey⟩
  simp only [ownerRemoved, removeOwnerId, update_apply] at howner hkey
  by_cases hid : id = ownerId env qx qy
  · rw [if_pos hid] at howner
    exact absurd howner Bool.false_ne_true
  · rw [if_neg hid] at howner hkey
    exact ⟨id, howner, hkey⟩

/-! ## Malformed signatures -/

-- An EOA owner whose address is zero.
def ZeroEoa (env : Env) (key : OwnerKey) : Prop :=
  key.qy = EOA_OWNER_QY env ∧ eoaFromQx key.qx = 0

instance (env : Env) (key : OwnerKey) : Decidable (ZeroEoa env key) :=
  inferInstanceAs (Decidable (_ ∧ _))

-- The signature neither recovers to a registered EOA owner nor is an assertion of a P-256 owner.
structure Malformed (env : Env) (r : OwnerRegistry) (digest : Bytes32) (signature : Bytes) :
    Prop where
  eoa : ∀ key, Registered r key → key.qy = EOA_OWNER_QY env →
    env.crypto.tryRecover (hashUserOp env env.this digest) signature ≠ some (eoaFromQx key.qx)
  passkey : ∀ key, Registered r key → key.qy ≠ EOA_OWNER_QY env → ∀ auth,
    env.crypto.tryDecodeAuth signature = some auth →
      env.crypto.webAuthnVerify (wordBytes digest) auth key.qx key.qy = false

theorem malformed_nil (env : Env) (r : OwnerRegistry) (digest : Bytes32) :
    Malformed env r digest [] := by
  constructor
  · intro key _ _ hrec
    rw [env.crypto.tryRecover_nil] at hrec
    cases hrec
  · intro key _ _ auth hdec
    rw [env.crypto.tryDecodeAuth_nil] at hdec
    cases hdec

theorem validateWebAuthn_eq_true : validateWebAuthn env digest signature qx qy = true ↔
    ∃ auth, env.crypto.tryDecodeAuth signature = some auth ∧
      env.crypto.webAuthnVerify (wordBytes digest) auth qx qy = true := by
  unfold validateWebAuthn
  cases hdec : env.crypto.tryDecodeAuth signature with
  | none => simp
  | some auth => simp

/-- Only an EOA owner with the address zero takes a malformed signature, and it takes those from
which nothing is recovered. -/
theorem validateOwner_of_malformed (hm : Malformed env r digest signature) (id : Bytes32) :
    validateOwner env r digest signature id = true ↔ r.owners id = true ∧
      ZeroEoa env (r.ownerKeys id) ∧
        env.crypto.tryRecover (hashUserOp env env.this digest) signature = none := by
  unfold validateOwner
  by_cases howner : r.owners id = true
  · have hregistered : Registered r (r.ownerKeys id) := ⟨id, howner, rfl⟩
    rw [if_neg (by simp [howner])]
    by_cases hqy : (r.ownerKeys id).qy = EOA_OWNER_QY env
    · have hsentinel : isEoaOwnerQy env (r.ownerKeys id).qy = true := beq_iff_eq.mpr hqy
      simp only [hsentinel, if_true, recoverUserOp, beq_iff_eq]
      by_cases hzero : eoaFromQx (r.ownerKeys id).qx = 0
      · rw [hzero, recover_eq_zero]
        simp [howner, ZeroEoa, hqy, hzero]
      · rw [recover_eq hzero]
        apply Iff.intro
        · intro hrec
          exact absurd hrec (hm.eoa _ hregistered hqy)
        · rintro ⟨_, hzeroEoa, _⟩
          exact absurd hzeroEoa.2 hzero
    · have hsentinel : ¬isEoaOwnerQy env (r.ownerKeys id).qy = true := fun h =>
        hqy (beq_iff_eq.mp h)
      rw [if_neg hsentinel, validateWebAuthn_eq_true]
      apply Iff.intro
      · rintro ⟨auth, hdec, hverify⟩
        rw [hm.passkey _ hregistered hqy auth hdec] at hverify
        cases hverify
      · rintro ⟨_, hzeroEoa, _⟩
        exact absurd hzeroEoa.1 hqy
  · rw [if_pos (Bool.eq_false_iff.mpr howner)]
    simp [howner]

theorem validateAnyOwner_of_malformed (hr : WellFormed r) (hm : Malformed env r digest signature) :
    validateAnyOwner env r digest signature = true ↔
      env.crypto.tryRecover (hashUserOp env env.this digest) signature = none ∧
        ∃ key, Registered r key ∧ ZeroEoa env key := by
  unfold validateAnyOwner
  rw [List.any_eq_true]
  apply Iff.intro
  · rintro ⟨id, _, hvalid⟩
    rcases (validateOwner_of_malformed hm id).mp hvalid with ⟨howner, hzero, hrec⟩
    exact ⟨hrec, _, ⟨id, howner, rfl⟩, hzero⟩
  · rintro ⟨hrec, key, ⟨id, howner, hkey⟩, hzero⟩
    rw [← hkey] at hzero
    exact ⟨id, (hr.mem id).mpr howner, (validateOwner_of_malformed hm id).mpr ⟨howner, hzero, hrec⟩⟩

end OnchainInvoice.P256OwnerRegistry

namespace OnchainInvoice.Wallet

open Evm AdvancedWalletTypes WalletEip712 P256OwnerRegistry AdvancedWalletMixin Lib.Revert Lib.Runs

variable {env : Env} {s s' : State} {tx : Tx Call}

/-! ## Where owners come from -/

-- The owner a call names by its coordinates, to be added now or after the recovery delay.
def offered : Call → Option OwnerKey
  | .initialize_ qx qy _ _ => some ⟨qx, qy⟩
  | .addOwner qx qy => some ⟨qx, qy⟩
  | .recoveryAddOwner qx qy => some ⟨qx, qy⟩
  | _ => none

def pendingKey (s : State) : OwnerKey := ⟨s.pendingOwner.qx, s.pendingOwner.qy⟩

inductive OwnerSource (env : Env) (s : State) (call : Call) (key : OwnerKey) : Prop
  | call (h : offered call = some key)
  | eoa (owner : Address) (hne : owner ≠ 0) (h : key = ⟨eoaOwnerQx owner, EOA_OWNER_QY env⟩)
  | pending (hactive : s.pendingOwner.active = true) (h : key = pendingKey s)

theorem Effect.registry_cases (he : Effect env s tx s') : s'.registry = s.registry ∨
    (∃ key, OwnerSource env s tx.call key ∧
      addOwnerKey env s.registry key.qx key.qy = .ok s'.registry) ∨
    ∃ qx qy, removeOwnerKey env s.registry qx qy = .ok s'.registry := by
  cases he with
  | initialize_ qx qy recoveryContract recoveryTimelock registry hcall hfirst hrecovery hadd =>
    exact .inr (.inl ⟨⟨qx, qy⟩, .call (by rw [hcall, offered]), hadd⟩)
  | owners registry hauth hpaused hsimple h =>
    generalize tx.call = call at h
    cases h with
    | @addOwner qx qy _ h => exact .inr (.inl ⟨⟨qx, qy⟩, .call rfl, h⟩)
    | addOwnerEoa hne hsig h => exact .inr (.inl ⟨_, .eoa _ hne rfl, h⟩)
    | removeOwner h => exact .inr (.inr ⟨_, _, h⟩)
  | executePendingOwner registry hcall hsimple hactive hready hadd =>
    exact .inr (.inl ⟨pendingKey s, .pending hactive rfl, hadd⟩)
  | _ => exact .inl rfl

theorem Effect.wellFormed (he : Effect env s tx s') (hs : WellFormed s.registry) :
    WellFormed s'.registry := by
  rcases he.registry_cases with hsame | ⟨key, -, hadd⟩ | ⟨qx, qy, hremove⟩
  · rw [hsame]
    exact hs
  · exact hs.addOwnerKey hadd
  · exact hs.removeOwnerKey hremove

theorem initialize_eq_ok {qx qy : Bytes32} {recoveryContract : Address}
    {recoveryTimelock : Uint256}
    (hcall : tx.call = .initialize_ qx qy recoveryContract recoveryTimelock)
    (h : step env clone tx = .ok s) :
    addOwnerKey env OwnerRegistry.empty qx qy = .ok s.registry ∧
      s.pendingOwner = PendingOwner.zero := by
  simp only [step, hcall, initialize_, bind_eq_ok, revertIf_eq_ok, pure_eq_ok, exists_const] at h
  rcases h with ⟨-, -, registry, hadd, rfl⟩
  exact ⟨hadd, rfl⟩

/-- In every reachable state the list, the map and the count of the owners agree, and there is an
owner. -/
theorem wellFormed_of_run {qx qy : Bytes32} {recoveryContract : Address}
    {recoveryTimelock : Uint256}
    (hcall : tx.call = .initialize_ qx qy recoveryContract recoveryTimelock)
    (hinit : step env clone tx = .ok s) (txs : List (Tx Call)) :
    WellFormed (run (step env) s txs).registry := by
  refine run_invariant (I := fun s => WellFormed s.registry)
    (fun _ _ _ hs hok => (step_effect hok).wellFormed hs) ?_ txs
  exact WellFormed.first (initialize_eq_ok hcall hinit).1

/-! ## The zero address -/

structure NoZeroEoa (env : Env) (s : State) : Prop where
  registered : ∀ key, Registered s.registry key → ¬ZeroEoa env key
  pending : s.pendingOwner.active = true → ¬ZeroEoa env (pendingKey s)

def OffersNoZeroEoa (env : Env) (call : Call) : Prop :=
  ∀ key ∈ offered call, ¬ZeroEoa env key

instance (env : Env) (call : Call) : Decidable (OffersNoZeroEoa env call) :=
  inferInstanceAs (Decidable (∀ key ∈ offered call, _))

theorem OwnerSource.not_zeroEoa {key : OwnerKey} (h : OwnerSource env s tx.call key)
    (hs : NoZeroEoa env s) (hoffer : OffersNoZeroEoa env tx.call) : ¬ZeroEoa env key := by
  cases h with
  | call h => exact hoffer key h
  | eoa owner hne h =>
    rw [h]
    intro hzero
    exact hne (eoaFromQx_eoaOwnerQx owner ▸ hzero.2)
  | pending hactive h => exact h ▸ hs.pending hactive

theorem Effect.noZeroEoa (he : Effect env s tx s') (hoffer : OffersNoZeroEoa env tx.call)
    (hs : NoZeroEoa env s) : NoZeroEoa env s' := by
  constructor
  · intro key hkey
    rcases he.registry_cases with hsame | ⟨added, hsource, hadd⟩ | ⟨qx, qy, hremove⟩
    · exact hs.registered key (hsame ▸ hkey)
    · rcases registered_of_addOwnerKey hadd hkey with rfl | hold
      · exact hsource.not_zeroEoa hs hoffer
      · exact hs.registered key hold
    · exact hs.registered key (registered_of_removeOwnerKey hremove hkey)
  · cases he with
    | recoveryAddOwner qx qy hcall hsimple hsender hidle hfit =>
      exact fun _ => hoffer ⟨qx, qy⟩ (by rw [hcall]; rfl)
    | initialize_ | policy | owners | setPaused | authorizeRecoveryUpdate => exact hs.pending
    | enableAdvanced | executePendingOwner | cancelPendingOwner
    | cancelPendingOwnerWithSignature => exact fun h => absurd h Bool.false_ne_true

def RejectsMalformed (env : Env) (s : State) : Prop :=
  ∀ digest signature, Malformed env s.registry digest signature →
    rawSignatureValidation env s digest signature = .ok false

theorem rawSignatureValidation_of_malformed (hr : WellFormed s.registry)
    (hsimple : s.policy.advanced = false) {digest : Bytes32} {signature : Bytes}
    (hm : Malformed env s.registry digest signature) :
    rawSignatureValidation env s digest signature = .ok false ↔ s.paused = true ∨
      env.crypto.tryRecover (hashUserOp env env.this digest) signature ≠ none ∨
        ¬∃ key, Registered s.registry key ∧ ZeroEoa env key := by
  unfold rawSignatureValidation
  by_cases hpaused : s.paused = true
  · simp [hpaused]
  · rw [if_neg hpaused, if_neg (by simp [hsimple]), Except.ok.injEq, ← Bool.not_eq_true,
      validateAnyOwner_of_malformed hr hm, not_and_or]
    simp [hpaused]

/-- In simple mode a malformed signature is rejected exactly when the wallet is paused, or the
signature recovers to some address, or no owner is an EOA owner with the address zero.  A run in
which no call offers such an owner rejects them all. -/
theorem malformed_rejected_iff (env : Env) (tx₀ : Tx Call) (qx qy : Bytes32)
    (recoveryContract : Address) (recoveryTimelock : Uint256) (s₀ : State)
    (hcall : tx₀.call = .initialize_ qx qy recoveryContract recoveryTimelock)
    (hinit : step env clone tx₀ = .ok s₀) (txs : List (Tx Call))
    (hsimple : (run (step env) s₀ txs).policy.advanced = false) :
    (∀ digest signature, Malformed env (run (step env) s₀ txs).registry digest signature →
      (rawSignatureValidation env (run (step env) s₀ txs) digest signature = .ok false ↔
        (run (step env) s₀ txs).paused = true ∨
          env.crypto.tryRecover (hashUserOp env env.this digest) signature ≠ none ∨
          ¬∃ key, Registered (run (step env) s₀ txs).registry key ∧ ZeroEoa env key)) ∧
    ((∀ tx ∈ tx₀ :: txs, OffersNoZeroEoa env tx.call) →
      RejectsMalformed env (run (step env) s₀ txs)) := by
  have hr := wellFormed_of_run hcall hinit txs
  apply And.intro
  · intro digest signature hm
    exact rawSignatureValidation_of_malformed hr hsimple hm
  · intro hoffers digest signature hm
    have hs₀ : NoZeroEoa env s₀ := by
      rcases initialize_eq_ok hcall hinit with ⟨hadd, hpending⟩
      constructor
      · intro key hkey
        rcases registered_of_addOwnerKey hadd hkey with rfl | ⟨id, howner, -⟩
        · exact hoffers tx₀ (List.mem_cons_self ..) _ (by rw [hcall]; rfl)
        · exact absurd howner Bool.false_ne_true
      · rw [hpending]
        exact fun h => absurd h Bool.false_ne_true
    have hs : NoZeroEoa env (run (step env) s₀ txs) := by
      refine run_invariant_of_mem (I := NoZeroEoa env) (fun s tx s' hmem hs hok => ?_) hs₀
      exact (step_effect hok).noZeroEoa (hoffers tx (List.mem_cons_of_mem _ hmem)) hs
    apply (rawSignatureValidation_of_malformed hr hsimple hm).mpr
    refine .inr (.inr ?_)
    rintro ⟨key, hkey, hzero⟩
    exact hs.registered key hkey hzero

-- A second passkey joins, recovery brings a third, and the first owner leaves.
def ownersRun : List (Tx Call) :=
  [bySelf (.addOwner 21 22), ⟨0x6EC, 300, .recoveryAddOwner 31 32⟩,
    ⟨0xFAC, 400, .executePendingOwner⟩, bySelf (.removeOwner 11 12)]

theorem malformed_rejected_ownersRun :
    RejectsMalformed toyEnv (run (step toyEnv) (toyWallet 11 12) ownersRun) :=
  (malformed_rejected_iff toyEnv (toyInitialize 11 12) 11 12 0x6EC 100 (toyWallet 11 12) rfl rfl
    ownersRun (by decide +kernel)).2 (by decide +kernel)

-- `addOwner` takes the coordinates of the address zero, which `addOwnerEoa` refuses.
def zeroEoaRun : List (Tx Call) := [bySelf (.addOwner 0 (EOA_OWNER_QY toyEnv))]

/-- After `addOwner(0, EOA_OWNER_QY)` the empty signature is malformed and accepted. -/
theorem malformed_accepted_for_zeroEoa :
    step toyEnv clone (toyInitialize 11 12) = .ok (toyWallet 11 12) ∧
      (run (step toyEnv) (toyWallet 11 12) zeroEoaRun).policy.advanced = false ∧
      Malformed toyEnv (run (step toyEnv) (toyWallet 11 12) zeroEoaRun).registry 7 [] ∧
      rawSignatureValidation toyEnv (run (step toyEnv) (toyWallet 11 12) zeroEoaRun) 7 [] =
        .ok true ∧
      ¬RejectsMalformed toyEnv (run (step toyEnv) (toyWallet 11 12) zeroEoaRun) := by
  have haccepted : rawSignatureValidation toyEnv (run (step toyEnv) (toyWallet 11 12) zeroEoaRun)
      7 [] = .ok true := by
    decide +kernel
  refine ⟨rfl, by decide +kernel, malformed_nil .., haccepted, ?_⟩
  intro hrejects
  have hrejected := hrejects 7 [] (malformed_nil ..)
  rw [haccepted] at hrejected
  exact absurd hrejected (by decide)

end OnchainInvoice.Wallet
