import OnchainInvoice.Wallet.PolicyEffects
import OnchainInvoice.Wallet.Wallet

/-!
# What one `Wallet` transaction does

A successful transaction changes the policy, changes the owners, or moves the recovery; `Effect`
lists these with the checks made on the way.
-/

namespace OnchainInvoice.Wallet

open Evm AdvancedWalletTypes WalletEip712 P256OwnerRegistry AdvancedWalletMixin Lib.Revert

variable {env : Env} {s s' : State} {tx : Tx Call}

-- The calls that change the policy of an advanced wallet, and the change they make.
inductive PolicyChange (env : Env) (p : Policy) : Call → Policy → Prop
  | configureMultisig {config : MultisigConfig} {p' : Policy}
      (h : AdvancedWalletMixin.configureMultisig env p config = .ok p') :
      PolicyChange env p (.configureMultisig config) p'
  | addEntity {e : Bytes32} {p' : Policy} (h : AdvancedWalletMixin.addEntity p e = .ok p') :
      PolicyChange env p (.addEntity e) p'
  | removeEntity {e : Bytes32} {keyIds : List Bytes32} {p' : Policy}
      (h : AdvancedWalletMixin.removeEntity p e keyIds = .ok p') :
      PolicyChange env p (.removeEntity e keyIds) p'
  | addKey {key : KeyRecord} {p' : Policy} (h : AdvancedWalletMixin.addKey env p key = .ok p') :
      PolicyChange env p (.addKey key) p'
  | addKeyEoa {e : Bytes32} {eoa : Address} {signature : Bytes} {p' : Policy}
      (hsig : recoverAddKey env env.this e eoa signature = true)
      (h : AdvancedWalletMixin.addKey env p ⟨e, KEY_EOA, 0, 0, eoa⟩ = .ok p') :
      PolicyChange env p (.addKeyEoa e eoa signature) p'
  | removeKey {keyId : Bytes32} {p' : Policy} (h : AdvancedWalletMixin.removeKey p keyId = .ok p') :
      PolicyChange env p (.removeKey keyId) p'
  | setThreshold {m : Uint8} {p' : Policy} (h : AdvancedWalletMixin.setThreshold p m = .ok p') :
      PolicyChange env p (.setThreshold m) p'
  | setVeto {e : Bytes32} {isVeto : Bool} {p' : Policy}
      (h : AdvancedWalletMixin.setVeto p e isVeto = .ok p') :
      PolicyChange env p (.setVeto e isVeto) p'

-- The calls that change the owners of a simple wallet.
inductive OwnerChange (env : Env) (r : OwnerRegistry) : Call → OwnerRegistry → Prop
  | addOwner {qx qy : Bytes32} {r' : OwnerRegistry} (h : addOwnerKey env r qx qy = .ok r') :
      OwnerChange env r (.addOwner qx qy) r'
  | addOwnerEoa {owner : Address} {signature : Bytes} {r' : OwnerRegistry} (hne : owner ≠ 0)
      (hsig : recoverAddOwner env env.this owner signature = true)
      (h : addOwnerKey env r (eoaOwnerQx owner) (EOA_OWNER_QY env) = .ok r') :
      OwnerChange env r (.addOwnerEoa owner signature) r'
  | removeOwner {qx qy : Bytes32} {r' : OwnerRegistry} (h : removeOwnerKey env r qx qy = .ok r') :
      OwnerChange env r (.removeOwner qx qy) r'

def Authorized (env : Env) (sender : Address) : Prop :=
  sender = env.entryPoint ∨ sender = env.this

inductive Effect (env : Env) (s : State) (tx : Tx Call) : State → Prop
  | initialize_ (qx qy : Bytes32) (recoveryContract : Address) (recoveryTimelock : Uint256)
      (registry : OwnerRegistry)
      (hcall : tx.call = .initialize_ qx qy recoveryContract recoveryTimelock)
      (hfirst : s.initialized = false) (hrecovery : recoveryContract ≠ 0)
      (hadd : addOwnerKey env s.registry qx qy = .ok registry) :
      Effect env s tx { s with
        initialized := true
        registry := registry
        recoveryContract := recoveryContract
        recoveryTimelock := recoveryTimelock }
  | enableAdvanced (adminEntityId : Bytes32) (policy : Policy)
      (hcall : tx.call = .enableAdvanced adminEntityId) (hauth : Authorized env tx.sender)
      (hpaused : s.paused = false)
      (h : AdvancedWalletMixin.enableAdvanced s.policy s.pendingOwner.active
        (migrateSimpleOwnersToEntity env s.registry adminEntityId) adminEntityId = .ok policy) :
      Effect env s tx (disableRecovery { s with policy := policy })
  | policy (policy : Policy) (hauth : Authorized env tx.sender) (hpaused : s.paused = false)
      (h : PolicyChange env s.policy tx.call policy) : Effect env s tx { s with policy := policy }
  | owners (registry : OwnerRegistry) (hauth : Authorized env tx.sender)
      (hpaused : s.paused = false) (hsimple : s.policy.advanced = false)
      (h : OwnerChange env s.registry tx.call registry) :
      Effect env s tx { s with registry := registry }
  | setPaused (paused : Bool) (hcall : tx.call = .pause ∨ tx.call = .unpause)
      (hsimple : s.policy.advanced = false) (hsender : tx.sender = s.recoveryContract) :
      Effect env s tx { s with paused := paused }
  | authorizeRecoveryUpdate (metadata : Bytes) (hcall : tx.call = .authorizeRecoveryUpdate metadata)
      (hsimple : s.policy.advanced = false) (hsender : tx.sender = s.recoveryContract) :
      Effect env s tx { s with recoveryMetadata := metadata }
  | recoveryAddOwner (qx qy : Bytes32) (hcall : tx.call = .recoveryAddOwner qx qy)
      (hsimple : s.policy.advanced = false) (hsender : tx.sender = s.recoveryContract)
      (hidle : s.pendingOwner.active = false)
      (hfit : tx.timestamp.toNat + s.recoveryTimelock.toNat < 2 ^ 256) :
      Effect env s tx { s with
        pendingOwner :=
          { qx := qx
            qy := qy
            executableAt := uint64 (tx.timestamp + s.recoveryTimelock)
            requestId := recoveryRequestId env qx qy tx.timestamp
            active := true } }
  | executePendingOwner (registry : OwnerRegistry) (hcall : tx.call = .executePendingOwner)
      (hsimple : s.policy.advanced = false) (hactive : s.pendingOwner.active = true)
      (hready : s.pendingOwner.executableAt.toNat ≤ tx.timestamp.toNat)
      (hadd : addOwnerKey env s.registry s.pendingOwner.qx s.pendingOwner.qy = .ok registry) :
      Effect env s tx { clearPendingOwner s with registry := registry, paused := false }
  | cancelPendingOwner (hcall : tx.call = .cancelPendingOwner)
      (hsimple : s.policy.advanced = false) (hactive : s.pendingOwner.active = true)
      (hpaused : s.paused = false) : Effect env s tx (clearPendingOwner s)
  | cancelPendingOwnerWithSignature (signature : Bytes)
      (hcall : tx.call = .cancelPendingOwnerWithSignature signature)
      (hsimple : s.policy.advanced = false) (hactive : s.pendingOwner.active = true)
      (hpaused : s.paused = true)
      (hsig : validateAnyOwner env s.registry (cancelDigest env s.pendingOwner.requestId)
        signature = true) :
      Effect env s tx { clearPendingOwner s with paused := false }

theorem onlyEntryPointOrSelf_eq_ok {sender : Address} {u : Unit} :
    onlyEntryPointOrSelf env sender = .ok u ↔ Authorized env sender := by
  unfold onlyEntryPointOrSelf Authorized
  rw [revertIf_eq_ok, Bool.and_eq_false_iff, bne_eq_false_iff_eq, bne_eq_false_iff_eq]

theorem onPolicy_eq_ok {sender : Address} {change : Policy → Except Error Policy} :
    onPolicy env s sender change = .ok s' ↔ Authorized env sender ∧ s.paused = false ∧
      ∃ policy, change s.policy = .ok policy ∧ s' = { s with policy := policy } := by
  unfold onPolicy whenNotPaused
  simp only [bind_eq_ok, onlyEntryPointOrSelf_eq_ok, revertIf_eq_ok, pure_eq_ok, exists_const,
    @eq_comm _ s']

theorem onOwners_eq_ok {sender : Address} {change : OwnerRegistry → Except Error OwnerRegistry} :
    onOwners env s sender change = .ok s' ↔ Authorized env sender ∧ s.paused = false ∧
      s.policy.advanced = false ∧
      ∃ registry, change s.registry = .ok registry ∧ s' = { s with registry := registry } := by
  unfold onOwners whenNotPaused
  simp only [bind_eq_ok, onlyEntryPointOrSelf_eq_ok, revertIf_eq_ok, pure_eq_ok, exists_const,
    @eq_comm _ s']

theorem onlyRecovery_eq_ok {sender : Address} {u : Unit} :
    onlyRecovery s sender = .ok u ↔ s.policy.advanced = false ∧ sender = s.recoveryContract := by
  unfold onlyRecovery
  simp only [bind_eq_ok, revertIf_eq_ok, bne_eq_false_iff_eq, exists_const]

-- A policy function called through its external entry is a policy effect.
theorem effect_of_onPolicy {change : Policy → Except Error Policy}
    (h : onPolicy env s tx.sender change = .ok s')
    (hchange : ∀ policy, change s.policy = .ok policy → PolicyChange env s.policy tx.call policy) :
    Effect env s tx s' := by
  rcases onPolicy_eq_ok.mp h with ⟨hauth, hpaused, policy, hok, rfl⟩
  exact .policy policy hauth hpaused (hchange policy hok)

theorem effect_of_onOwners {change : OwnerRegistry → Except Error OwnerRegistry}
    (h : onOwners env s tx.sender change = .ok s')
    (hchange : ∀ registry, change s.registry = .ok registry →
      OwnerChange env s.registry tx.call registry) : Effect env s tx s' := by
  rcases onOwners_eq_ok.mp h with ⟨hauth, hpaused, hsimple, registry, hok, rfl⟩
  exact .owners registry hauth hpaused hsimple (hchange registry hok)

/-- Every successful transaction is one of the effects. -/
theorem step_effect (h : step env s tx = .ok s') : Effect env s tx s' := by
  unfold step at h
  cases hcall : tx.call with
  | initialize_ qx qy recoveryContract recoveryTimelock =>
    simp only [hcall, initialize_, bind_eq_ok, revertIf_eq_ok, pure_eq_ok, exists_const,
      beq_eq_false_iff_ne] at h
    rcases h with ⟨hfirst, hrecovery, registry, hadd, rfl⟩
    exact .initialize_ qx qy recoveryContract recoveryTimelock registry hcall hfirst hrecovery hadd
  | enableAdvanced adminEntityId =>
    simp only [hcall, enableAdvanced, bind_eq_ok, onPolicy_eq_ok, pure_eq_ok] at h
    rcases h with ⟨_, ⟨hauth, hpaused, policy, hok, rfl⟩, rfl⟩
    exact .enableAdvanced adminEntityId policy hcall hauth hpaused hok
  | configureMultisig config =>
    simp only [hcall] at h
    exact effect_of_onPolicy h fun policy hok => hcall ▸ .configureMultisig hok
  | addEntity e =>
    simp only [hcall] at h
    exact effect_of_onPolicy h fun policy hok => hcall ▸ .addEntity hok
  | removeEntity e keyIds =>
    simp only [hcall] at h
    exact effect_of_onPolicy h fun policy hok => hcall ▸ .removeEntity hok
  | addKey key =>
    simp only [hcall] at h
    exact effect_of_onPolicy h fun policy hok => hcall ▸ .addKey hok
  | addKeyEoa e eoa signature =>
    simp only [hcall] at h
    apply effect_of_onPolicy h
    intro policy hok
    simp only [bind_eq_ok, revertIf_eq_ok, exists_const, Bool.not_eq_false'] at hok
    exact hcall ▸ .addKeyEoa hok.2.1 hok.2.2
  | removeKey keyId =>
    simp only [hcall] at h
    exact effect_of_onPolicy h fun policy hok => hcall ▸ .removeKey hok
  | setThreshold m =>
    simp only [hcall] at h
    exact effect_of_onPolicy h fun policy hok => hcall ▸ .setThreshold hok
  | setVeto e isVeto =>
    simp only [hcall] at h
    exact effect_of_onPolicy h fun policy hok => hcall ▸ .setVeto hok
  | pause =>
    simp only [hcall, pause, bind_eq_ok, onlyRecovery_eq_ok, pure_eq_ok, exists_const] at h
    rcases h with ⟨⟨hsimple, hsender⟩, rfl⟩
    exact .setPaused true (.inl hcall) hsimple hsender
  | unpause =>
    simp only [hcall, unpause, bind_eq_ok, onlyRecovery_eq_ok, pure_eq_ok, exists_const] at h
    rcases h with ⟨⟨hsimple, hsender⟩, rfl⟩
    exact .setPaused false (.inr hcall) hsimple hsender
  | authorizeRecoveryUpdate metadata =>
    simp only [hcall, authorizeRecoveryUpdate, bind_eq_ok, onlyRecovery_eq_ok, pure_eq_ok,
      exists_const] at h
    rcases h with ⟨⟨hsimple, hsender⟩, rfl⟩
    exact .authorizeRecoveryUpdate metadata hcall hsimple hsender
  | recoveryAddOwner qx qy =>
    simp only [hcall, recoveryAddOwner, bind_eq_ok, onlyRecovery_eq_ok, revertIf_eq_ok,
      checkedAdd_eq_ok, pure_eq_ok, exists_const] at h
    rcases h with ⟨⟨hsimple, hsender⟩, hidle, _, ⟨hfit, rfl⟩, rfl⟩
    exact .recoveryAddOwner qx qy hcall hsimple hsender hidle hfit
  | executePendingOwner =>
    simp only [hcall, executePendingOwner, bind_eq_ok, revertIf_eq_ok, pure_eq_ok, exists_const,
      Bool.not_eq_false', decide_eq_false_iff_not, Nat.not_lt] at h
    rcases h with ⟨hsimple, hactive, hready, registry, hadd, rfl⟩
    exact .executePendingOwner registry hcall hsimple hactive hready hadd
  | cancelPendingOwner =>
    simp only [hcall, cancelPendingOwner, bind_eq_ok, revertIf_eq_ok, pure_eq_ok, exists_const,
      Bool.not_eq_false'] at h
    rcases h with ⟨hsimple, hactive, hpaused, rfl⟩
    exact .cancelPendingOwner hcall hsimple hactive hpaused
  | cancelPendingOwnerWithSignature signature =>
    simp only [hcall, cancelPendingOwnerWithSignature, bind_eq_ok, revertIf_eq_ok, pure_eq_ok,
      exists_const, Bool.not_eq_false'] at h
    rcases h with ⟨hsimple, hpaused, hactive, hsig, rfl⟩
    exact .cancelPendingOwnerWithSignature signature hcall hsimple hactive hpaused hsig
  | addOwner qx qy =>
    simp only [hcall] at h
    exact effect_of_onOwners h fun registry hok => hcall ▸ .addOwner hok
  | addOwnerEoa owner signature =>
    simp only [hcall] at h
    apply effect_of_onOwners h
    intro registry hok
    simp only [bind_eq_ok, revertIf_eq_ok, exists_const, Bool.not_eq_false',
      beq_eq_false_iff_ne] at hok
    exact hcall ▸ .addOwnerEoa hok.1 hok.2.1 hok.2.2
  | removeOwner qx qy =>
    simp only [hcall] at h
    exact effect_of_onOwners h fun registry hok => hcall ▸ .removeOwner hok

/-! ## Predicates on the policy over a run -/

section Stable

variable {I : Policy → Prop} {p p' : Policy} {call : Call}

theorem stable_policyChange (hI : Stable env I) (h : PolicyChange env p call p') (hp : I p) :
    I p' := by
  cases h with
  | configureMultisig hok =>
    rcases configureMultisig_ok hok with ⟨-, p₁, p₂, p₃, h₁, h₂, h₃, -, h₅, -⟩
    have hp₁ : I p₁ := foldlM_invariant (fun _ _ _ _ hq hq' => hI.removeKeyInternal hq hq') hp h₁
    have hp₂ : I p₂ := by
      refine foldlM_invariant ?_ hp₁ h₂
      intro q e q' _ hq hq'
      rcases registerMissing_ok hq' with rfl | hq'
      · exact hq
      · exact hI.registerEntity hq hq'
    have hp₃ : I p₃ := foldlM_invariant (fun _ _ _ _ hq hq' => hI.addKeyInternal hq hq') hp₂ h₃
    exact foldlM_invariant (fun _ _ _ _ hq hq' => hI.setVetoInternal hq hq')
      (hI.reset p₃ _ hp₃) h₅
  | addEntity hok => exact hI.registerEntity hp (addEntity_ok hok).2
  | @removeEntity e keyIds _ hok =>
    rcases removeEntity_ok hok with ⟨-, hexists, -, p₁, h₁, hzero, hremove⟩
    have hp₁ : I p₁ := foldlM_invariant
      (fun _ _ _ _ hq hq' => hI.removeKeyInternal hq (removeEntityKey_ok hq').2) hp h₁
    have hexists₁ : p₁.entityExists e = true := by
      rcases onlyKeysDiffer_of_removeEntityKeys h₁ with ⟨_, _, rfl⟩
      exact hexists
    exact hI.removal p₁ e p' hp₁ hexists₁ hzero (removeEntityInternal_ok hremove)
  | addKey hok => exact hI.addKeyInternal hp (addKey_ok hok).2
  | addKeyEoa hsig hok => exact hI.addKeyInternal hp (addKey_ok hok).2
  | removeKey hok => exact hI.removeKeyInternal hp (removeKey_ok hok).2.2
  | setThreshold hok =>
    rcases setThresholdInternal_eq_ok.mp (setThreshold_ok hok).2 with ⟨-, rfl⟩
    exact hI.threshold p _ hp
  | setVeto hok => exact hI.setVetoInternal hp (setVeto_ok hok).2

-- The migration adds one key for every owner.
theorem stable_migrate (hI : Stable env I) {registry : OwnerRegistry} {admin : Bytes32}
    (h : migrateSimpleOwnersToEntity env registry admin p = .ok p') (hp : I p) : I p' := by
  refine foldlM_invariant ?_ hp h
  intro q id q' _ hq hok
  split at hok
  · cases hok
    exact hq
  · exact hI.addKeyInternal hq hok

theorem onlyKeysDiffer_of_migrate {registry : OwnerRegistry} {admin : Bytes32}
    (h : migrateSimpleOwnersToEntity env registry admin p = .ok p') : OnlyKeysDiffer p p' := by
  refine foldlM_invariant (I := OnlyKeysDiffer p) ?_ (.refl p) h
  intro q id q' _ hq hok
  split at hok
  · cases hok
    exact hq
  · exact hq.addKeyInternal hok

theorem Effect.stable (hI : Stable env I) (he : Effect env s tx s') (hs : I s.policy) :
    I s'.policy := by
  cases he with
  | enableAdvanced admin policy hcall hauth hpaused hok =>
    rcases enableAdvanced_ok hok with ⟨-, -, p₁, hregister, hmigrate⟩
    exact stable_migrate hI hmigrate (hI.registerEntity (hI.enable s.policy hs) hregister)
  | policy policy hauth hpaused h => exact stable_policyChange hI h hs
  | _ => exact hs

/-- What every internal change of the policy keeps holds of every reachable policy. -/
theorem run_stable (hI : Stable env I) (hs : I s.policy) (txs : List (Tx Call)) :
    I (Lib.Runs.run (step env) s txs).policy :=
  Lib.Runs.run_invariant (I := fun s => I s.policy)
    (fun _ _ _ hq hok => (step_effect hok).stable hI hq) hs txs

end Stable

-- A wallet that has just been initialised still has the policy of simple mode.
theorem policy_of_init {qx qy : Bytes32} {recoveryContract : Address}
    {recoveryTimelock : Uint256}
    (hcall : tx.call = .initialize_ qx qy recoveryContract recoveryTimelock)
    (h : step env clone tx = .ok s) : s.policy = Policy.unused := by
  simp only [step, hcall, initialize_, bind_eq_ok, revertIf_eq_ok, pure_eq_ok, exists_const] at h
  rcases h with ⟨-, -, registry, -, rfl⟩
  rfl

end OnchainInvoice.Wallet
