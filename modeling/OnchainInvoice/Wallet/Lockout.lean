import OnchainInvoice.Wallet.Owners
import OnchainInvoice.Wallet.Usable

/-!
# Whether an advanced wallet can be locked

`setThreshold` and `removeEntity` compare the threshold with the number of entities, also of those
without a key.  Every other change keeps the policy within reach of the usable entities.
-/

namespace OnchainInvoice.Wallet

open Evm AdvancedWalletTypes WalletEip712 P256OwnerRegistry AdvancedWalletMixin Lib.Revert Lib.Runs

variable {env : Env} {s s' : State} {tx : Tx Call} {p p' : Policy} {call : Call}

/-! ## Policy changes -/

-- The check `setThreshold` and `removeEntity` do not make.
def Guarded (p : Policy) : Call → Prop
  | .setThreshold m => m.toNat ≤ (usable p).ncard
  | .removeEntity e _ => p.threshold.toNat ≤ (usable p \ {e}).ncard
  | _ => True

theorem advanced_stable (env : Env) : Stable env fun p => p.advanced = true where
  enable _ _ := rfl
  register _ _ h _ _ _ := h
  removal _ _ _ h _ _ hr := hr.advanced.trans h
  addKey _ _ h _ _ _ := h
  removeKey _ _ h _ := h
  threshold _ _ h := h
  veto _ _ _ _ h _ _ hset := by
    rcases hset.rest with ⟨_, _, rfl⟩
    exact h
  reset _ _ h := h

theorem grows_addKeyInternal {key : KeyRecord} (hb : Bijection p)
    (hok : addKeyInternal env p key = .ok p') : Grows p p' ∧ p'.threshold = p.threshold := by
  rcases addKeyInternal_eq_ok.mp hok with ⟨-, -, hfree, rfl⟩
  exact ⟨grows_keyAdded hb hfree, rfl⟩

theorem configureMultisig_usable {config : MultisigConfig} (hb : Bijection p) (hbound : Bounded p)
    (hk : KeysCounted p) (hok : AdvancedWalletMixin.configureMultisig env p config = .ok p') :
    Quorum p' ∧ VetoUsable p' := by
  have hchange : PolicyChange env p (.configureMultisig config) p' := .configureMultisig hok
  rcases configureMultisig_ok hok with ⟨hadv, -, -, -, -, -, -, -, -, hall⟩
  have hb' := stable_policyChange (Bijection.stable env) hchange hb
  have hk' := stable_policyChange (KeysCounted.stable env) hchange hk
  have hadv' := stable_policyChange (advanced_stable env) hchange hadv
  have husable := usable_of_allCounted hb' hk' hall
  apply And.intro
  · unfold Quorum
    rw [husable, hb'.ncard_entities]
    exact (bounded_policyChange hchange hbound hadv').2
  · intro e he _
    have hmem : e ∈ usable p' := husable ▸ he
    exact hmem.2

theorem setVetoInternal_usable {e : Bytes32} {isVeto : Bool} (hb : Bijection p)
    (hk : KeysCounted p) (hok : setVetoInternal p e isVeto = .ok p') :
    (Quorum p' ↔ Quorum p) ∧ (VetoUsable p → VetoUsable p') := by
  rcases setVetoInternal_ok hok with ⟨hexists, hcount, hset⟩
  have hsame : usable p' = usable p := usable_onlyVetoDiffers hset.rest
  have hthreshold : p'.threshold = p.threshold := by
    rcases hset.rest with ⟨_, _, rfl⟩
    rfl
  apply And.intro
  · unfold Quorum
    rw [hsame, hthreshold]
  · intro hv
    exact hv.vetoSet hb hexists (hk.nonempty (hb.ne_zero hexists) hcount) hset

theorem vetoUsable_policyChange (hb : Bijection p) (hbound : Bounded p) (hk : KeysCounted p)
    (h : PolicyChange env p call p') (hv : VetoUsable p) : VetoUsable p' := by
  cases h with
  | configureMultisig hok => exact (configureMultisig_usable hb hbound hk hok).2
  | addEntity hok =>
    rcases registerEntity_eq_ok.mp (addEntity_ok hok).2 with ⟨-, -, -, rfl⟩
    exact (grows_registered hb).vetoUsable hv
  | removeEntity hok => exact (removeEntity_usable hb hok).2.2 hv
  | addKey hok => exact (grows_addKeyInternal hb (addKey_ok hok).2).1.vetoUsable hv
  | addKeyEoa hsig hok => exact (grows_addKeyInternal hb (addKey_ok hok).2).1.vetoUsable hv
  | removeKey hok =>
    rcases removeKey_ok hok with ⟨-, hcount, hremove⟩
    rcases removeKeyInternal_eq_ok.mp hremove with ⟨-, rfl⟩
    exact (grows_keyRemoved hb hk hcount).vetoUsable hv
  | setThreshold hok =>
    rcases setThresholdInternal_eq_ok.mp (setThreshold_ok hok).2 with ⟨-, rfl⟩
    exact hv
  | setVeto hok => exact (setVetoInternal_usable hb hk (setVeto_ok hok).2).2 hv

/-- A policy that can be met stays so exactly when the change is guarded. -/
theorem quorum_policyChange_iff (hb : Bijection p) (hbound : Bounded p) (hk : KeysCounted p)
    (h : PolicyChange env p call p') (hq : Quorum p) : Quorum p' ↔ Guarded p call := by
  have hb' := stable_policyChange (Bijection.stable env) h hb
  cases h with
  | configureMultisig hok => exact iff_of_true (configureMultisig_usable hb hbound hk hok).1 trivial
  | addEntity hok =>
    rcases registerEntity_eq_ok.mp (addEntity_ok hok).2 with ⟨-, -, -, rfl⟩
    exact iff_of_true ((grows_registered hb).quorum hb' rfl hq) trivial
  | removeEntity hok =>
    rcases removeEntity_usable hb hok with ⟨husable, hthreshold, -⟩
    unfold Quorum
    rw [husable, hthreshold]
    exact Iff.rfl
  | addKey hok =>
    rcases grows_addKeyInternal hb (addKey_ok hok).2 with ⟨hgrows, hthreshold⟩
    exact iff_of_true (hgrows.quorum hb' hthreshold hq) trivial
  | addKeyEoa hsig hok =>
    rcases grows_addKeyInternal hb (addKey_ok hok).2 with ⟨hgrows, hthreshold⟩
    exact iff_of_true (hgrows.quorum hb' hthreshold hq) trivial
  | removeKey hok =>
    rcases removeKey_ok hok with ⟨-, hcount, hremove⟩
    rcases removeKeyInternal_eq_ok.mp hremove with ⟨-, rfl⟩
    exact iff_of_true ((grows_keyRemoved hb hk hcount).quorum hb' rfl hq) trivial
  | setThreshold hok =>
    rcases setThresholdInternal_eq_ok.mp (setThreshold_ok hok).2 with ⟨-, rfl⟩
    exact Iff.rfl
  | setVeto hok =>
    exact iff_of_true ((setVetoInternal_usable hb hk (setVeto_ok hok).2).1.mpr hq) trivial

/-! ## Enabling the advanced mode -/

theorem migratedKey_entityId (admin : Bytes32) (key : OwnerKey) :
    (migratedKey env admin key).entityId = admin := by
  unfold migratedKey
  split <;> rfl

theorem grows_migrate {registry : OwnerRegistry} {admin : Bytes32} (hb : Bijection p)
    (h : migrateSimpleOwnersToEntity env registry admin p = .ok p') : Grows p p' := by
  have hI : Bijection p' ∧ Grows p p' := by
    refine foldlM_invariant (I := fun q => Bijection q ∧ Grows p q) ?_ ⟨hb, .refl p⟩ h
    rintro q id q' _ ⟨hbq, hgrows⟩ hok
    split at hok
    · cases hok
      exact ⟨hbq, hgrows⟩
    · exact ⟨(Bijection.stable env).addKeyInternal hbq hok,
        hgrows.trans (grows_addKeyInternal hbq hok).1⟩
  exact hI.2

/-- The first owner becomes a key of the admin entity. -/
theorem usable_migrate {registry : OwnerRegistry} {admin : Bytes32} (hb : Bijection p)
    (hr : WellFormed registry) (hadmin : p.entityExists admin = true)
    (h : migrateSimpleOwnersToEntity env registry admin p = .ok p') : admin ∈ usable p' := by
  rcases List.exists_cons_of_ne_nil hr.nonempty with ⟨id, ids, hids⟩
  have howner : registry.owners id = true := by
    rw [← hr.mem, hids]
    exact List.mem_cons_self ..
  unfold migrateSimpleOwnersToEntity at h
  rw [hids, List.foldlM_cons, bind_eq_ok] at h
  rcases h with ⟨p₁, hfirst, hrest⟩
  rw [if_neg (by simp [howner])] at hfirst
  have hrest : migrateSimpleOwnersToEntity env { registry with ownerIds := ids } admin p₁ =
      .ok p' := hrest
  have hb₁ := (Bijection.stable env).addKeyInternal hb hfirst
  rcases addKeyInternal_eq_ok.mp hfirst with ⟨-, -, hfree, rfl⟩
  apply (grows_migrate hb₁ hrest).usable
  refine ⟨hadmin, ?_⟩
  rw [keysOf_keyAdded hfree (hb.ne_zero hadmin), if_pos (migratedKey_entityId ..)]
  exact Set.insert_nonempty ..

theorem enableAdvanced_usable {registry : OwnerRegistry} {pending : Bool} {admin : Bytes32}
    (hb : Bijection p) (hr : WellFormed registry)
    (hok : AdvancedWalletMixin.enableAdvanced p pending
      (migrateSimpleOwnersToEntity env registry admin) admin = .ok p') :
    Quorum p' ∧ (VetoUsable p → VetoUsable p') := by
  rcases enableAdvanced_ok hok with ⟨-, -, p₁, hregister, hmigrate⟩
  have hb₀ : Bijection { p with advanced := true, threshold := 1 } := (Bijection.stable env).enable p hb
  have hb₁ := (Bijection.stable env).registerEntity hb₀ hregister
  have hb' := stable_migrate (Bijection.stable env) hmigrate hb₁
  rcases registerEntity_eq_ok.mp hregister with ⟨-, -, -, rfl⟩
  have hthreshold : p'.threshold = 1 := by
    rcases onlyKeysDiffer_of_migrate hmigrate with ⟨_, _, rfl⟩
    rfl
  apply And.intro
  · have hadmin := usable_migrate hb₁ hr (Function.update_self ..) hmigrate
    unfold Quorum
    rw [hthreshold]
    exact (Set.ncard_pos hb'.finite_usable).mpr ⟨admin, hadmin⟩
  · intro hv
    have hv₀ : VetoUsable { p with advanced := true, threshold := 1 } := hv
    exact (grows_migrate hb₁ hmigrate).vetoUsable ((grows_registered hb₀).vetoUsable hv₀)

/-! ## Runs -/

-- What holds of every reachable state, whatever the threshold.
structure Sane (s : State) : Prop where
  owners : WellFormed s.registry
  bijection : Bijection s.policy
  bounded : Bounded s.policy
  counted : KeysCounted s.policy
  veto : VetoUsable s.policy

theorem Effect.sane (he : Effect env s tx s') (hs : Sane s) : Sane s' := by
  refine ⟨he.wellFormed hs.owners, he.stable (Bijection.stable env) hs.bijection,
    he.bounded hs.bounded, he.stable (KeysCounted.stable env) hs.counted, ?_⟩
  cases he with
  | enableAdvanced admin policy hcall hauth hpaused hok =>
    exact (enableAdvanced_usable hs.bijection hs.owners hok).2 hs.veto
  | policy policy hauth hpaused h =>
    exact vetoUsable_policyChange hs.bijection hs.bounded hs.counted h hs.veto
  | _ => exact hs.veto

theorem sane_of_init {qx qy : Bytes32} {recoveryContract : Address}
    {recoveryTimelock : Uint256}
    (hcall : tx.call = .initialize_ qx qy recoveryContract recoveryTimelock)
    (hinit : step env clone tx = .ok s) : Sane s := by
  have hpolicy := policy_of_init hcall hinit
  constructor
  case owners => exact WellFormed.first (initialize_eq_ok hcall hinit).1
  case bijection => exact hpolicy ▸ Bijection.unused
  case bounded => exact hpolicy ▸ fun h => absurd h Bool.false_ne_true
  case counted => exact hpolicy ▸ KeysCounted.unused
  case veto => exact hpolicy ▸ fun _ h => absurd h Bool.false_ne_true

theorem run_sane (hs : Sane s) (txs : List (Tx Call)) : Sane (run (step env) s txs) :=
  run_invariant (I := Sane) (fun _ _ _ hq hok => (step_effect hok).sane hq) hs txs

-- In advanced mode the threshold can be met.
def Met (s : State) : Prop := s.policy.advanced = true → Quorum s.policy

theorem met_iff (hs : Sane s) :
    (s.policy.advanced = true → NeverLocked s.policy) ↔ Met s := by
  unfold Met
  rw [neverLocked_iff hs.bijection hs.veto]
  rfl

theorem advanced_of_policyChange (h : PolicyChange env p call p') : p.advanced = true := by
  cases h with
  | configureMultisig hok => exact (configureMultisig_ok hok).1
  | addEntity hok => exact (addEntity_ok hok).1
  | removeEntity hok => exact (removeEntity_ok hok).1
  | addKey hok => exact (addKey_ok hok).1
  | addKeyEoa hsig hok => exact (addKey_ok hok).1
  | removeKey hok => exact (removeKey_ok hok).1
  | setThreshold hok => exact (setThreshold_ok hok).1
  | setVeto hok => exact (setVeto_ok hok).1

/-- One transaction keeps the threshold within reach exactly when it is guarded. -/
theorem Effect.met_iff_guarded (he : Effect env s tx s') (hs : Sane s) (hm : Met s) :
    Met s' ↔ Guarded s.policy tx.call := by
  cases he with
  | enableAdvanced admin policy hcall hauth hpaused hok =>
    rw [hcall]
    exact iff_of_true (fun _ => (enableAdvanced_usable hs.bijection hs.owners hok).1) trivial
  | policy policy hauth hpaused h =>
    have hadv := advanced_of_policyChange h
    have hadv' := stable_policyChange (advanced_stable env) h hadv
    rw [← quorum_policyChange_iff hs.bijection hs.bounded hs.counted h (hm hadv)]
    exact ⟨fun hm' => hm' hadv', fun hq _ => hq⟩
  | owners registry hauth hpaused hsimple h =>
    refine iff_of_true hm ?_
    generalize tx.call = call at h
    cases h <;> trivial
  | setPaused paused hcall hsimple hsender =>
    refine iff_of_true hm ?_
    rcases hcall with hcall | hcall <;> rw [hcall] <;> trivial
  | initialize_ _ _ _ _ _ hcall | authorizeRecoveryUpdate _ hcall | recoveryAddOwner _ _ hcall
  | executePendingOwner _ hcall | cancelPendingOwner hcall
  | cancelPendingOwnerWithSignature _ hcall =>
    rw [hcall]
    exact iff_of_true hm trivial

def NeverLockedAlong (env : Env) (s : State) (txs : List (Tx Call)) : Prop :=
  ∀ pre, pre <+: txs → (run (step env) s pre).policy.advanced = true →
    NeverLocked (run (step env) s pre).policy

def GuardedAlong (env : Env) (s : State) (txs : List (Tx Call)) : Prop :=
  ∀ pre tx post, txs = pre ++ tx :: post → Succeeds (step env) (run (step env) s pre) tx →
    Guarded (run (step env) s pre).policy tx.call

/-- The policy can be met in every state of a run exactly when each `setThreshold` and each
`removeEntity` that succeeds leaves as many usable entities as the threshold asks for. -/
theorem never_locked_iff_guarded (env : Env) (tx₀ : Tx Call) (qx qy : Bytes32)
    (recoveryContract : Address) (recoveryTimelock : Uint256) (s₀ : State)
    (hcall : tx₀.call = .initialize_ qx qy recoveryContract recoveryTimelock)
    (hinit : step env clone tx₀ = .ok s₀) (txs : List (Tx Call)) :
    NeverLockedAlong env s₀ txs ↔ GuardedAlong env s₀ txs := by
  have hs₀ := sane_of_init hcall hinit
  have hsane : ∀ pre, Sane (run (step env) s₀ pre) := fun pre => run_sane hs₀ pre
  have hmet₀ : Met s₀ := by
    unfold Met
    rw [policy_of_init hcall hinit]
    exact fun h => absurd h Bool.false_ne_true
  apply Iff.intro
  · rintro hnever pre tx post htxs ⟨s', hok⟩
    have hpre : pre <+: txs := ⟨tx :: post, htxs.symm⟩
    have hpost : pre ++ [tx] <+: txs := ⟨post, by simp [htxs]⟩
    have hm : Met (run (step env) s₀ pre) := (met_iff (hsane pre)).mp (hnever pre hpre)
    have hm' : Met (run (step env) s₀ (pre ++ [tx])) :=
      (met_iff (hsane _)).mp (hnever _ hpost)
    rw [run_concat, commit_of_ok hok] at hm'
    exact ((step_effect hok).met_iff_guarded (hsane pre) hm).mp hm'
  · rintro hguarded pre ⟨rest, hrest⟩
    apply (met_iff (hsane pre)).mpr
    refine run_invariant_of_prefix (I := Met) (fun before tx after s' hpre hm hok => ?_) hmet₀
    have hg := hguarded before tx (after ++ rest) (by simp [← hrest, hpre]) ⟨s', hok⟩
    exact ((step_effect hok).met_iff_guarded (hsane before) hm).mpr hg

-- Two entities with a passkey each, both needed, the second with veto.
def policyRun : List (Tx Call) :=
  [bySelf (.enableAdvanced 1),
    bySelf (.configureMultisig ⟨[], [2], [2], [KEY_WEBAUTHN], [21], [22], [0], 2, [2]⟩),
    bySelf (.addKeyEoa 2 0xE0A (toySign (hashAddKey toyEnv toyEnv.this 2 0xE0A) 0xE0A)),
    bySelf (.removeKey (computeKeyId toyEnv ⟨2, KEY_WEBAUTHN, 21, 22, 0⟩))]

example : (run (step toyEnv) (toyWallet 11 12) policyRun).policy.entityKeyCount 2 = 1 := by
  decide +kernel

theorem never_locked_policyRun : NeverLockedAlong toyEnv (toyWallet 11 12) policyRun := by
  apply (never_locked_iff_guarded toyEnv (toyInitialize 11 12) 11 12 0x6EC 100 (toyWallet 11 12) rfl
    rfl policyRun).mpr
  intro pre tx post htxs _
  have hmem : tx ∈ policyRun := by simp [htxs]
  simp only [policyRun, List.mem_cons, List.not_mem_nil, or_false] at hmem
  rcases hmem with rfl | rfl | rfl | rfl <;> trivial

/-! ## Entities without a key -/

def GivesKeyTo (x : Bytes32) : Call → Prop
  | .enableAdvanced adminEntityId => adminEntityId = x
  | .configureMultisig config => x ∈ config.entityIdsForKeys
  | .addKey key => key.entityId = x
  | .addKeyEoa entityId _ _ => entityId = x
  | _ => False

instance (x : Bytes32) (call : Call) : Decidable (GivesKeyTo x call) := by
  unfold GivesKeyTo
  split <;> infer_instance

-- The key records a call stores.
def newKeys (env : Env) (s : State) : Call → List KeyRecord
  | .enableAdvanced adminEntityId =>
    s.registry.ownerIds.map fun id => migratedKey env adminEntityId (s.registry.ownerKeys id)
  | .configureMultisig config => config.newKeys
  | .addKey key => [key]
  | .addKeyEoa entityId eoa _ => [⟨entityId, KEY_EOA, 0, 0, eoa⟩]
  | _ => []

theorem newKeys_entityId {x : Bytes32} {key : KeyRecord} (hcall : ¬GivesKeyTo x call)
    (hkey : key ∈ newKeys env s call) : key.entityId ≠ x := by
  cases call with
  | enableAdvanced admin =>
    rcases List.mem_map.mp hkey with ⟨id, -, rfl⟩
    rw [migratedKey_entityId]
    exact hcall
  | configureMultisig config =>
    rcases List.mem_map.mp hkey with ⟨⟨entityId, _, _⟩, hzip, rfl⟩
    intro heq
    exact hcall (heq ▸ (List.of_mem_zip hzip).1)
  | addKey k =>
    rw [List.mem_singleton.mp hkey]
    exact hcall
  | addKeyEoa entityId eoa signature =>
    rw [List.mem_singleton.mp hkey]
    exact hcall
  | _ => exact absurd hkey List.not_mem_nil

section NoKeys

variable {x : Bytes32} {keys : List KeyRecord}

-- The ids of those among the records that are of the entity.
def idsOf (env : Env) (keys : List KeyRecord) (x : Bytes32) : Set Bytes32 :=
  {keyId | ∃ key ∈ keys, key.entityId = x ∧ computeKeyId env key = keyId}

variable (hx : x ≠ 0)

include hx

theorem keysOf_addKeyInternal {key : KeyRecord} (hok : addKeyInternal env p key = .ok p')
    (hkey : key ∈ keys) : keysOf p' x ⊆ keysOf p x ∪ idsOf env keys x := by
  rcases addKeyInternal_eq_ok.mp hok with ⟨-, -, hfree, rfl⟩
  rw [keysOf_keyAdded hfree hx]
  split
  · rename_i hentity
    exact Set.insert_subset (.inr ⟨key, hkey, hentity, rfl⟩) Set.subset_union_left
  · exact Set.subset_union_left

theorem keysOf_removeKeyInternal {keyId : Bytes32} (hok : removeKeyInternal p keyId = .ok p') :
    keysOf p' x ⊆ keysOf p x := by
  rcases removeKeyInternal_eq_ok.mp hok with ⟨-, rfl⟩
  rw [keysOf_keyRemoved hx]
  exact Set.sdiff_subset

theorem keysOf_configureMultisig {config : MultisigConfig}
    (hok : AdvancedWalletMixin.configureMultisig env p config = .ok p') :
    keysOf p' x ⊆ keysOf p x ∪ idsOf env config.newKeys x := by
  rcases configureMultisig_ok hok with ⟨-, p₁, p₂, p₃, h₁, h₂, h₃, -, h₅, -⟩
  have hremoved : keysOf p₁ x ⊆ keysOf p x := by
    refine foldlM_invariant (I := fun q => keysOf q x ⊆ keysOf p x) ?_ subset_rfl h₁
    exact fun q keyId q' _ hq hok => (keysOf_removeKeyInternal hx hok).trans hq
  have hregistered : keysOf p₂ x = keysOf p₁ x := by
    refine foldlM_invariant (I := fun q => keysOf q x = keysOf p₁ x) ?_ rfl h₂
    intro q entityId q' _ hq hok
    rcases registerMissing_ok hok with rfl | hregister
    · exact hq
    · rcases registerEntity_eq_ok.mp hregister with ⟨-, -, -, rfl⟩
      exact hq
  have hadded : keysOf p₃ x ⊆ keysOf p₂ x ∪ idsOf env config.newKeys x := by
    refine foldlM_invariant (I := fun q => keysOf q x ⊆ keysOf p₂ x ∪ idsOf env config.newKeys x)
      ?_ Set.subset_union_left h₃
    intro q key q' hmem hq hok
    exact (keysOf_addKeyInternal hx hok hmem).trans (Set.union_subset hq Set.subset_union_right)
  rcases onlyVetoDiffers_of_setVetoes h₅ with ⟨_, _, rfl⟩
  show keysOf p₃ x ⊆ _
  rw [hregistered] at hadded
  exact hadded.trans (Set.union_subset_union_left _ hremoved)

theorem keysOf_policyChange (h : PolicyChange env s.policy call p') :
    keysOf p' x ⊆ keysOf s.policy x ∪ idsOf env (newKeys env s call) x := by
  cases h with
  | configureMultisig hok => exact keysOf_configureMultisig hx hok
  | addEntity hok =>
    rcases registerEntity_eq_ok.mp (addEntity_ok hok).2 with ⟨-, -, -, rfl⟩
    exact Set.subset_union_left
  | removeEntity hok =>
    rcases removeEntity_ok hok with ⟨-, -, -, p₁, hkeys, -, hremove⟩
    have hremoved : keysOf p₁ x ⊆ keysOf s.policy x := by
      refine foldlM_invariant (I := fun q => keysOf q x ⊆ keysOf s.policy x) ?_ subset_rfl hkeys
      exact fun q keyId q' _ hq hok =>
        (keysOf_removeKeyInternal hx (removeEntityKey_ok hok).2).trans hq
    have hsame : keysOf p' x = keysOf p₁ x := by
      unfold keysOf
      rw [(removeEntityInternal_ok hremove).keys]
    rw [hsame]
    exact hremoved.trans Set.subset_union_left
  | addKey hok => exact keysOf_addKeyInternal hx (addKey_ok hok).2 (List.mem_singleton_self _)
  | addKeyEoa hsig hok =>
    exact keysOf_addKeyInternal hx (addKey_ok hok).2 (List.mem_singleton_self _)
  | removeKey hok =>
    exact (keysOf_removeKeyInternal hx (removeKey_ok hok).2.2).trans Set.subset_union_left
  | setThreshold hok =>
    rcases setThresholdInternal_eq_ok.mp (setThreshold_ok hok).2 with ⟨-, rfl⟩
    exact Set.subset_union_left
  | setVeto hok =>
    rcases (setVetoInternal_ok (setVeto_ok hok).2).2.2.rest with ⟨_, _, rfl⟩
    exact Set.subset_union_left

/-- A call makes no key live but those it stores. -/
theorem Effect.keysOf_subset (he : Effect env s tx s') :
    keysOf s'.policy x ⊆ keysOf s.policy x ∪ idsOf env (newKeys env s tx.call) x := by
  cases he with
  | enableAdvanced admin policy hcall hauth hpaused hok =>
    rcases enableAdvanced_ok hok with ⟨-, -, p₁, hregister, hmigrate⟩
    rcases registerEntity_eq_ok.mp hregister with ⟨-, -, -, rfl⟩
    rw [hcall]
    have hstart : keysOf (registered { s.policy with advanced := true, threshold := 1 } admin) x ⊆
        keysOf s.policy x ∪ idsOf env (newKeys env s (.enableAdvanced admin)) x :=
      Set.subset_union_left
    have hmigrated : keysOf policy x ⊆
        keysOf s.policy x ∪ idsOf env (newKeys env s (.enableAdvanced admin)) x := by
      refine foldlM_invariant (I := fun q => keysOf q x ⊆ keysOf s.policy x ∪
        idsOf env (newKeys env s (.enableAdvanced admin)) x) ?_ hstart hmigrate
      intro q id q' hmem hq hok
      split at hok
      · cases hok
        exact hq
      · have hkey : migratedKey env admin (s.registry.ownerKeys id) ∈
            newKeys env s (.enableAdvanced admin) := List.mem_map_of_mem hmem
        exact (keysOf_addKeyInternal hx hok hkey).trans (Set.union_subset hq Set.subset_union_right)
    exact hmigrated
  | policy policy hauth hpaused h => exact keysOf_policyChange hx h
  | _ => exact Set.subset_union_left

theorem keysOf_commit_subset : keysOf (commit (step env) s tx).policy x ⊆
    keysOf s.policy x ∪ idsOf env (newKeys env s tx.call) x := by
  rcases commit_cases (step env) s tx with ⟨s', hok, hc⟩ | ⟨e, -, hc⟩
  · rw [hc]
    exact (step_effect hok).keysOf_subset hx
  · rw [hc]
    exact Set.subset_union_left

/-- An entity to which no call of a run gives a key has none at its end. -/
theorem run_keysOf_eq_empty {txs : List (Tx Call)} (hs : keysOf s.policy x = ∅)
    (hcalls : ∀ tx ∈ txs, ¬GivesKeyTo x tx.call) :
    keysOf (run (step env) s txs).policy x = ∅ := by
  refine run_invariant_of_mem (I := fun s : State => keysOf s.policy x = ∅) ?_ hs
  intro q tx q' hmem hq hok
  apply Set.eq_empty_of_forall_notMem
  intro keyId hlive
  rcases (step_effect hok).keysOf_subset hx hlive with hold | ⟨key, hkey, hentity, -⟩
  · rw [hq] at hold
    exact hold
  · exact newKeys_entityId (hcalls tx hmem) hkey hentity

end NoKeys

-- Two entities and a threshold of two, but only the admin entity has a key.
def lockedRun : List (Tx Call) :=
  [bySelf (.enableAdvanced 1), bySelf (.addEntity 2), bySelf (.setThreshold 2)]

/-- `setThreshold` counts an entity that has no key, so no signature can meet the threshold. -/
theorem locked_by_setThreshold : step toyEnv clone (toyInitialize 11 12) = .ok (toyWallet 11 12) ∧
    (run (step toyEnv) (toyWallet 11 12) lockedRun).policy.advanced = true ∧
    ¬NeverLocked (run (step toyEnv) (toyWallet 11 12) lockedRun).policy := by
  refine ⟨rfl, by decide +kernel, ?_⟩
  have hs : Sane (run (step toyEnv) (toyWallet 11 12) lockedRun) :=
    run_sane (sane_of_init (show (toyInitialize 11 12).call = .initialize_ 11 12 0x6EC 100 from rfl)
      rfl) lockedRun
  have hempty : keysOf (run (step toyEnv) (toyWallet 11 12) lockedRun).policy 2 = ∅ := by
    apply run_keysOf_eq_empty (by decide)
    · exact Set.eq_empty_of_forall_notMem fun keyId hkey => absurd hkey (by decide : (0 : Bytes32) ≠ 2)
    · decide
  have hthreshold : (run (step toyEnv) (toyWallet 11 12) lockedRun).policy.threshold.toNat = 2 := by
    decide +kernel
  have hcount : (run (step toyEnv) (toyWallet 11 12) lockedRun).policy.entityCount.toNat = 2 := by
    decide +kernel
  have hexists : 2 ∈ {e | (run (step toyEnv) (toyWallet 11 12) lockedRun).policy.entityExists e =
      true} := by
    show (run (step toyEnv) (toyWallet 11 12) lockedRun).policy.entityExists 2 = true
    decide +kernel
  intro hnever
  have hquorum : Quorum _ := (neverLocked_iff hs.bijection hs.veto).mp hnever
  -- The usable entities are among the two that exist, without the second.
  have hsubset : usable (run (step toyEnv) (toyWallet 11 12) lockedRun).policy ⊆
      {e | (run (step toyEnv) (toyWallet 11 12) lockedRun).policy.entityExists e = true} \ {2} := by
    rintro e ⟨he, hkeys⟩
    refine ⟨he, fun heq => ?_⟩
    rw [heq, hempty] at hkeys
    exact Set.not_nonempty_empty hkeys
  have hle := Set.ncard_le_ncard hsubset hs.bijection.finite_entities.sdiff
  rw [Set.ncard_sdiff_singleton_of_mem hexists, hs.bijection.ncard_entities, hcount] at hle
  unfold Quorum at hquorum
  omega

end OnchainInvoice.Wallet
