import OnchainInvoice.Wallet.Lockout

/-!
# Key counters

The key counter of an entity is a `uint8` that adding and removing a key move without an overflow
check.  A call adds and drops exactly the keys it names, so the counters are exact as long as no
call takes an entity past 255 live keys.
-/

namespace OnchainInvoice.AdvancedWalletMixin

open Evm AdvancedWalletTypes WalletEip712 Lib.Revert Function

variable {env : Env} {p p' : Policy} {e keyId : Bytes32} {key : KeyRecord}

/-! ## Loops over keys -/

theorem keyAdded_keys_of_ne (h : keyId ≠ computeKeyId env key) :
    (keyAdded env p key).keys keyId = p.keys keyId :=
  update_of_ne h ..

theorem ncard_keyAdded (hk : KeysCounted p) (hfree : (p.keys (computeKeyId env key)).entityId = 0)
    (he : e ≠ 0) : (keysOf (keyAdded env p key) e).ncard =
      (keysOf p e).ncard + if key.entityId = e then 1 else 0 := by
  rw [keysOf_keyAdded hfree he]
  by_cases hkey : key.entityId = e
  · have hfresh : computeKeyId env key ∉ keysOf p e := by
      intro hmem
      exact he (hmem.symm.trans hfree)
    rw [if_pos hkey, if_pos hkey, Set.ncard_insert_of_notMem hfresh (hk e he).1]
  · rw [if_neg hkey, if_neg hkey, Nat.add_zero]

theorem ncard_keyRemoved (keyId : Bytes32) (hk : KeysCounted p) (he : e ≠ 0) :
    (keysOf (keyRemoved p keyId) e).ncard + (if (p.keys keyId).entityId = e then 1 else 0) =
      (keysOf p e).ncard := by
  rw [keysOf_keyRemoved he]
  by_cases hkey : (p.keys keyId).entityId = e
  · have hmem : keyId ∈ keysOf p e := hkey
    have hpos : 0 < (keysOf p e).ncard := (Set.ncard_pos (hk e he).1).mpr ⟨keyId, hmem⟩
    rw [if_pos hkey, Set.ncard_sdiff_singleton_of_mem hmem]
    omega
  · have hmem : keyId ∉ keysOf p e := hkey
    rw [if_neg hkey, Set.sdiff_singleton_eq_self hmem, Nat.add_zero]

/-- The loop that adds keys adds as many keys to an entity as name it. -/
theorem ncard_addKeys {keys : List KeyRecord} (hk : KeysCounted p)
    (h : keys.foldlM (addKeyInternal env) p = .ok p') (he : e ≠ 0) :
    (keysOf p' e).ncard = (keysOf p e).ncard + keys.countP (fun key => key.entityId == e) := by
  induction keys generalizing p with
  | nil =>
    rw [List.foldlM_nil, pure_eq_ok] at h
    rw [h, List.countP_nil, Nat.add_zero]
  | cons key keys ih =>
    rw [List.foldlM_cons] at h
    rcases bind_eq_ok.mp h with ⟨p₁, hadd, hrest⟩
    rcases addKeyInternal_eq_ok.mp hadd with ⟨-, -, hfree, rfl⟩
    rw [ih (hk.keyAdded hfree) hrest, ncard_keyAdded hk hfree he, List.countP_cons]
    simp only [beq_iff_eq]
    omega

-- A key that is not live cannot be removed, so no key is removed twice.
theorem notMem_of_removeKeys {keyIds : List Bytes32} (hdead : (p.keys keyId).entityId = 0)
    (h : keyIds.foldlM removeKeyInternal p = .ok p') : keyId ∉ keyIds := by
  induction keyIds generalizing p with
  | nil => exact List.not_mem_nil
  | cons id keyIds ih =>
    rw [List.foldlM_cons] at h
    rcases bind_eq_ok.mp h with ⟨p₁, hremove, hrest⟩
    rcases removeKeyInternal_eq_ok.mp hremove with ⟨hlive, rfl⟩
    have hne : keyId ≠ id := by
      rintro rfl
      exact hlive hdead
    rw [List.mem_cons, not_or]
    refine ⟨hne, ih ?_ hrest⟩
    show (update p.keys id KeyRecord.zero keyId).entityId = 0
    rw [update_of_ne hne]
    exact hdead

/-- The loop that removes keys takes from an entity as many as were its own. -/
theorem ncard_removeKeys {keyIds : List Bytes32} (hk : KeysCounted p)
    (h : keyIds.foldlM removeKeyInternal p = .ok p') (he : e ≠ 0) :
    (keysOf p' e).ncard + keyIds.countP (fun keyId => (p.keys keyId).entityId == e) =
      (keysOf p e).ncard := by
  induction keyIds generalizing p with
  | nil =>
    rw [List.foldlM_nil, pure_eq_ok] at h
    rw [h, List.countP_nil, Nat.add_zero]
  | cons keyId keyIds ih =>
    rw [List.foldlM_cons] at h
    rcases bind_eq_ok.mp h with ⟨p₁, hremove, hrest⟩
    rcases removeKeyInternal_eq_ok.mp hremove with ⟨hlive, rfl⟩
    have hdead : ((keyRemoved p keyId).keys keyId).entityId = 0 := by
      show (update p.keys keyId KeyRecord.zero keyId).entityId = 0
      rw [update_self]
      rfl
    have hnotin := notMem_of_removeKeys hdead hrest
    have hcongr : keyIds.countP (fun id => ((keyRemoved p keyId).keys id).entityId == e) =
        keyIds.countP (fun id => (p.keys id).entityId == e) := by
      apply List.countP_congr
      intro id hid
      have hne : id ≠ keyId := by
        rintro rfl
        exact hnotin hid
      show ((update p.keys keyId KeyRecord.zero id).entityId == e) = true ↔ _
      rw [update_of_ne hne]
    have htail := ih (hk.keyRemoved keyId) hrest
    have hhead := ncard_keyRemoved keyId hk he
    rw [hcongr] at htail
    rw [List.countP_cons]
    simp only [beq_iff_eq]
    omega

theorem removeKeys_of_removeEntityKeys {keyIds : List Bytes32}
    (h : keyIds.foldlM (removeEntityKey e) p = .ok p') :
    keyIds.foldlM removeKeyInternal p = .ok p' := by
  induction keyIds generalizing p with
  | nil => exact h
  | cons keyId keyIds ih =>
    rw [List.foldlM_cons] at h ⊢
    rcases bind_eq_ok.mp h with ⟨p₁, hremove, hrest⟩
    exact bind_eq_ok.mpr ⟨p₁, (removeEntityKey_ok hremove).2, ih hrest⟩

/-! ## Keys of entities that do not exist -/

-- Only an entity that exists has live keys.
def Orphanless (p : Policy) : Prop :=
  ∀ e, e ≠ 0 → p.entityExists e = false → keysOf p e = ∅

theorem Orphanless.registerEntity (h : Orphanless p) (hok : registerEntity p e = .ok p') :
    Orphanless p' := by
  rcases registerEntity_eq_ok.mp hok with ⟨-, -, -, rfl⟩
  intro x hx hno
  have hold : p.entityExists x = false := by
    change update p.entityExists e true x = false at hno
    rw [update_apply] at hno
    split at hno
    · cases hno
    · exact hno
  exact h x hx hold

theorem Orphanless.addKeyInternal (h : Orphanless p) (hok : addKeyInternal env p key = .ok p') :
    Orphanless p' := by
  rcases addKeyInternal_eq_ok.mp hok with ⟨hexists, -, hfree, rfl⟩
  intro x hx hno
  change p.entityExists x = false at hno
  have hother : key.entityId ≠ x := by
    rintro rfl
    rw [hno] at hexists
    exact Bool.false_ne_true hexists
  rw [keysOf_keyAdded hfree hx, if_neg hother]
  exact h x hx hno

theorem Orphanless.removeKeyInternal (h : Orphanless p) (hok : removeKeyInternal p keyId = .ok p') :
    Orphanless p' := by
  rcases removeKeyInternal_eq_ok.mp hok with ⟨-, rfl⟩
  intro x hx hno
  change p.entityExists x = false at hno
  rw [keysOf_keyRemoved hx, h x hx hno, Set.empty_sdiff]

theorem Orphanless.onlyVetoDiffers (h : Orphanless p) (hveto : OnlyVetoDiffers p p') :
    Orphanless p' := by
  rcases hveto with ⟨_, _, rfl⟩
  exact h

theorem Orphanless.configureMultisig {config : MultisigConfig} (h : Orphanless p)
    (hok : configureMultisig env p config = .ok p') : Orphanless p' := by
  rcases configureMultisig_ok hok with ⟨-, p₁, p₂, p₃, h₁, h₂, h₃, -, h₅, -⟩
  have hp₁ : Orphanless p₁ := foldlM_invariant (fun _ _ _ _ hq hq' => hq.removeKeyInternal hq') h h₁
  have hp₂ : Orphanless p₂ := by
    refine foldlM_invariant ?_ hp₁ h₂
    intro q e q' _ hq hq'
    rcases registerMissing_ok hq' with rfl | hregister
    · exact hq
    · exact hq.registerEntity hregister
  have hp₃ : Orphanless p₃ := foldlM_invariant (fun _ _ _ _ hq hq' => hq.addKeyInternal hq') hp₂ h₃
  have hreset : Orphanless (vetoReset p₃ config.threshold) := hp₃
  exact hreset.onlyVetoDiffers (onlyVetoDiffers_of_setVetoes h₅)

-- No entity has more keys than its counter can count.
def KeysFit (p : Policy) : Prop := ∀ e, e ≠ 0 → (keysOf p e).ncard ≤ 255

theorem keysFit_unused : KeysFit Policy.unused := by
  intro e he
  rw [keysOf_unused he, Set.ncard_empty]
  exact Nat.zero_le _

-- A counter that has not wrapped and is zero stands for no key at all.
theorem KeysFit.keysOf_eq_empty (h : KeysFit p) (hk : KeysCounted p) (he : e ≠ 0)
    (hcount : p.entityKeyCount e = 0) : keysOf p e = ∅ := by
  rcases hk e he with ⟨hfinite, hcounted⟩
  have hsmall := h e he
  have hzero : (p.entityKeyCount e).toNat = 0 := by rw [hcount]; rfl
  rw [hcounted] at hzero
  exact (Set.ncard_eq_zero hfinite).mp (by omega)

theorem Orphanless.removeEntity {keyIds : List Bytes32} (h : Orphanless p) (hb : Bijection p)
    (hk : KeysCounted p) (hc : KeysFit p) (hok : removeEntity p e keyIds = .ok p') :
    Orphanless p' := by
  rcases removeEntity_ok hok with ⟨-, hexists, -, p₁, hkeys, hzero, hremove⟩
  have hkeys' := removeKeys_of_removeEntityKeys hkeys
  have hk₁ : KeysCounted p₁ := by
    refine foldlM_invariant ?_ hk hkeys'
    intro q id q' _ hq hq'
    rcases removeKeyInternal_eq_ok.mp hq' with ⟨-, rfl⟩
    exact hq.keyRemoved id
  have hc₁ : KeysFit p₁ := by
    intro x hx
    have hcount := ncard_removeKeys hk hkeys' hx
    have hold := hc x hx
    omega
  have hp₁ : Orphanless p₁ :=
    foldlM_invariant (fun _ _ _ _ hq hq' => hq.removeKeyInternal hq') h hkeys'
  have hr := removeEntityInternal_ok hremove
  intro x hx hno
  unfold keysOf
  rw [hr.keys]
  by_cases hxe : x = e
  · rw [hxe]
    exact hc₁.keysOf_eq_empty hk₁ (hb.ne_zero hexists) hzero
  · apply hp₁ x hx
    rw [hr.exists_, update_of_ne hxe] at hno
    exact hno

/-! ## The counter of the entity zero -/

-- Nothing counts for the id that stands for "no entity".
def ZeroUncounted (p : Policy) : Prop := p.entityExists 0 = false ∧ p.entityKeyCount 0 = 0

theorem ZeroUncounted.stable (env : Env) : Stable env ZeroUncounted where
  enable _ h := h
  register p e h hne _ _ := by
    refine ⟨?_, h.2⟩
    show update p.entityExists e true 0 = false
    rw [update_of_ne hne.symm]
    exact h.1
  removal p e p' h hexists _ hr := by
    have hne : (0 : Bytes32) ≠ e := by
      rintro rfl
      rw [h.1] at hexists
      exact Bool.false_ne_true hexists
    apply And.intro
    · rw [hr.exists_, update_of_ne hne]
      exact h.1
    · rw [hr.keyCount, update_of_ne hne]
      exact h.2
  addKey p key h hexists _ _ := by
    have hne : (0 : Bytes32) ≠ key.entityId := by
      intro hzero
      rw [← hzero, h.1] at hexists
      exact Bool.false_ne_true hexists
    refine ⟨h.1, ?_⟩
    show update p.entityKeyCount key.entityId _ 0 = 0
    rw [update_of_ne hne]
    exact h.2
  removeKey p keyId h hlive := by
    refine ⟨h.1, ?_⟩
    show update p.entityKeyCount (p.keys keyId).entityId _ 0 = 0
    rw [update_of_ne hlive.symm]
    exact h.2
  threshold _ _ h := h
  veto _ _ _ _ h _ _ hset := by
    rcases hset.rest with ⟨_, _, rfl⟩
    exact h
  reset _ _ h := h

/-! ## Live keys -/

-- The keys of an entity, among the records that are live at all.
def liveKeysOf (p : Policy) (e : Bytes32) : Set Bytes32 :=
  {keyId | (p.keys keyId).entityId ≠ 0 ∧ (p.keys keyId).entityId = e}

theorem liveKeysOf_eq (he : e ≠ 0) : liveKeysOf p e = keysOf p e := by
  ext keyId
  show _ ∧ _ ↔ (p.keys keyId).entityId = e
  apply Iff.intro
  · exact fun h => h.2
  · intro h
    exact ⟨h ▸ he, h⟩

theorem liveKeysOf_zero (p : Policy) : liveKeysOf p 0 = ∅ :=
  Set.eq_empty_of_forall_notMem fun _ hlive => hlive.1 hlive.2

theorem Orphanless.liveKeysOf_eq_empty (h : Orphanless p) (hno : p.entityExists e = false) :
    liveKeysOf p e = ∅ := by
  by_cases he : e = 0
  · rw [he, liveKeysOf_zero]
  · rw [liveKeysOf_eq he]
    exact h e he hno

end OnchainInvoice.AdvancedWalletMixin

namespace OnchainInvoice.Wallet

open Evm AdvancedWalletTypes WalletEip712 P256OwnerRegistry AdvancedWalletMixin Lib.Revert Lib.Runs

variable {env : Env} {s s' : State} {tx : Tx Call} {p p' : Policy} {call : Call} {e : Bytes32}

/-! ## What a call adds and drops -/

-- The ids of the key records a call deletes.
def droppedKeys : Call → List Bytes32
  | .configureMultisig config => config.removeKeyIds
  | .removeEntity _ keyIds => keyIds
  | .removeKey keyId => [keyId]
  | _ => []

-- The call takes no entity past 255 live keys.
def Fits (env : Env) (s : State) (call : Call) : Prop :=
  ∀ e, e ≠ 0 → (keysOf s.policy e).ncard + (newKeys env s call).countP (fun key => key.entityId == e) ≤
    255 + (droppedKeys call).countP fun keyId => (s.policy.keys keyId).entityId == e

-- Every listed owner is one, so the migration skips none.
theorem migrate_eq {registry : OwnerRegistry} (hr : WellFormed registry) (admin : Bytes32) :
    migrateSimpleOwnersToEntity env registry admin p =
      (registry.ownerIds.map fun id => migratedKey env admin (registry.ownerKeys id)).foldlM
        (addKeyInternal env) p := by
  unfold migrateSimpleOwnersToEntity
  have hall : ∀ id ∈ registry.ownerIds, registry.owners id = true := fun id hid => (hr.mem id).mp hid
  generalize registry.ownerIds = ids at hall
  induction ids generalizing p with
  | nil => rfl
  | cons id ids ih =>
    rw [List.map_cons, List.foldlM_cons, List.foldlM_cons]
    rw [if_neg (by rw [hall id (List.mem_cons_self ..)]; decide)]
    apply bind_congr
    intro p₁
    exact ih fun x hx => hall x (List.mem_cons_of_mem id hx)

theorem ncard_policyChange (hk : KeysCounted s.policy) (h : PolicyChange env s.policy call p')
    (he : e ≠ 0) :
    (keysOf p' e).ncard +
        (droppedKeys call).countP (fun keyId => (s.policy.keys keyId).entityId == e) =
      (keysOf s.policy e).ncard + (newKeys env s call).countP (fun key => key.entityId == e) := by
  cases h with
  | @configureMultisig config _ hok =>
    rcases configureMultisig_ok hok with ⟨-, p₁, p₂, p₃, h₁, h₂, h₃, -, h₅, -⟩
    have hk₁ : KeysCounted p₁ :=
      foldlM_invariant (fun _ _ _ _ hq hq' => (KeysCounted.stable env).removeKeyInternal hq hq') hk h₁
    have hkept : p₂.keys = p₁.keys ∧ KeysCounted p₂ := by
      refine foldlM_invariant (I := fun q => q.keys = p₁.keys ∧ KeysCounted q) ?_ ⟨rfl, hk₁⟩ h₂
      intro q x q' _ hq hok
      rcases registerMissing_ok hok with rfl | hregister
      · exact hq
      · rcases registerEntity_eq_ok.mp hregister with ⟨-, -, -, rfl⟩
        exact hq
    have hremoved := ncard_removeKeys hk h₁ he
    have hadded := ncard_addKeys hkept.2 h₃ he
    have hsame : keysOf p₂ e = keysOf p₁ e := by
      unfold keysOf
      rw [hkept.1]
    rcases onlyVetoDiffers_of_setVetoes h₅ with ⟨_, _, rfl⟩
    change (keysOf p₃ e).ncard + config.removeKeyIds.countP _ = _ + config.newKeys.countP _
    rw [hadded, hsame]
    omega
  | addEntity hok =>
    rcases registerEntity_eq_ok.mp (addEntity_ok hok).2 with ⟨-, -, -, rfl⟩
    rfl
  | removeEntity hok =>
    rcases removeEntity_ok hok with ⟨-, -, -, p₁, hkeys, -, hremove⟩
    have hremoved := ncard_removeKeys hk (removeKeys_of_removeEntityKeys hkeys) he
    have hsame : keysOf p' e = keysOf p₁ e := by
      unfold keysOf
      rw [(removeEntityInternal_ok hremove).keys]
    rw [hsame]
    exact hremoved
  | addKey hok =>
    rcases addKeyInternal_eq_ok.mp (addKey_ok hok).2 with ⟨-, -, hfree, rfl⟩
    rw [ncard_keyAdded hk hfree he]
    simp [droppedKeys, newKeys]
  | addKeyEoa hsig hok =>
    rcases addKeyInternal_eq_ok.mp (addKey_ok hok).2 with ⟨-, -, hfree, rfl⟩
    rw [ncard_keyAdded hk hfree he]
    simp [droppedKeys, newKeys]
  | @removeKey keyId _ hok =>
    rcases removeKeyInternal_eq_ok.mp (removeKey_ok hok).2.2 with ⟨-, rfl⟩
    have hremoved := ncard_keyRemoved keyId hk he
    simpa [droppedKeys, newKeys, List.countP_cons] using hremoved
  | setThreshold hok =>
    rcases setThresholdInternal_eq_ok.mp (setThreshold_ok hok).2 with ⟨-, rfl⟩
    rfl
  | setVeto hok =>
    rcases (setVetoInternal_ok (setVeto_ok hok).2).2.2.rest with ⟨_, _, rfl⟩
    rfl

/-- The live keys after a successful call, accounted for by what the call names. -/
theorem Effect.ncard_keysOf (he : Effect env s tx s') (hs : Sane s) {e : Bytes32} (hne : e ≠ 0) :
    (keysOf s'.policy e).ncard +
        (droppedKeys tx.call).countP (fun keyId => (s.policy.keys keyId).entityId == e) =
      (keysOf s.policy e).ncard + (newKeys env s tx.call).countP (fun key => key.entityId == e) := by
  cases he with
  | enableAdvanced admin policy hcall hauth hpaused hok =>
    rcases enableAdvanced_ok hok with ⟨-, -, p₁, hregister, hmigrate⟩
    rcases registerEntity_eq_ok.mp hregister with ⟨-, -, -, rfl⟩
    rw [migrate_eq hs.owners] at hmigrate
    have hcounted : KeysCounted (registered { s.policy with advanced := true, threshold := 1 } admin) :=
      hs.counted
    rw [hcall]
    have hadded := ncard_addKeys hcounted hmigrate hne
    exact hadded
  | policy policy hauth hpaused h => exact ncard_policyChange hs.counted h hne
  | owners registry hauth hpaused hsimple h =>
    generalize tx.call = call at h
    cases h <;> rfl
  | setPaused paused hcall hsimple hsender =>
    rcases hcall with hcall | hcall <;> rw [hcall] <;> rfl
  | initialize_ _ _ _ _ _ hcall | authorizeRecoveryUpdate _ hcall | recoveryAddOwner _ _ hcall
  | executePendingOwner _ hcall | cancelPendingOwner hcall
  | cancelPendingOwnerWithSignature _ hcall =>
    rw [hcall]
    rfl

/-- One call keeps every counter from wrapping exactly when it fits. -/
theorem Effect.keysFit_iff (he : Effect env s tx s') (hs : Sane s) :
    KeysFit s'.policy ↔ Fits env s tx.call := by
  unfold KeysFit Fits
  apply forall_congr'
  intro e
  apply forall_congr'
  intro hne
  have haccount := he.ncard_keysOf hs hne
  omega

theorem Effect.orphanless (he : Effect env s tx s') (hs : Sane s) (hc : KeysFit s.policy)
    (ho : Orphanless s.policy) : Orphanless s'.policy := by
  cases he with
  | enableAdvanced admin policy hcall hauth hpaused hok =>
    rcases enableAdvanced_ok hok with ⟨-, -, p₁, hregister, hmigrate⟩
    have hadvanced : Orphanless { s.policy with advanced := true, threshold := 1 } := ho
    rw [migrate_eq hs.owners] at hmigrate
    exact foldlM_invariant (fun _ _ _ _ hq hq' => hq.addKeyInternal hq')
      (hadvanced.registerEntity hregister) hmigrate
  | policy policy hauth hpaused h =>
    generalize tx.call = call at h
    cases h with
    | configureMultisig hok => exact ho.configureMultisig hok
    | addEntity hok => exact ho.registerEntity (addEntity_ok hok).2
    | removeEntity hok => exact ho.removeEntity hs.bijection hs.counted hc hok
    | addKey hok => exact ho.addKeyInternal (addKey_ok hok).2
    | addKeyEoa hsig hok => exact ho.addKeyInternal (addKey_ok hok).2
    | removeKey hok => exact ho.removeKeyInternal (removeKey_ok hok).2.2
    | setThreshold hok =>
      rcases setThresholdInternal_eq_ok.mp (setThreshold_ok hok).2 with ⟨-, rfl⟩
      exact ho
    | setVeto hok => exact ho.onlyVetoDiffers (setVetoInternal_ok (setVeto_ok hok).2).2.2.rest
  | _ => exact ho

-- A wallet in simple mode has never touched its policy.
theorem unused_of_run {qx qy : Bytes32} {recoveryContract : Address} {recoveryTimelock : Uint256}
    (hcall : tx.call = .initialize_ qx qy recoveryContract recoveryTimelock)
    (hinit : step env clone tx = .ok s) (txs : List (Tx Call)) :
    (run (step env) s txs).policy.advanced = false →
      (run (step env) s txs).policy = Policy.unused := by
  refine run_invariant (I := fun s : State => s.policy.advanced = false → s.policy = Policy.unused)
    ?_ (fun _ => policy_of_init hcall hinit) txs
  intro s tx s' hs hok
  cases step_effect hok with
  | enableAdvanced admin policy henable hauth hpaused hchange =>
    intro hsimple
    rcases enableAdvanced_ok hchange with ⟨-, -, p₁, hregister, hmigrate⟩
    have hadv := stable_migrate (advanced_stable env) hmigrate
      ((advanced_stable env).registerEntity rfl hregister)
    rw [show policy.advanced = false from hsimple] at hadv
    exact absurd hadv Bool.false_ne_true
  | policy policy hauth hpaused h =>
    intro hsimple
    have hadv := stable_policyChange (advanced_stable env) h (advanced_of_policyChange h)
    rw [show policy.advanced = false from hsimple] at hadv
    exact absurd hadv Bool.false_ne_true
  | _ => exact hs

/-! ## Runs -/

-- The counters are exact, removing an entity leaves it no live key, and an entity that does not
-- exist has none that registering it could bring back.
structure KeyCountsExact (env : Env) (s : State) : Prop where
  count : ∀ e, (s.policy.entityKeyCount e).toNat = (liveKeysOf s.policy e).ncard
  removed : ∀ tx e keyIds s', tx.call = .removeEntity e keyIds → step env s tx = .ok s' →
    liveKeysOf s'.policy e = ∅
  unregistered : ∀ e, s.policy.entityExists e = false → liveKeysOf s.policy e = ∅

theorem keyCountsExact_of_fit (hs : Sane s) (hzero : ZeroUncounted s.policy)
    (hfit : KeysFit s.policy) (ho : Orphanless s.policy) : KeyCountsExact env s := by
  constructor
  case count =>
    intro e
    by_cases he : e = 0
    · rw [he, liveKeysOf_zero, hzero.2, Set.ncard_empty]
      rfl
    · have hsmall := hfit e he
      rw [liveKeysOf_eq he, (hs.counted e he).2, Nat.mod_eq_of_lt (by omega)]
  case removed =>
    intro tx e keyIds s' hcall hok
    have ho' := (step_effect hok).orphanless hs hfit ho
    apply ho'.liveKeysOf_eq_empty
    cases step_effect hok with
    | policy policy hauth hpaused h =>
      rw [hcall] at h
      cases h with
      | removeEntity hchange =>
        rcases removeEntity_ok hchange with ⟨-, -, -, p₁, -, -, hremove⟩
        show policy.entityExists e = false
        rw [(removeEntityInternal_ok hremove).exists_, Function.update_self]
    | owners registry hauth hpaused hsimple h =>
      rw [hcall] at h
      cases h
    | _ => simp_all
  case unregistered => exact fun e hno => ho.liveKeysOf_eq_empty hno

theorem KeyCountsExact.keysFit (h : KeyCountsExact env s) : KeysFit s.policy := by
  intro e he
  have hcount := h.count e
  have hlt := toNat_lt (s.policy.entityKeyCount e)
  rw [liveKeysOf_eq he] at hcount
  omega

def ExactAlong (env : Env) (s : State) (txs : List (Tx Call)) : Prop :=
  ∀ pre, pre <+: txs → (run (step env) s pre).policy.advanced = true →
    KeyCountsExact env (run (step env) s pre)

def FitsAlong (env : Env) (s : State) (txs : List (Tx Call)) : Prop :=
  ∀ pre tx post, txs = pre ++ tx :: post → Succeeds (step env) (run (step env) s pre) tx →
    Fits env (run (step env) s pre) tx.call

theorem zeroUncounted_unused : ZeroUncounted Policy.unused := ⟨rfl, rfl⟩

/-- The key counters are right in every state of a run exactly when each call that succeeds leaves
every entity at most 255 live keys. -/
theorem key_counts_exact_iff (env : Env) (tx₀ : Tx Call) (qx qy : Bytes32)
    (recoveryContract : Address) (recoveryTimelock : Uint256) (s₀ : State)
    (hcall : tx₀.call = .initialize_ qx qy recoveryContract recoveryTimelock)
    (hinit : step env clone tx₀ = .ok s₀) (txs : List (Tx Call)) :
    ExactAlong env s₀ txs ↔ FitsAlong env s₀ txs := by
  have hs₀ := sane_of_init hcall hinit
  have hsane : ∀ pre, Sane (run (step env) s₀ pre) := fun pre => run_sane hs₀ pre
  have hpolicy := policy_of_init hcall hinit
  apply Iff.intro
  · rintro hexact pre tx post htxs ⟨s', hok⟩
    have hbefore : pre ++ [tx] <+: txs := ⟨post, by simp [htxs]⟩
    have hfit : KeysFit (run (step env) s₀ (pre ++ [tx])).policy := by
      by_cases hadv : (run (step env) s₀ (pre ++ [tx])).policy.advanced = true
      · exact (hexact _ hbefore hadv).keysFit
      · rw [unused_of_run hcall hinit _ (Bool.eq_false_iff.mpr hadv)]
        exact keysFit_unused
    rw [run_concat, commit_of_ok hok] at hfit
    exact ((step_effect hok).keysFit_iff (hsane pre)).mp hfit
  · rintro hfits pre ⟨rest, hrest⟩ _
    have hzero : ZeroUncounted (run (step env) s₀ pre).policy :=
      run_stable (ZeroUncounted.stable env) (hpolicy ▸ zeroUncounted_unused) pre
    have hinv : KeysFit (run (step env) s₀ pre).policy ∧
        Orphanless (run (step env) s₀ pre).policy := by
      refine run_invariant_of_prefix (I := fun s : State => KeysFit s.policy ∧ Orphanless s.policy)
        (fun before tx after s' hpre hinv hok => ?_) ?_
      · have he := step_effect hok
        have hfit := hfits before tx (after ++ rest) (by simp [← hrest, hpre]) ⟨s', hok⟩
        exact ⟨(he.keysFit_iff (hsane before)).mpr hfit,
          he.orphanless (hsane before) hinv.1 hinv.2⟩
      · rw [hpolicy]
        exact ⟨keysFit_unused, fun e he _ => keysOf_unused he⟩
    exact keyCountsExact_of_fit (hsane pre) hzero hinv.1 hinv.2

theorem key_counts_exact_policyRun :
    ExactAlong toyEnv (toyWallet 11 12) policyRun ↔ FitsAlong toyEnv (toyWallet 11 12) policyRun :=
  key_counts_exact_iff toyEnv (toyInitialize 11 12) 11 12 0x6EC 100 (toyWallet 11 12) rfl rfl
    policyRun

/-! ## A counter that wraps -/

-- Distinct fresh keys of existing entities are all added.
theorem run_addKeys {keys : List KeyRecord} (hpaused : s.paused = false)
    (hadv : s.policy.advanced = true)
    (hkeys : ∀ key ∈ keys, s.policy.entityExists key.entityId = true ∧ ValidKey key ∧
      (s.policy.keys (computeKeyId env key)).entityId = 0)
    (hnodup : (keys.map (computeKeyId env)).Nodup) :
    ∃ p', keys.foldlM (addKeyInternal env) s.policy = .ok p' ∧
      run (step env) s (keys.map fun key => ⟨env.this, 200, .addKey key⟩) =
        { s with policy := p' } := by
  induction keys generalizing s with
  | nil => exact ⟨s.policy, rfl, rfl⟩
  | cons key keys ih =>
    rw [List.map_cons, List.nodup_cons] at hnodup
    rcases hkeys key (List.mem_cons_self ..) with ⟨hexists, hvalid, hfree⟩
    have hadd : addKeyInternal env s.policy key = .ok (keyAdded env s.policy key) :=
      addKeyInternal_eq_ok.mpr ⟨hexists, hvalid, hfree, rfl⟩
    have hok : step env s ⟨env.this, 200, .addKey key⟩ =
        .ok { s with policy := keyAdded env s.policy key } := by
      show Wallet.addKey env s env.this key = _
      unfold Wallet.addKey
      refine onPolicy_eq_ok.mpr ⟨.inr rfl, hpaused, keyAdded env s.policy key, ?_, rfl⟩
      simp only [AdvancedWalletMixin.addKey, bind_eq_ok, onlyAdvanced_eq_ok, revertIf_eq_ok,
        exists_const, Bool.not_eq_false']
      exact ⟨hadv, hexists, hadd⟩
    have hrest : ∀ k ∈ keys, (keyAdded env s.policy key).entityExists k.entityId = true ∧
        ValidKey k ∧ ((keyAdded env s.policy key).keys (computeKeyId env k)).entityId = 0 := by
      intro k hk
      rcases hkeys k (List.mem_cons_of_mem key hk) with ⟨hexists', hvalid', hfree'⟩
      refine ⟨hexists', hvalid', ?_⟩
      have hne : computeKeyId env k ≠ computeKeyId env key := by
        intro heq
        exact hnodup.1 (heq ▸ List.mem_map_of_mem hk)
      rw [keyAdded_keys_of_ne hne]
      exact hfree'
    rcases ih (s := { s with policy := keyAdded env s.policy key }) hpaused hadv hrest hnodup.2 with
      ⟨p', hfold, hrun⟩
    refine ⟨p', ?_, ?_⟩
    · rw [List.foldlM_cons]
      exact bind_eq_ok.mpr ⟨_, hadd, hfold⟩
    · rw [List.map_cons, run_cons, commit_of_ok hok]
      exact hrun

-- With the counter at zero an entity is removed without naming any of its keys.
theorem removeEntity_of_zero (hadv : p.advanced = true) (hexists : p.entityExists e = true)
    (hthreshold : p.threshold.toNat < p.entityCount.toNat) (hcount : p.entityKeyCount e = 0) :
    ∃ p', AdvancedWalletMixin.removeEntity p e [] = .ok p' := by
  have hone : 1 ≤ p.entityCount.toNat := by omega
  simp only [AdvancedWalletMixin.removeEntity, removeEntityInternal, bind_eq_ok, onlyAdvanced_eq_ok,
    revertIf_eq_ok, exists_const, Bool.not_eq_false', decide_eq_false_iff_not, BitVec.not_le,
    BitVec.lt_def, List.foldlM_nil, pure_eq_ok, checkedSub_eq_ok]
  refine ⟨_, hadv, hexists, hthreshold, p, rfl, ?_, _, ⟨hone, rfl⟩, rfl⟩
  rw [hcount]
  decide

/-- After 256 keys the counter is back at zero: the entity can be removed and its keys stay. -/
theorem removed_with_keys (hs : Sane s) (hpaused : s.paused = false)
    (hadv : s.policy.advanced = true) (he : s.policy.entityExists e = true)
    (hthreshold : s.policy.threshold.toNat < s.policy.entityCount.toNat)
    (hnone : keysOf s.policy e = ∅) {keys : List KeyRecord} (hlength : keys.length = 256)
    (hkeys : ∀ key ∈ keys, key.entityId = e ∧ ValidKey key ∧
      (s.policy.keys (computeKeyId env key)).entityId = 0)
    (hnodup : (keys.map (computeKeyId env)).Nodup) :
    ∃ s', run (step env) s (keys.map (fun key => ⟨env.this, 200, .addKey key⟩) ++
        [⟨env.this, 200, .removeEntity e []⟩]) = s' ∧ s'.policy.advanced = true ∧
      s'.policy.entityExists e = false ∧ (keysOf s'.policy e).ncard = 256 := by
  have hne := hs.bijection.ne_zero he
  have haddable : ∀ key ∈ keys, s.policy.entityExists key.entityId = true ∧ ValidKey key ∧
      (s.policy.keys (computeKeyId env key)).entityId = 0 :=
    fun key hkey => ⟨(hkeys key hkey).1 ▸ he, (hkeys key hkey).2⟩
  rcases run_addKeys hpaused hadv haddable hnodup with ⟨p₁, hfold, hrun⟩
  have hs₁ : Sane { s with policy := p₁ } := hrun ▸ run_sane hs _
  have hcount : (keysOf p₁ e).ncard = 256 := by
    rw [ncard_addKeys hs.counted hfold hne, hnone, Set.ncard_empty,
      List.countP_eq_length.mpr fun key hkey => beq_iff_eq.mpr (hkeys key hkey).1, hlength]
  have hzero : p₁.entityKeyCount e = 0 := by
    apply BitVec.eq_of_toNat_eq
    rw [(hs₁.counted e hne).2, hcount]
    rfl
  have hsame : OnlyKeysDiffer s.policy p₁ :=
    foldlM_invariant (I := OnlyKeysDiffer s.policy) (fun _ _ _ _ hq hok => hq.addKeyInternal hok)
      (.refl s.policy) hfold
  have hremovable : ∃ p', AdvancedWalletMixin.removeEntity p₁ e [] = .ok p' := by
    rcases hsame with ⟨ks, counts, rfl⟩
    exact removeEntity_of_zero hadv he hthreshold hzero
  rcases hremovable with ⟨p', hremove⟩
  have hok : step env { s with policy := p₁ } ⟨env.this, 200, .removeEntity e []⟩ =
      .ok { s with policy := p' } := by
    show Wallet.removeEntity env _ env.this e [] = _
    unfold Wallet.removeEntity
    exact onPolicy_eq_ok.mpr ⟨.inr rfl, hpaused, p', hremove, rfl⟩
  refine ⟨{ s with policy := p' }, ?_, ?_⟩
  · rw [run_concat, hrun, commit_of_ok hok]
  · have hadv₁ : p₁.advanced = true := by
      rcases hsame with ⟨_, _, rfl⟩
      exact hadv
    rcases removeEntity_ok hremove with ⟨-, -, -, p₂, hnil, -, hinternal⟩
    rw [List.foldlM_nil, pure_eq_ok] at hnil
    subst hnil
    have hr := removeEntityInternal_ok hinternal
    refine ⟨hr.advanced.trans hadv₁, ?_, ?_⟩
    · show p'.entityExists e = false
      rw [hr.exists_, Function.update_self]
    · have hkept : keysOf p' e = keysOf p₁ e := by
        unfold keysOf
        rw [hr.keys]
      rw [hkept]
      exact hcount

-- 256 EOA keys for the entity 2; their preimages differ in the last byte.
def eoaKey (i : Nat) : KeyRecord := ⟨2, KEY_EOA, 0, 0, BitVec.ofNat 160 (256 + i)⟩

def eoaKeys : List KeyRecord := (List.range 256).map eoaKey

def twoEntitiesRun : List (Tx Call) := [bySelf (.enableAdvanced 1), bySelf (.addEntity 2)]

def wrapRun : List (Tx Call) :=
  twoEntitiesRun ++ (eoaKeys.map (fun key => bySelf (.addKey key)) ++ [bySelf (.removeEntity 2 [])])

theorem keyIdPreimage_eoaKey {i : Nat} (hi : i < 256) : keyIdPreimage (eoaKey i) =
    (encodeWords [2, 2, 0, 0] ++ beBytes 31 1) ++ [UInt8.ofNat i] := by
  have hword : (addressWord (BitVec.ofNat 160 (256 + i))).toNat = 256 + i := by
    unfold addressWord
    rw [BitVec.toNat_setWidth, BitVec.toNat_ofNat]
    omega
  have hdiv : (256 + i) / 256 = 1 := by omega
  have hbyte : UInt8.ofNat (256 + i) = UInt8.ofNat i := by
    apply UInt8.toNat_inj.mp
    rw [UInt8.toNat_ofNat', UInt8.toNat_ofNat']
    omega
  have hbytes : wordBytes (addressWord (BitVec.ofNat 160 (256 + i))) =
      beBytes 31 1 ++ [UInt8.ofNat i] := by
    rw [wordBytes, hword, beBytes, hdiv, hbyte]
  have hkind : KEY_EOA.setWidth 256 = (2 : Uint256) := by decide
  simp only [keyIdPreimage, eoaKey, hkind, encodeWords, List.flatMap_cons, List.flatMap_nil, hbytes,
    List.append_nil, List.append_assoc]

-- The ids of the 256 keys are consecutive numbers.
theorem computeKeyId_eoaKey {i : Nat} (hi : i < 256) :
    (computeKeyId toyEnv (eoaKey i)).toNat = (computeKeyId toyEnv (eoaKey 0)).toNat + i := by
  have hroom : (computeKeyId toyEnv (eoaKey 0)).toNat + 256 < 2 ^ 255 - 19 := by decide +kernel
  have hhash : ∀ j < 256, (computeKeyId toyEnv (eoaKey j)).toNat =
      ((encodeWords [2, 2, 0, 0] ++ beBytes 31 1).foldl
        (fun acc b => (acc * 257 + b.toNat + 1) % (2 ^ 255 - 19)) 7 * 257 + j + 1) %
          (2 ^ 255 - 19) := by
    intro j hj
    show (toyHash (keyIdPreimage (eoaKey j))).toNat = _
    rw [keyIdPreimage_eoaKey hj, toyHash, List.foldl_concat, BitVec.toNat_ofNat, UInt8.toNat_ofNat',
      Nat.mod_eq_of_lt (by omega), Nat.mod_eq_of_lt (a := j) hj]
  rw [hhash 0 (by decide)] at hroom ⊢
  rw [hhash i hi]
  omega

theorem computeKeyId_eoaKey_injective {i j : Nat} (hi : i < 256) (hj : j < 256)
    (h : computeKeyId toyEnv (eoaKey i) = computeKeyId toyEnv (eoaKey j)) : i = j := by
  have htoNat := congrArg BitVec.toNat h
  rw [computeKeyId_eoaKey hi, computeKeyId_eoaKey hj] at htoNat
  omega

theorem nodup_eoaKeys : (eoaKeys.map (computeKeyId toyEnv)).Nodup := by
  unfold eoaKeys
  rw [List.map_map]
  refine List.Nodup.map_on ?_ List.nodup_range
  intro i hi j hj heq
  exact computeKeyId_eoaKey_injective (List.mem_range.mp hi) (List.mem_range.mp hj) heq

-- The owner's key, the only one live, is not one of the 256.
theorem free_eoaKeys : ∀ key ∈ eoaKeys, key.entityId = 2 ∧ ValidKey key ∧
    ((run (step toyEnv) (toyWallet 11 12) twoEntitiesRun).policy.keys
      (computeKeyId toyEnv key)).entityId = 0 := by
  intro key hkey
  rcases List.mem_map.mp hkey with ⟨i, hi, rfl⟩
  have hi := List.mem_range.mp hi
  refine ⟨rfl, .inl ⟨rfl, ?_⟩, ?_⟩
  · intro hzero
    have htoNat : (256 + i) % 2 ^ 160 = 0 := congrArg BitVec.toNat hzero
    omega
  · by_contra hlive
    have hadmin : newKeys toyEnv (toyWallet 11 12) (.enableAdvanced 1) =
        [⟨1, KEY_WEBAUTHN, 11, 12, 0⟩] := by decide +kernel
    have hother : (computeKeyId toyEnv ⟨1, KEY_WEBAUTHN, 11, 12, 0⟩).toNat <
        (computeKeyId toyEnv (eoaKey 0)).toNat ∨ (computeKeyId toyEnv (eoaKey 0)).toNat + 256 ≤
          (computeKeyId toyEnv ⟨1, KEY_WEBAUTHN, 11, 12, 0⟩).toNat := by decide +kernel
    have hmem : ∀ x, ((run (step toyEnv) (toyWallet 11 12) twoEntitiesRun).policy.keys
        (computeKeyId toyEnv (eoaKey i))).entityId = x → computeKeyId toyEnv (eoaKey i) ∈
          keysOf (run (step toyEnv) (toyWallet 11 12) twoEntitiesRun).policy x := fun x hx => hx
    have hmem := hmem _ rfl
    generalize ((run (step toyEnv) (toyWallet 11 12) twoEntitiesRun).policy.keys
      (computeKeyId toyEnv (eoaKey i))).entityId = x at hlive hmem
    rw [twoEntitiesRun, run_cons, run_cons, run_nil] at hmem
    rcases keysOf_commit_subset hlive hmem with hold | ⟨k, hk, -⟩
    · rcases keysOf_commit_subset hlive hold with hnone | ⟨k, hk, -, hid⟩
      · exact hlive hnone.symm
      · change k ∈ newKeys toyEnv (toyWallet 11 12) (.enableAdvanced 1) at hk
        rw [hadmin, List.mem_singleton] at hk
        have htoNat := congrArg BitVec.toNat hid
        rw [hk, computeKeyId_eoaKey hi] at htoNat
        omega
    · exact absurd hk List.not_mem_nil

/-- `removeEntity` without key ids removes an entity that has 256 live keys. -/
theorem removed_entity_keeps_keys :
    step toyEnv clone (toyInitialize 11 12) = .ok (toyWallet 11 12) ∧
      (run (step toyEnv) (toyWallet 11 12) wrapRun).policy.entityExists 2 = false ∧
      (liveKeysOf (run (step toyEnv) (toyWallet 11 12) wrapRun).policy 2).ncard = 256 ∧
      ¬ExactAlong toyEnv (toyWallet 11 12) wrapRun := by
  have hinit : step toyEnv clone (toyInitialize 11 12) = .ok (toyWallet 11 12) := rfl
  have hcall : (toyInitialize 11 12).call = .initialize_ 11 12 0x6EC 100 := rfl
  have hnone : keysOf (run (step toyEnv) (toyWallet 11 12) twoEntitiesRun).policy 2 = ∅ := by
    apply run_keysOf_eq_empty (by decide)
    · exact keysOf_unused (by decide)
    · decide
  rcases removed_with_keys (run_sane (sane_of_init hcall hinit) twoEntitiesRun) (by decide +kernel)
    (by decide +kernel) (by decide +kernel) (by decide +kernel) hnone (by simp [eoaKeys]) free_eoaKeys
    nodup_eoaKeys with ⟨s', hrun, hadv, hno, hcount⟩
  have hfinal : run (step toyEnv) (toyWallet 11 12) wrapRun = s' := by
    unfold wrapRun
    rw [run_append]
    exact hrun
  have hlive : (liveKeysOf s'.policy 2).ncard = 256 := by
    rw [liveKeysOf_eq (by decide), hcount]
  rw [hfinal]
  refine ⟨hinit, hno, hlive, ?_⟩
  intro hexact
  have hlast := hexact wrapRun (List.prefix_rfl)
  rw [hfinal] at hlast
  rw [(hlast hadv).unregistered 2 hno, Set.ncard_empty] at hlive
  exact absurd hlive (by decide)

end OnchainInvoice.Wallet
