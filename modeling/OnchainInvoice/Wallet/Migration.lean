import OnchainInvoice.Wallet.Acceptance
import OnchainInvoice.Wallet.KeyCounts

/-!
# Authority across `enableAdvanced`

The migration makes every owner a key of the admin entity.  An EOA owner becomes a key by its
address alone, so two owners that share one collide, and the address zero is refused.
-/

namespace OnchainInvoice.P256OwnerRegistry

open Evm AdvancedWalletTypes WalletEip712 Lib.SwapPop Function

variable {env : Env} {r r' : OwnerRegistry} {qx qy digest : Bytes32} {signature : Bytes}

/-! ## The owners' keys -/

-- Every owner is stored under the id of its key, which is not zero.
structure Keyed (env : Env) (r : OwnerRegistry) : Prop where
  id : ∀ id, r.owners id = true → ownerId env (r.ownerKeys id).qx (r.ownerKeys id).qy = id
  nonzero : ∀ id, r.owners id = true → ¬((r.ownerKeys id).qx = 0 ∧ (r.ownerKeys id).qy = 0)

theorem keyed_empty (env : Env) : Keyed env OwnerRegistry.empty :=
  ⟨fun _ h => absurd h Bool.false_ne_true, fun _ h => absurd h Bool.false_ne_true⟩

theorem Keyed.addOwnerKey (h : Keyed env r) (hok : addOwnerKey env r qx qy = .ok r') :
    Keyed env r' := by
  rcases addOwnerKey_eq_ok.mp hok with ⟨hkey, -, -, rfl⟩
  constructor
  case id =>
    intro id howner
    simp only [ownerAdded, storeOwnerKey, update_apply] at howner ⊢
    by_cases hid : id = ownerId env qx qy
    · rw [if_pos hid, hid]
    · rw [if_neg hid] at howner ⊢
      exact h.id id howner
  case nonzero =>
    intro id howner
    simp only [ownerAdded, storeOwnerKey, update_apply] at howner ⊢
    by_cases hid : id = ownerId env qx qy
    · rw [if_pos hid]
      exact hkey
    · rw [if_neg hid] at howner ⊢
      exact h.nonzero id howner

theorem Keyed.removeOwnerKey (h : Keyed env r) (hok : removeOwnerKey env r qx qy = .ok r') :
    Keyed env r' := by
  rcases removeOwnerKey_eq_ok.mp hok with ⟨-, -, rfl⟩
  have hkept : ∀ id, (ownerRemoved env r qx qy).owners id = true →
      r.owners id = true ∧ (ownerRemoved env r qx qy).ownerKeys id = r.ownerKeys id := by
    intro id howner
    simp only [ownerRemoved, removeOwnerId, update_apply] at howner ⊢
    by_cases hid : id = ownerId env qx qy
    · rw [if_pos hid] at howner
      exact absurd howner Bool.false_ne_true
    · rw [if_neg hid] at howner ⊢
      exact ⟨howner, rfl⟩
  constructor
  case id =>
    intro id howner
    rw [(hkept id howner).2]
    exact h.id id (hkept id howner).1
  case nonzero =>
    intro id howner
    rw [(hkept id howner).2]
    exact h.nonzero id (hkept id howner).1

end OnchainInvoice.P256OwnerRegistry

namespace OnchainInvoice.AdvancedWalletMixin

open Evm AdvancedWalletTypes WalletEip712 Lib.Revert Function

variable {env : Env} {p p' : Policy} {digest keyId : Bytes32} {signature : Bytes}

/-! ## The loop that adds keys -/

-- The hash covers the whole record.
theorem keyIdPreimage_injective : Injective keyIdPreimage := by
  intro key key' h
  have hwords : [key.entityId, key.keyType.setWidth 256, key.qx, key.qy, addressWord key.eoa] =
      [key'.entityId, key'.keyType.setWidth 256, key'.qx, key'.qy, addressWord key'.eoa] :=
    encodeWords_injective rfl h
  simp only [List.cons.injEq, and_true] at hwords
  rcases hwords with ⟨hentity, hkind, hqx, hqy, heoa⟩
  have hkind' : key.keyType = key'.keyType := by
    have h := congrArg (BitVec.setWidth 8) hkind
    rwa [BitVec.setWidth_setWidth_of_le _ (by decide), BitVec.setWidth_setWidth_of_le _ (by decide),
      BitVec.setWidth_eq, BitVec.setWidth_eq] at h
  have heoa' : key.eoa = key'.eoa := by
    rw [← wordAddress_addressWord key.eoa, heoa, wordAddress_addressWord]
  cases key
  cases key'
  simp_all

theorem computeKeyId_injOn {keys : List KeyRecord}
    (hcf : env.crypto.CollisionFree (keys.map keyIdPreimage)) {key key' : KeyRecord}
    (hkey : key ∈ keys) (hkey' : key' ∈ keys) (h : computeKeyId env key = computeKeyId env key') :
    key = key' := by
  have hpreimage : keyIdPreimage key = keyIdPreimage key' :=
    hcf _ (List.mem_map_of_mem hkey) _ (List.mem_map_of_mem hkey') h
  exact keyIdPreimage_injective hpreimage

-- A live key stays as it is.
theorem keys_of_live {keys : List KeyRecord} (hlive : (p.keys keyId).entityId ≠ 0)
    (h : keys.foldlM (addKeyInternal env) p = .ok p') : p'.keys keyId = p.keys keyId := by
  refine foldlM_invariant (I := fun q => q.keys keyId = p.keys keyId) ?_ rfl h
  intro q key q' _ hsame hadd
  rcases addKeyInternal_eq_ok.mp hadd with ⟨-, -, hfree, rfl⟩
  have hne : keyId ≠ computeKeyId env key := by
    rintro rfl
    exact hlive (hsame ▸ hfree)
  show update q.keys (computeKeyId env key) key keyId = p.keys keyId
  rw [update_of_ne hne, hsame]

/-- Afterwards every key stands under its id, and no other key has become live. -/
theorem keys_of_addKeys {keys : List KeyRecord} (hzero : p.entityExists 0 = false)
    (h : keys.foldlM (addKeyInternal env) p = .ok p') :
    (∀ key ∈ keys, p'.keys (computeKeyId env key) = key) ∧
      ∀ keyId, p'.keys keyId = p.keys keyId ∨ p'.keys keyId ∈ keys := by
  induction keys generalizing p with
  | nil =>
    rw [List.foldlM_nil, pure_eq_ok] at h
    subst h
    exact ⟨fun key hkey => absurd hkey List.not_mem_nil, fun keyId => .inl rfl⟩
  | cons key keys ih =>
    rw [List.foldlM_cons] at h
    rcases bind_eq_ok.mp h with ⟨p₁, hadd, hrest⟩
    rcases addKeyInternal_eq_ok.mp hadd with ⟨hexists, -, -, rfl⟩
    have hself : (keyAdded env p key).keys (computeKeyId env key) = key := update_self ..
    have hlive : ((keyAdded env p key).keys (computeKeyId env key)).entityId ≠ 0 := by
      rw [hself]
      intro hentity
      rw [hentity, hzero] at hexists
      exact Bool.false_ne_true hexists
    rcases ih (p := keyAdded env p key) hzero hrest with ⟨hall, hothers⟩
    apply And.intro
    · intro k hk
      rcases List.mem_cons.mp hk with rfl | hk
      · rw [keys_of_live hlive hrest, hself]
      · exact hall k hk
    · intro keyId
      rcases hothers keyId with hsame | hmem
      · by_cases hid : keyId = computeKeyId env key
        · rw [hsame, hid, hself]
          exact .inr (List.mem_cons_self ..)
        · rw [hsame]
          exact .inl (update_of_ne hid ..)
      · exact .inr (List.mem_cons_of_mem _ hmem)

/-- The loop goes through when the keys are valid and their ids are free and distinct. -/
theorem addKeys_isOk_iff {keys : List KeyRecord} (hzero : p.entityExists 0 = false)
    (hexists : ∀ key ∈ keys, p.entityExists key.entityId = true) :
    (∃ p', keys.foldlM (addKeyInternal env) p = .ok p') ↔
      (∀ key ∈ keys, ValidKey key ∧ (p.keys (computeKeyId env key)).entityId = 0) ∧
        (keys.map (computeKeyId env)).Nodup := by
  induction keys generalizing p with
  | nil => simp [pure_eq_ok]
  | cons key keys ih =>
    have hne : key.entityId ≠ 0 := by
      intro hentity
      have h := hexists key (List.mem_cons_self ..)
      rw [hentity, hzero] at h
      exact Bool.false_ne_true h
    -- Once the key is there its id is taken, and the others are as free as before.
    have hfree : ∀ k, ((keyAdded env p key).keys (computeKeyId env k)).entityId = 0 ↔
        computeKeyId env k ≠ computeKeyId env key ∧
          (p.keys (computeKeyId env k)).entityId = 0 := by
      intro k
      show (update p.keys (computeKeyId env key) key (computeKeyId env k)).entityId = 0 ↔ _
      rw [update_apply]
      by_cases hid : computeKeyId env k = computeKeyId env key
      · rw [if_pos hid]
        exact iff_of_false hne fun h => h.1 hid
      · rw [if_neg hid]
        exact (and_iff_right hid).symm
    have hrest : (∃ p', keys.foldlM (addKeyInternal env) (keyAdded env p key) = .ok p') ↔
        (∀ k ∈ keys, ValidKey k ∧ ((keyAdded env p key).keys (computeKeyId env k)).entityId = 0) ∧
          (keys.map (computeKeyId env)).Nodup :=
      ih hzero fun k hk => hexists k (List.mem_cons_of_mem _ hk)
    have hcons : (∃ p', (key :: keys).foldlM (addKeyInternal env) p = .ok p') ↔
        (ValidKey key ∧ (p.keys (computeKeyId env key)).entityId = 0) ∧
          ∃ p', keys.foldlM (addKeyInternal env) (keyAdded env p key) = .ok p' := by
      simp only [List.foldlM_cons, bind_eq_ok, addKeyInternal_eq_ok,
        hexists key (List.mem_cons_self ..), true_and]
      apply Iff.intro
      · rintro ⟨p', p₁, ⟨hvalid, hfree, rfl⟩, h⟩
        exact ⟨⟨hvalid, hfree⟩, p', h⟩
      · rintro ⟨⟨hvalid, hfree⟩, p', h⟩
        exact ⟨p', _, ⟨hvalid, hfree, rfl⟩, h⟩
    rw [hcons, hrest, List.map_cons, List.nodup_cons, List.forall_mem_cons, List.mem_map]
    simp only [hfree]
    apply Iff.intro
    · rintro ⟨hkey, hall, hnodup⟩
      refine ⟨⟨hkey, fun k hk => ⟨(hall k hk).1, (hall k hk).2.2⟩⟩, ?_, hnodup⟩
      rintro ⟨k, hk, heq⟩
      exact (hall k hk).2.1 heq
    · rintro ⟨⟨hkey, hall⟩, hnew, hnodup⟩
      exact ⟨hkey, fun k hk => ⟨(hall k hk).1, fun heq => hnew ⟨k, hk, heq⟩, (hall k hk).2⟩, hnodup⟩

/-! ## A single signature -/

-- An entity of its own meets a threshold of one when nobody has a veto.
theorem satisfies_single {entry : EntitySig} (hthreshold : p.threshold.toNat ≤ 1)
    (hveto : ¬∃ e, p.entityExists e = true ∧ VetoBit p e) : Satisfies env p digest [entry] ↔
      p.entityExists (entityOf p entry) = true ∧
        SignedBy env digest (p.keys entry.keyId) entry.sig := by
  apply Iff.intro
  · intro h
    exact h.signed entry (List.mem_singleton_self entry)
  · intro h
    constructor
    case signed =>
      intro x hx
      rw [List.mem_singleton.mp hx]
      exact h
    case distinct => exact List.nodup_singleton _
    case quorum => exact hthreshold
    case veto => exact fun hsome => absurd hsome hveto

end OnchainInvoice.AdvancedWalletMixin

namespace OnchainInvoice.Wallet

open Evm AdvancedWalletTypes WalletEip712 P256OwnerRegistry AdvancedWalletMixin Lib.Revert Lib.Runs
  Function

variable {env : Env} {s s' : State} {tx : Tx Call} {admin : Bytes32} {r : OwnerRegistry}

theorem keyed_of_run {qx qy : Bytes32} {recoveryContract : Address} {recoveryTimelock : Uint256}
    (hcall : tx.call = .initialize_ qx qy recoveryContract recoveryTimelock)
    (hinit : step env clone tx = .ok s) (txs : List (Tx Call)) :
    Keyed env (run (step env) s txs).registry := by
  refine run_invariant (I := fun s : State => Keyed env s.registry) ?_ ?_ txs
  · intro s tx s' hs hok
    rcases (step_effect hok).registry_cases with hsame | ⟨key, -, hadd⟩ | ⟨qx, qy, hremove⟩
    · rw [hsame]
      exact hs
    · exact hs.addOwnerKey hadd
    · exact hs.removeOwnerKey hremove
  · exact (keyed_empty env).addOwnerKey (initialize_eq_ok hcall hinit).1

/-! ## What is asked of the migration -/

-- A byte string that both decoders read alike and that fits into calldata.
structure WellEncoded (env : Env) (signature : Bytes) : Prop where
  decodes : env.crypto.tryDecodeAuth signature = decodeWebAuthnAuth signature
  size : (encodeEntitySigs [⟨0, signature⟩]).length < 2 ^ 64

-- The signature with the id of a key.
def singleEntry (keyId : Bytes32) (signature : Bytes) : Bytes :=
  ADVANCED_SIG_MAGIC ++ encodeEntitySigs [⟨keyId, signature⟩]

/-- The migration succeeds, and what an owner could sign before a key can sign after it. -/
def PreservesAuthority (env : Env) (s : State) (admin : Bytes32) : Prop :=
  ∀ sender, Authorized env sender → ∃ s', enableAdvanced env s sender admin = .ok s' ∧
    ∀ digest signature, WellEncoded env signature →
      ((∃ keyId, rawSignatureValidation env s' digest (singleEntry keyId signature) = .ok true) ↔
        validateAnyOwner env s.registry digest signature = true)

/-- No EOA owner has the address zero, and no two of them share an address. -/
structure Migratable (env : Env) (r : OwnerRegistry) : Prop where
  address : ∀ key, Registered r key → ¬ZeroEoa env key
  distinct : ∀ key key', Registered r key → Registered r key' → key.qy = EOA_OWNER_QY env →
    key'.qy = EOA_OWNER_QY env → eoaFromQx key.qx = eoaFromQx key'.qx → key = key'

/-! ## The keys of the admin entity -/

def migratedKeys (env : Env) (r : OwnerRegistry) (admin : Bytes32) : List KeyRecord :=
  r.ownerIds.map fun id => migratedKey env admin (r.ownerKeys id)

theorem isEoaOwnerQy_eq_true {qy : Bytes32} :
    isEoaOwnerQy env qy = true ↔ qy = EOA_OWNER_QY env := beq_iff_eq

theorem migratedKey_of_eoa {key : OwnerKey} (h : key.qy = EOA_OWNER_QY env) :
    migratedKey env admin key = ⟨admin, KEY_EOA, 0, 0, eoaFromQx key.qx⟩ := by
  unfold migratedKey
  rw [if_pos (isEoaOwnerQy_eq_true.mpr h)]

theorem migratedKey_of_passkey {key : OwnerKey} (h : key.qy ≠ EOA_OWNER_QY env) :
    migratedKey env admin key = ⟨admin, KEY_WEBAUTHN, key.qx, key.qy, 0⟩ := by
  unfold migratedKey
  rw [if_neg fun heq => h (isEoaOwnerQy_eq_true.mp heq)]

theorem validKey_migratedKey {key : OwnerKey} (hkey : ¬(key.qx = 0 ∧ key.qy = 0)) :
    ValidKey (migratedKey env admin key) ↔ ¬ZeroEoa env key := by
  unfold ValidKey ZeroEoa
  by_cases hqy : key.qy = EOA_OWNER_QY env
  · rw [migratedKey_of_eoa hqy]
    simp only [hqy, true_and, show KEY_EOA ≠ KEY_WEBAUTHN by decide,
      show KEY_EOA ≠ KEY_YUBIKEY by decide, or_false, false_and, ne_eq]
  · rw [migratedKey_of_passkey hqy]
    apply iff_of_true
    · exact .inr ⟨.inl rfl, hkey⟩
    · exact fun h => hqy h.1

-- What tells two owners apart tells their keys apart, except the upper bits of an address.
theorem migratedKey_eq_iff {key key' : OwnerKey} :
    migratedKey env admin key = migratedKey env admin key' ↔ key = key' ∨
      key.qy = EOA_OWNER_QY env ∧ key'.qy = EOA_OWNER_QY env ∧
        eoaFromQx key.qx = eoaFromQx key'.qx := by
  have hkinds : KEY_EOA ≠ KEY_WEBAUTHN := by decide
  by_cases hqy : key.qy = EOA_OWNER_QY env
  · rw [migratedKey_of_eoa hqy]
    by_cases hqy' : key'.qy = EOA_OWNER_QY env
    · rw [migratedKey_of_eoa hqy']
      simp only [KeyRecord.mk.injEq, hqy, hqy', true_and]
      apply Iff.intro
      · exact .inr
      · rintro (rfl | heq)
        · rfl
        · exact heq
    · rw [migratedKey_of_passkey hqy']
      apply iff_of_false
      · simp [hkinds]
      · rintro (rfl | ⟨-, h, -⟩)
        · exact hqy' hqy
        · exact hqy' h
  · rw [migratedKey_of_passkey hqy]
    simp only [hqy, false_and, or_false]
    by_cases hqy' : key'.qy = EOA_OWNER_QY env
    · rw [migratedKey_of_eoa hqy']
      apply iff_of_false
      · simp [Ne.symm hkinds]
      · rintro rfl
        exact hqy hqy'
    · rw [migratedKey_of_passkey hqy']
      cases key
      cases key'
      simp

/-- The keys are valid and their ids distinct just when the owners can be migrated. -/
theorem migratable_iff (hr : WellFormed r) (hk : Keyed env r)
    (hcf : env.crypto.CollisionFree ((migratedKeys env r admin).map keyIdPreimage)) :
    Migratable env r ↔ (∀ key ∈ migratedKeys env r admin, ValidKey key) ∧
      ((migratedKeys env r admin).map (computeKeyId env)).Nodup := by
  have howner : ∀ id ∈ r.ownerIds, Registered r (r.ownerKeys id) :=
    fun id hid => ⟨id, (hr.mem id).mp hid, rfl⟩
  have hsame : ∀ id ∈ r.ownerIds, ∀ id' ∈ r.ownerIds, r.ownerKeys id = r.ownerKeys id' → id = id' := by
    intro id hid id' hid' heq
    rw [← hk.id id ((hr.mem id).mp hid), ← hk.id id' ((hr.mem id').mp hid'), heq]
  have hids : ((migratedKeys env r admin).map (computeKeyId env)).Nodup ↔
      ∀ id ∈ r.ownerIds, ∀ id' ∈ r.ownerIds,
        migratedKey env admin (r.ownerKeys id) = migratedKey env admin (r.ownerKeys id') →
          id = id' := by
    have hmem : ∀ id ∈ r.ownerIds,
        migratedKey env admin (r.ownerKeys id) ∈ migratedKeys env r admin :=
      fun id hid => List.mem_map.mpr ⟨id, hid, rfl⟩
    rw [show (migratedKeys env r admin).map (computeKeyId env) =
      r.ownerIds.map fun id => computeKeyId env (migratedKey env admin (r.ownerKeys id)) from
        List.map_map, List.nodup_map_iff_inj_on hr.nodup]
    apply Iff.intro
    · intro h id hid id' hid' heq
      exact h id hid id' hid' (congrArg (computeKeyId env) heq)
    · intro h id hid id' hid' heq
      exact h id hid id' hid' (computeKeyId_injOn hcf (hmem id hid) (hmem id' hid') heq)
  have hvalid : (∀ key ∈ migratedKeys env r admin, ValidKey key) ↔
      ∀ id ∈ r.ownerIds, ¬ZeroEoa env (r.ownerKeys id) := by
    unfold migratedKeys
    rw [List.forall_mem_map]
    refine forall₂_congr fun id hid => validKey_migratedKey (hk.nonzero id ((hr.mem id).mp hid))
  rw [hids, hvalid]
  apply Iff.intro
  · intro h
    refine ⟨fun id hid => h.address _ (howner id hid), fun id hid id' hid' heq => ?_⟩
    rcases migratedKey_eq_iff.mp heq with heq | ⟨hqy, hqy', heq⟩
    · exact hsame id hid id' hid' heq
    · exact hsame id hid id' hid'
        (h.distinct _ _ (howner id hid) (howner id' hid') hqy hqy' heq)
  · rintro ⟨haddress, hdistinct⟩
    constructor
    case address =>
      rintro key ⟨id, hid, rfl⟩
      exact haddress id ((hr.mem id).mpr hid)
    case distinct =>
      rintro key key' ⟨id, hid, rfl⟩ ⟨id', hid', rfl⟩ hqy hqy' heq
      have hsameId := hdistinct id ((hr.mem id).mpr hid) id' ((hr.mem id').mpr hid')
        (migratedKey_eq_iff.mpr (.inr ⟨hqy, hqy', heq⟩))
      rw [hsameId]

/-! ## Owners and keys sign alike -/

theorem validateOwner_eq_true {digest id : Bytes32} {signature : Bytes}
    (howner : r.owners id = true) (haddress : ¬ZeroEoa env (r.ownerKeys id))
    (hdecodes : env.crypto.tryDecodeAuth signature = decodeWebAuthnAuth signature) :
    validateOwner env r digest signature id = true ↔
      SignedBy env digest (migratedKey env admin (r.ownerKeys id)) signature := by
  have hkinds : KEY_WEBAUTHN ≠ KEY_EOA := by decide
  unfold validateOwner SignedBy
  rw [if_neg (by rw [howner]; decide)]
  by_cases hqy : (r.ownerKeys id).qy = EOA_OWNER_QY env
  · have hsentinel : isEoaOwnerQy env (r.ownerKeys id).qy = true := beq_iff_eq.mpr hqy
    have hne : eoaFromQx (r.ownerKeys id).qx ≠ 0 := fun hzero => haddress ⟨hqy, hzero⟩
    rw [migratedKey_of_eoa hqy, if_pos hsentinel, if_pos rfl, ← recover_eq hne]
    exact beq_iff_eq
  · have hsentinel : ¬isEoaOwnerQy env (r.ownerKeys id).qy = true :=
      fun h => hqy (isEoaOwnerQy_eq_true.mp h)
    rw [migratedKey_of_passkey hqy, if_neg hsentinel, if_neg hkinds, validateWebAuthn_eq_true,
      hdecodes]

theorem validateAnyOwner_eq_true {digest : Bytes32} {signature : Bytes} (hr : WellFormed r)
    (hm : Migratable env r)
    (hdecodes : env.crypto.tryDecodeAuth signature = decodeWebAuthnAuth signature) :
    validateAnyOwner env r digest signature = true ↔
      ∃ key ∈ migratedKeys env r admin, SignedBy env digest key signature := by
  unfold validateAnyOwner migratedKeys
  rw [List.any_eq_true]
  simp only [List.mem_map, exists_exists_and_eq_and]
  refine exists_congr fun id => and_congr_right fun hid => ?_
  have howner := (hr.mem id).mp hid
  exact validateOwner_eq_true howner (hm.address _ ⟨id, howner, rfl⟩) hdecodes

/-! ## The policy after the migration -/

-- The admin entity, with a threshold of one and no keys yet.
def adminPolicy (admin : Bytes32) : Policy :=
  registered { Policy.unused with advanced := true, threshold := 1 } admin

theorem entityExists_adminPolicy {e : Bytes32} :
    (adminPolicy admin).entityExists e = true ↔ e = admin := by
  show update (fun _ => false) admin true e = true ↔ e = admin
  rw [update_apply]
  by_cases he : e = admin
  · simp [he]
  · simp [he]

theorem entityExists_adminPolicy_zero (hadmin : admin ≠ 0) :
    (adminPolicy admin).entityExists 0 = false := by
  rw [← Bool.not_eq_true, entityExists_adminPolicy]
  exact hadmin.symm

theorem registerEntity_adminPolicy (hadmin : admin ≠ 0) :
    registerEntity { Policy.unused with advanced := true, threshold := 1 } admin =
      .ok (adminPolicy admin) :=
  registerEntity_eq_ok.mpr ⟨hadmin, rfl, by decide, rfl⟩

theorem onlyKeysDiffer_of_addKeys {p p' : Policy} {keys : List KeyRecord}
    (h : keys.foldlM (addKeyInternal env) p = .ok p') : OnlyKeysDiffer p p' :=
  foldlM_invariant (I := OnlyKeysDiffer p) (fun _ _ _ _ hq hok => hq.addKeyInternal hok) (.refl p) h

theorem enableAdvanced_eq_ok {sender : Address} (hpolicy : s.policy = Policy.unused)
    (hr : WellFormed s.registry) (hpaused : s.paused = false)
    (hidle : s.pendingOwner.active = false) (hadmin : admin ≠ 0) (hauth : Authorized env sender) :
    enableAdvanced env s sender admin = .ok s' ↔
      ∃ p, (migratedKeys env s.registry admin).foldlM (addKeyInternal env) (adminPolicy admin) =
        .ok p ∧ s' = disableRecovery { s with policy := p } := by
  have hchange : AdvancedWalletMixin.enableAdvanced s.policy s.pendingOwner.active
      (migrateSimpleOwnersToEntity env s.registry admin) admin =
        (migratedKeys env s.registry admin).foldlM (addKeyInternal env) (adminPolicy admin) := by
    unfold AdvancedWalletMixin.enableAdvanced migratedKeys
    rw [hpolicy, hidle, registerEntity_adminPolicy hadmin, ← migrate_eq hr]
    rfl
  unfold enableAdvanced
  simp only [bind_eq_ok, onPolicy_eq_ok, pure_eq_ok, hchange]
  apply Iff.intro
  · rintro ⟨_, ⟨-, -, p, hok, rfl⟩, rfl⟩
    exact ⟨p, hok, rfl⟩
  · rintro ⟨p, hok, rfl⟩
    exact ⟨_, ⟨hauth, hpaused, p, hok, rfl⟩, rfl⟩

-- A single entry for a key of the admin entity, the only one there is.
theorem validates_entry_iff {p : Policy} {digest keyId : Bytes32} {signature : Bytes}
    (hb : Bijection p) (hk : KeysValid p) (hsame : OnlyKeysDiffer (adminPolicy admin) p)
    (hsize : (encodeEntitySigs [⟨0, signature⟩]).length < 2 ^ 64) :
    validateAdvancedSignatures env p digest (singleEntry keyId signature) = .ok true ↔
      (p.keys keyId).entityId = admin ∧ SignedBy env digest (p.keys keyId) signature := by
  have hexists : p.entityExists (p.keys keyId).entityId = true ↔
      (p.keys keyId).entityId = admin := by
    rcases hsame with ⟨keys, counts, rfl⟩
    exact entityExists_adminPolicy
  have hthreshold : p.threshold.toNat ≤ 1 := by
    rcases hsame with ⟨keys, counts, rfl⟩
    exact le_refl 1
  have hveto : ¬∃ e, p.entityExists e = true ∧ VetoBit p e := by
    rw [← hb.vetoBitmap_ne_zero, not_not]
    rcases hsame with ⟨keys, counts, rfl⟩
    rfl
  have hsingle : Satisfies env p digest [⟨keyId, signature⟩] ↔
      p.entityExists (p.keys keyId).entityId = true ∧ SignedBy env digest (p.keys keyId) signature :=
    satisfies_single hthreshold hveto
  have hdecode : abiDecodeEntitySigs ((singleEntry keyId signature).drop 4) =
      some [⟨keyId, signature⟩] := by
    apply abiDecodeEntitySigs_encode
    simpa [encodeEntitySigs, Abi.length_encodeArray, encodeEntitySig] using hsize
  rw [validateAdvancedSignatures_eq_true hb hk, ← hexists, ← hsingle, hdecode]
  apply Iff.intro
  · rintro ⟨entries, -, hsome, hsatisfies⟩
    cases hsome
    exact hsatisfies
  · intro hsatisfies
    exact ⟨[⟨keyId, signature⟩], rfl, rfl, hsatisfies⟩

/-- A signature is valid with some key's id when it is one of a migrated key. -/
theorem validates_single_iff {p : Policy} {digest : Bytes32} {signature : Bytes}
    (hadmin : admin ≠ 0) (hsize : (encodeEntitySigs [⟨0, signature⟩]).length < 2 ^ 64)
    (hok : (migratedKeys env r admin).foldlM (addKeyInternal env) (adminPolicy admin) = .ok p) :
    (∃ keyId, validateAdvancedSignatures env p digest (singleEntry keyId signature) = .ok true) ↔
      ∃ key ∈ migratedKeys env r admin, SignedBy env digest key signature := by
  have hb : Bijection p := by
    refine foldlM_invariant (fun _ _ _ _ hq hq' => (Bijection.stable env).addKeyInternal hq hq') ?_
      hok
    exact (Bijection.stable env).registerEntity ((Bijection.stable env).enable _ Bijection.unused)
      (registerEntity_adminPolicy hadmin)
  have hk : KeysValid p := by
    refine foldlM_invariant (fun _ _ _ _ hq hq' => (KeysValid.stable env).addKeyInternal hq hq') ?_
      hok
    exact fun keyId hlive => absurd rfl hlive
  have hkeys := keys_of_addKeys (entityExists_adminPolicy_zero hadmin) hok
  simp only [validates_entry_iff hb hk (onlyKeysDiffer_of_addKeys hok) hsize]
  apply Iff.intro
  · rintro ⟨keyId, hentity, hsigned⟩
    rcases hkeys.2 keyId with hnone | hmem
    · rw [hnone] at hentity
      exact absurd hentity.symm hadmin
    · exact ⟨_, hmem, hsigned⟩
  · rintro ⟨key, hmem, hsigned⟩
    rw [← hkeys.1 key hmem] at hsigned
    refine ⟨computeKeyId env key, ?_, hsigned⟩
    rw [hkeys.1 key hmem]
    rcases List.mem_map.mp hmem with ⟨id, -, rfl⟩
    exact migratedKey_entityId ..

/-! ## Reachable wallets -/

/-- In every reachable simple state that is neither paused nor in recovery, `enableAdvanced`
preserves the owners' authority just when the owners can be migrated. -/
theorem authority_preserved_iff (env : Env) (tx₀ : Tx Call) (qx qy : Bytes32)
    (recoveryContract : Address) (recoveryTimelock : Uint256) (s₀ : State)
    (hcall : tx₀.call = .initialize_ qx qy recoveryContract recoveryTimelock)
    (hinit : step env clone tx₀ = .ok s₀) (txs : List (Tx Call)) (s : State)
    (hs : s = run (step env) s₀ txs) (hsimple : s.policy.advanced = false)
    (hpaused : s.paused = false) (hidle : s.pendingOwner.active = false) (admin : Bytes32)
    (hadmin : admin ≠ 0)
    (hcf : env.crypto.CollisionFree ((migratedKeys env s.registry admin).map keyIdPreimage)) :
    PreservesAuthority env s admin ↔ Migratable env s.registry := by
  have hpolicy : s.policy = Policy.unused := by
    rw [hs] at hsimple ⊢
    exact unused_of_run hcall hinit txs hsimple
  have hr : WellFormed s.registry := hs ▸ wellFormed_of_run hcall hinit txs
  have hk : Keyed env s.registry := hs ▸ keyed_of_run hcall hinit txs
  have hadmins : ∀ key ∈ migratedKeys env s.registry admin,
      (adminPolicy admin).entityExists key.entityId = true := by
    intro key hkey
    rcases List.mem_map.mp hkey with ⟨id, -, rfl⟩
    rw [entityExists_adminPolicy]
    exact migratedKey_entityId ..
  have hsucceeds : (∃ p, (migratedKeys env s.registry admin).foldlM (addKeyInternal env)
      (adminPolicy admin) = .ok p) ↔ Migratable env s.registry := by
    rw [addKeys_isOk_iff (entityExists_adminPolicy_zero hadmin) hadmins, migratable_iff hr hk hcf]
    exact and_congr_left' (forall₂_congr fun key _ => and_iff_left rfl)
  apply Iff.intro
  · intro hpreserves
    rcases hpreserves env.this (.inr rfl) with ⟨s', hok, -⟩
    rcases (enableAdvanced_eq_ok hpolicy hr hpaused hidle hadmin (.inr rfl)).mp hok with ⟨p, hp, -⟩
    exact hsucceeds.mp ⟨p, hp⟩
  · intro hm sender hauth
    rcases hsucceeds.mpr hm with ⟨p, hp⟩
    refine ⟨disableRecovery { s with policy := p },
      (enableAdvanced_eq_ok hpolicy hr hpaused hidle hadmin hauth).mpr ⟨p, hp, rfl⟩, ?_⟩
    intro digest signature hencoded
    have hadvanced : p.advanced = true := by
      rcases onlyKeysDiffer_of_addKeys hp with ⟨keys, counts, rfl⟩
      rfl
    rw [validateAnyOwner_eq_true hr hm hencoded.decodes,
      ← validates_single_iff hadmin hencoded.size hp]
    unfold rawSignatureValidation disableRecovery
    simp only [hpaused, hadvanced, if_true, if_false, Bool.false_eq_true]

-- A second passkey and an EOA join.
def migrationRun : List (Tx Call) :=
  [bySelf (.addOwner 21 22), bySelf (.addOwner (eoaOwnerQx 0xE0A) (EOA_OWNER_QY toyEnv))]

theorem authority_preserved_iff_migrationRun :
    PreservesAuthority toyEnv (run (step toyEnv) (toyWallet 11 12) migrationRun) 1 ↔
      Migratable toyEnv (run (step toyEnv) (toyWallet 11 12) migrationRun).registry :=
  authority_preserved_iff toyEnv (toyInitialize 11 12) 11 12 0x6EC 100 (toyWallet 11 12) rfl rfl
    migrationRun _ rfl (by decide +kernel) (by decide +kernel) (by decide +kernel) 1 (by decide)
    (by decide +kernel)

-- The same EOA once more, with a bit above its address.
def sharedAddressRun : List (Tx Call) :=
  [bySelf (.addOwner (eoaOwnerQx 0xE0A) (EOA_OWNER_QY toyEnv)),
    bySelf (.addOwner (eoaOwnerQx 0xE0A + 2 ^ 160) (EOA_OWNER_QY toyEnv))]

/-- An EOA that is an owner under two coordinates makes `enableAdvanced` revert. -/
theorem shared_address_blocks_migration :
    step toyEnv clone (toyInitialize 11 12) = .ok (toyWallet 11 12) ∧
      (run (step toyEnv) (toyWallet 11 12) sharedAddressRun).policy.advanced = false ∧
      (run (step toyEnv) (toyWallet 11 12) sharedAddressRun).paused = false ∧
      (run (step toyEnv) (toyWallet 11 12) sharedAddressRun).pendingOwner.active = false ∧
      (run (step toyEnv) (toyWallet 11 12) sharedAddressRun).registry.ownerIds.length = 3 ∧
      ¬PreservesAuthority toyEnv (run (step toyEnv) (toyWallet 11 12) sharedAddressRun) 1 := by
  refine ⟨rfl, by decide +kernel, by decide +kernel, by decide +kernel, by decide +kernel, ?_⟩
  intro hpreserves
  rcases hpreserves toyEnv.this (.inr rfl) with ⟨s', hok, -⟩
  have hfails : (enableAdvanced toyEnv (run (step toyEnv) (toyWallet 11 12) sharedAddressRun)
      toyEnv.this 1).isOk = false := by
    decide +kernel
  rw [hok] at hfails
  cases hfails

end OnchainInvoice.Wallet
