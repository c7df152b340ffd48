import Mathlib.Data.Set.Card
import OnchainInvoice.Wallet.Bijection

/-!
# Usable entities

An entity is usable when it has a live key.  The key counters are right modulo 256, which is enough
to keep a key of every veto entity, and the policy can be met when the usable entities are as many
as the threshold.
-/

namespace OnchainInvoice.AdvancedWalletMixin

open Evm AdvancedWalletTypes WalletEip712 Lib.Revert Lib.Bitmap Function

variable {env : Env} {p p' : Policy} {e x keyId : Bytes32} {key : KeyRecord}

/-! ## Live keys -/

def keysOf (p : Policy) (e : Bytes32) : Set Bytes32 := {keyId | (p.keys keyId).entityId = e}

theorem keysOf_keyAdded (hfree : (p.keys (computeKeyId env key)).entityId = 0) (hx : x ≠ 0) :
    keysOf (keyAdded env p key) x =
      if key.entityId = x then insert (computeKeyId env key) (keysOf p x) else keysOf p x := by
  ext keyId
  show (update p.keys (computeKeyId env key) key keyId).entityId = x ↔ _
  rw [update_apply]
  by_cases hid : keyId = computeKeyId env key
  · by_cases hkey : key.entityId = x
    · simp [hid, hkey]
    · simp only [hid, hkey, keysOf, hfree, if_true, if_false, Set.mem_ofPred_eq, hx.symm]
  · by_cases hkey : key.entityId = x
    · simp [hid, hkey, keysOf]
    · simp [hid, hkey, keysOf]

theorem keysOf_keyRemoved (hx : x ≠ 0) :
    keysOf (keyRemoved p keyId) x = keysOf p x \ {keyId} := by
  ext id
  show (update p.keys keyId KeyRecord.zero id).entityId = x ↔ _
  rw [update_apply]
  by_cases hid : id = keyId
  · simp only [hid, KeyRecord.zero, if_true, hx.symm, Set.mem_sdiff, Set.mem_singleton_iff,
      not_true_eq_false, and_false]
  · simp [hid, keysOf]

-- The counter of an entity is the number of its live keys, in a `uint8`.
def KeysCounted (p : Policy) : Prop :=
  ∀ e, e ≠ 0 → (keysOf p e).Finite ∧ (p.entityKeyCount e).toNat = (keysOf p e).ncard % 256

theorem keysOf_unused (he : e ≠ 0) : keysOf Policy.unused e = ∅ :=
  Set.eq_empty_of_forall_notMem fun _ hkey => he hkey.symm

theorem KeysCounted.unused : KeysCounted Policy.unused := by
  intro e he
  rw [keysOf_unused he, Set.ncard_empty]
  exact ⟨Set.finite_empty, rfl⟩

theorem KeysCounted.keyAdded (h : KeysCounted p)
    (hfree : (p.keys (computeKeyId env key)).entityId = 0) : KeysCounted (keyAdded env p key) := by
  intro x hx
  rcases h x hx with ⟨hfinite, hcount⟩
  rw [keysOf_keyAdded hfree hx]
  show _ ∧ (update p.entityKeyCount key.entityId (p.entityKeyCount key.entityId + 1) x).toNat = _
  by_cases hkey : key.entityId = x
  · have hfresh : computeKeyId env key ∉ keysOf p x := by
      intro hmem
      exact hx (hmem.symm.trans hfree)
    rw [if_pos hkey, hkey, update_self, Set.ncard_insert_of_notMem hfresh hfinite,
      BitVec.toNat_add, hcount]
    refine ⟨hfinite.insert _, ?_⟩
    show (_ % 256 + 1) % 256 = _
    omega
  · rw [if_neg hkey, update_of_ne (Ne.symm hkey)]
    exact ⟨hfinite, hcount⟩

theorem KeysCounted.keyRemoved (h : KeysCounted p) (keyId : Bytes32) :
    KeysCounted (keyRemoved p keyId) := by
  intro x hx
  rcases h x hx with ⟨hfinite, hcount⟩
  rw [keysOf_keyRemoved hx]
  show _ ∧ (update p.entityKeyCount (p.keys keyId).entityId
    (p.entityKeyCount (p.keys keyId).entityId - 1) x).toNat = _
  refine ⟨hfinite.sdiff, ?_⟩
  by_cases hkey : (p.keys keyId).entityId = x
  · have hmem : keyId ∈ keysOf p x := hkey
    have hpos : 0 < (keysOf p x).ncard := (Set.ncard_pos hfinite).mpr ⟨keyId, hmem⟩
    rw [hkey, update_self, Set.ncard_sdiff_singleton_of_mem hmem, BitVec.toNat_sub, hcount]
    show (256 - 1 + _ % 256) % 256 = _
    omega
  · have hmem : keyId ∉ keysOf p x := hkey
    rw [update_of_ne (Ne.symm hkey), Set.sdiff_singleton_eq_self hmem, hcount]

theorem KeysCounted.stable (env : Env) : Stable env KeysCounted where
  enable _ h := h
  register _ _ h _ _ _ := h
  removal p e p' h _ hzero hr := by
    have hcounts : p'.entityKeyCount = p.entityKeyCount := by
      rw [hr.keyCount, ← hzero, update_eq_self]
    unfold KeysCounted keysOf
    rw [hr.keys, hcounts]
    exact h
  addKey _ _ h _ _ hfree := h.keyAdded hfree
  removeKey _ keyId h _ := h.keyRemoved keyId
  threshold _ _ h := h
  veto _ _ _ _ h _ _ hset := by
    rcases hset.rest with ⟨_, _, rfl⟩
    exact h
  reset _ _ h := h

theorem KeysCounted.nonempty (h : KeysCounted p) (he : e ≠ 0) (hcount : p.entityKeyCount e ≠ 0) :
    (keysOf p e).Nonempty := by
  rcases h e he with ⟨hfinite, hcounted⟩
  apply (Set.ncard_pos hfinite).mp
  by_contra hnone
  apply hcount
  apply BitVec.eq_of_toNat_eq
  rw [hcounted]
  show _ = 0
  omega

/-! ## Usable entities -/

def usable (p : Policy) : Set Bytes32 := {e | p.entityExists e = true ∧ (keysOf p e).Nonempty}

-- Enough usable entities to meet the threshold, a veto entity among them where one is needed.
def NeverLocked (p : Policy) : Prop :=
  ∃ entities : Finset Bytes32, p.threshold.toNat ≤ entities.card ∧ (∀ e ∈ entities, e ∈ usable p) ∧
    (p.vetoBitmap ≠ 0 → ∃ e ∈ entities, VetoBit p e)

theorem Bijection.entities (h : Bijection p) : {e | p.entityExists e = true} =
    ((Finset.range p.entityCount.toNat).image fun n => p.entityAtBit (BitVec.ofNat 8 n) :
      Finset Bytes32) := by
  ext e
  simp only [Set.mem_ofPred_eq, Finset.coe_image, Finset.coe_range, Set.mem_image, Set.mem_Iio]
  have hround : ∀ b : Uint8, BitVec.ofNat 8 b.toNat = b := fun b => by simp
  apply Iff.intro
  · intro he
    exact ⟨(p.entityBit e).toNat, h.bit_lt e he, by rw [hround, h.atBit_bit e he]⟩
  · rintro ⟨n, hn, he⟩
    have hlt := toNat_lt p.entityCount
    rw [← he]
    apply h.exists_atBit
    rw [BitVec.toNat_ofNat, Nat.mod_eq_of_lt (by omega)]
    exact hn

theorem Bijection.finite_entities (h : Bijection p) : {e | p.entityExists e = true}.Finite := by
  rw [h.entities]
  exact Finset.finite_toSet _

theorem Bijection.ncard_entities (h : Bijection p) :
    {e | p.entityExists e = true}.ncard = p.entityCount.toNat := by
  rw [h.entities, Set.ncard_coe_finset]
  rw [Finset.card_image_of_injOn, Finset.card_range]
  intro n hn m hm heq
  simp only [Finset.coe_range, Set.mem_Iio] at hn hm
  have hlt := toNat_lt p.entityCount
  have hsmall : ∀ k, k < p.entityCount.toNat → (BitVec.ofNat 8 k).toNat = k := by
    intro k hk
    rw [BitVec.toNat_ofNat, Nat.mod_eq_of_lt (by omega)]
  have hbits := congrArg p.entityBit heq
  rw [h.bit_atBit _ (by rw [hsmall n hn]; exact hn),
    h.bit_atBit _ (by rw [hsmall m hm]; exact hm)] at hbits
  rw [← hsmall n hn, ← hsmall m hm, hbits]

theorem Bijection.finite_usable (h : Bijection p) : (usable p).Finite :=
  h.finite_entities.subset fun _ he => he.1

theorem Bijection.ne_zero (h : Bijection p) (he : p.entityExists e = true) : e ≠ 0 := by
  intro hzero
  rw [hzero, h.zero] at he
  exact Bool.false_ne_true he

-- Every veto entity has a key.
def VetoUsable (p : Policy) : Prop :=
  ∀ e, p.entityExists e = true → VetoBit p e → (keysOf p e).Nonempty

/-- The veto entities take care of themselves: the policy can be met exactly when there are as many
usable entities as the threshold asks for. -/
theorem neverLocked_iff (h : Bijection p) (hv : VetoUsable p) :
    NeverLocked p ↔ p.threshold.toNat ≤ (usable p).ncard := by
  apply Iff.intro
  · rintro ⟨entities, hcard, husable, _⟩
    have hle : entities.card ≤ (usable p).ncard := by
      rw [← Set.ncard_coe_finset]
      exact Set.ncard_le_ncard husable h.finite_usable
    omega
  · intro hle
    refine ⟨h.finite_usable.toFinset, ?_, fun e he => h.finite_usable.mem_toFinset.mp he, ?_⟩
    · rw [← Set.ncard_eq_toFinset_card _ h.finite_usable]
      exact hle
    · intro hveto
      have hbits : (bits p.vetoBitmap).Nonempty := by
        rw [Finset.nonempty_iff_ne_empty, ne_eq, bits_eq_empty]
        exact hveto
      rcases hbits with ⟨n, hn⟩
      have hlt := h.veto_lt n hn
      have hsmall : (BitVec.ofNat 8 n).toNat = n := by
        have hmax := toNat_lt p.entityCount
        rw [BitVec.toNat_ofNat, Nat.mod_eq_of_lt (by omega)]
      have hbit := h.bit_atBit (BitVec.ofNat 8 n) (by rw [hsmall]; exact hlt)
      have hexists := h.exists_atBit (BitVec.ofNat 8 n) (by rw [hsmall]; exact hlt)
      have hvetoBit : VetoBit p (p.entityAtBit (BitVec.ofNat 8 n)) := by
        unfold VetoBit
        rw [hbit, hsmall]
        exact hn
      refine ⟨_, h.finite_usable.mem_toFinset.mpr ⟨hexists, hv _ hexists hvetoBit⟩, hvetoBit⟩

def Quorum (p : Policy) : Prop := p.threshold.toNat ≤ (usable p).ncard

/-! ## What the changes do to the usable entities -/

-- No usable entity is lost and no veto is new.
structure Grows (p p' : Policy) : Prop where
  usable : usable p ⊆ usable p'
  veto : ∀ e, p'.entityExists e = true → VetoBit p' e → p.entityExists e = true ∧ VetoBit p e

theorem Grows.refl (p : Policy) : Grows p p := ⟨subset_rfl, fun _ he hveto => ⟨he, hveto⟩⟩

theorem Grows.trans {q : Policy} (h : Grows p q) (h' : Grows q p') : Grows p p' := by
  refine ⟨h.usable.trans h'.usable, fun e he hveto => ?_⟩
  rcases h'.veto e he hveto with ⟨he, hveto⟩
  exact h.veto e he hveto

theorem Grows.vetoUsable (h : Grows p p') (hv : VetoUsable p) : VetoUsable p' := by
  intro e he hveto
  rcases h.veto e he hveto with ⟨hold, hveto⟩
  exact (h.usable ⟨hold, hv e hold hveto⟩).2

theorem Grows.quorum (h : Grows p p') (hb : Bijection p') (hthreshold : p'.threshold = p.threshold)
    (hq : Quorum p) : Quorum p' := by
  have hle := Set.ncard_le_ncard h.usable hb.finite_usable
  unfold Quorum at *
  rw [hthreshold]
  omega

theorem grows_registered (h : Bijection p) : Grows p (registered p e) := by
  constructor
  · rintro x ⟨hx, hkeys⟩
    refine ⟨?_, hkeys⟩
    show update p.entityExists e true x = true
    rw [update_apply]
    split
    · rfl
    · exact hx
  · intro x hx hveto
    change update p.entityExists e true x = true at hx
    change (update p.entityBit e p.entityCount x).toNat ∈ bits p.vetoBitmap at hveto
    by_cases hxe : x = e
    · -- The new bit is above every veto bit.
      rw [hxe, update_self] at hveto
      exact absurd (h.veto_lt _ hveto) (Nat.lt_irrefl _)
    · rw [update_of_ne hxe] at hx hveto
      exact ⟨hx, hveto⟩

theorem grows_keyAdded (h : Bijection p)
    (hfree : (p.keys (computeKeyId env key)).entityId = 0) : Grows p (keyAdded env p key) := by
  refine ⟨fun x hx => ⟨hx.1, ?_⟩, fun x hx hveto => ⟨hx, hveto⟩⟩
  rw [keysOf_keyAdded hfree (h.ne_zero hx.1)]
  split
  · exact Set.insert_nonempty ..
  · exact hx.2

-- The last key of an entity stays.
theorem grows_keyRemoved (h : Bijection p) (hk : KeysCounted p)
    (hcount : 1 < (p.entityKeyCount (p.keys keyId).entityId).toNat) :
    Grows p (keyRemoved p keyId) := by
  refine ⟨fun x hx => ⟨hx.1, ?_⟩, fun x hx hveto => ⟨hx, hveto⟩⟩
  have hne := h.ne_zero hx.1
  rcases hk x hne with ⟨hfinite, hcounted⟩
  rw [keysOf_keyRemoved hne]
  by_cases hkey : (p.keys keyId).entityId = x
  · have hmem : keyId ∈ keysOf p x := hkey
    rw [hkey, hcounted] at hcount
    apply (Set.ncard_pos hfinite.sdiff).mp
    rw [Set.ncard_sdiff_singleton_of_mem hmem]
    have hle := Nat.mod_le (keysOf p x).ncard 256
    omega
  · have hmem : keyId ∉ keysOf p x := hkey
    rw [Set.sdiff_singleton_eq_self hmem]
    exact hx.2

theorem usable_onlyVetoDiffers (h : OnlyVetoDiffers p p') : usable p' = usable p := by
  rcases h with ⟨_, _, rfl⟩
  rfl

theorem VetoUsable.vetoSet (hv : VetoUsable p) (h : Bijection p) {isVeto : Bool}
    (he : p.entityExists e = true) (hkeys : (keysOf p e).Nonempty)
    (hset : VetoSet p e isVeto p') : VetoUsable p' := by
  have hbits := hset.bits
  rcases hset.rest with ⟨vetoBitmap, vetoCount, rfl⟩
  intro x hx hveto
  change (p.entityBit x).toNat ∈ bits vetoBitmap at hveto
  rw [hbits] at hveto
  by_cases hxe : x = e
  · rw [hxe]
    exact hkeys
  · have hne : (p.entityBit x).toNat ≠ (p.entityBit e).toNat := by
      intro heq
      exact hxe (h.bit_inj hx he (BitVec.toNat_inj.mp heq))
    apply hv x hx
    split at hveto
    · exact (Finset.mem_insert.mp hveto).resolve_left hne
    · exact Finset.mem_of_mem_erase hveto

theorem keysOf_removeEntityKeys {keyIds : List Bytes32}
    (h : keyIds.foldlM (removeEntityKey e) p = .ok p') (hx : x ≠ 0) (hne : x ≠ e) :
    keysOf p' x = keysOf p x := by
  refine foldlM_invariant (I := fun q => keysOf q x = keysOf p x) ?_ rfl h
  intro q keyId q' _ hq hok
  rcases removeEntityKey_ok hok with ⟨hkey, hremove⟩
  rcases removeKeyInternal_eq_ok.mp hremove with ⟨-, rfl⟩
  have hmem : keyId ∉ keysOf q x := by
    intro hmem
    exact hne (hmem.symm.trans hkey)
  rw [keysOf_keyRemoved hx, Set.sdiff_singleton_eq_self hmem, hq]

/-- `removeEntity` takes the entity from the usable ones, and no other. -/
theorem removeEntity_usable {keyIds : List Bytes32} (h : Bijection p)
    (hok : removeEntity p e keyIds = .ok p') :
    usable p' = usable p \ {e} ∧ p'.threshold = p.threshold ∧
      (VetoUsable p → VetoUsable p') := by
  rcases removeEntity_ok hok with ⟨-, hexists, -, p₁, hkeys, -, hremove⟩
  have hsame := fun x hx hne => keysOf_removeEntityKeys (x := x) hkeys hx hne
  rcases onlyKeysDiffer_of_removeEntityKeys hkeys with ⟨keys, counts, rfl⟩
  have hr := removeEntityInternal_ok hremove
  have hbijection : Bijection { p with keys := keys, entityKeyCount := counts } :=
    h.frame p.advanced p.threshold counts keys
  have hkeysOf : ∀ x, x ≠ e → p.entityExists x = true → keysOf p' x = keysOf p x := by
    intro x hne hx
    rw [← hsame x (h.ne_zero hx) hne]
    unfold keysOf
    rw [hr.keys]
  refine ⟨?_, hr.threshold, ?_⟩
  · ext x
    apply Iff.intro
    · rintro ⟨hx, hlive⟩
      rcases hr.exists_iff.mp hx with ⟨hne, hold⟩
      exact ⟨⟨hold, hkeysOf x hne hold ▸ hlive⟩, hne⟩
    · rintro ⟨⟨hold, hlive⟩, hne⟩
      exact ⟨hr.exists_iff.mpr ⟨hne, hold⟩, (hkeysOf x hne hold).symm ▸ hlive⟩
  · intro hv x hx hveto
    rcases hr.exists_iff.mp hx with ⟨hne, hold⟩
    rw [hkeysOf x hne hold]
    exact hv x hold ((removal_vetoBit hbijection hexists hr hx).mp hveto)

-- The last check of `configureMultisig` makes every entity usable.
theorem usable_of_allCounted (h : Bijection p) (hk : KeysCounted p) (hall : AllCounted p) :
    usable p = {e | p.entityExists e = true} := by
  apply Set.Subset.antisymm (fun e he => he.1)
  intro e he
  have hcount := hall (p.entityBit e) (h.bit_lt e he)
  rw [h.atBit_bit e he] at hcount
  exact ⟨he, hk.nonempty (h.ne_zero he) hcount⟩

end OnchainInvoice.AdvancedWalletMixin
