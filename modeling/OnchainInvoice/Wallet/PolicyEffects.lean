import Mathlib.Data.Finset.Card
import OnchainInvoice.Wallet.AdvancedMixin

/-!
# What the policy operations do

Each internal change has a specification that says when it succeeds and what it leaves, with the
bitmaps read as sets of bits.  The external operations are then chains of these changes.
-/

namespace OnchainInvoice.AdvancedWalletMixin

open Evm AdvancedWalletTypes WalletEip712 Lib.Revert Lib.Bitmap Function

variable {env : Env} {p p' : Policy} {e keyId : Bytes32} {m : Uint8} {key : KeyRecord}

theorem toNat_lt (bit : Uint8) : bit.toNat < 256 := bit.isLt

/-! ## Internal changes -/

def registered (p : Policy) (e : Bytes32) : Policy :=
  { p with
    entityExists := update p.entityExists e true
    entityBit := update p.entityBit e p.entityCount
    entityAtBit := update p.entityAtBit p.entityCount e
    entityBitmap := p.entityBitmap ||| bitMask p.entityCount
    entityCount := p.entityCount + 1 }

theorem registerEntity_eq_ok : registerEntity p e = .ok p' ↔
    e ≠ 0 ∧ p.entityExists e = false ∧ p.entityCount.toNat < 255 ∧ p' = registered p e := by
  unfold registerEntity
  simp only [bind_eq_ok, revertIf_eq_ok, pure_eq_ok, exists_const, beq_eq_false_iff_ne,
    decide_eq_false_iff_not]
  have hmax : ¬MAX_ENTITIES ≤ p.entityCount ↔ p.entityCount.toNat < 255 := by
    rw [BitVec.not_le, BitVec.lt_def]
    rfl
  rw [hmax]
  apply Iff.intro
  · rintro ⟨hne, hnew, hroom, hp⟩
    exact ⟨hne, hnew, hroom, hp.symm⟩
  · rintro ⟨hne, hnew, hroom, hp⟩
    exact ⟨hne, hnew, hroom, hp.symm⟩

-- The arguments `_addKeyInternal` accepts.
def ValidKey (key : KeyRecord) : Prop :=
  (key.keyType = KEY_EOA ∧ key.eoa ≠ 0) ∨
    ((key.keyType = KEY_WEBAUTHN ∨ key.keyType = KEY_YUBIKEY) ∧ ¬(key.qx = 0 ∧ key.qy = 0))

def keyAdded (env : Env) (p : Policy) (key : KeyRecord) : Policy :=
  { p with
    keys := update p.keys (computeKeyId env key) key
    entityKeyCount := update p.entityKeyCount key.entityId (p.entityKeyCount key.entityId + 1) }

theorem keyType_cases (kind : Uint8) :
    ¬KEY_EOA < kind ↔ kind = KEY_WEBAUTHN ∨ kind = KEY_YUBIKEY ∨ kind = KEY_EOA := by
  have heq : ∀ k : Uint8, kind = k ↔ kind.toNat = k.toNat := fun k => BitVec.toNat_inj.symm
  rw [BitVec.lt_def, heq, heq, heq]
  show ¬2 < kind.toNat ↔ kind.toNat = 0 ∨ kind.toNat = 1 ∨ kind.toNat = 2
  omega

theorem addKeyInternal_eq_ok : addKeyInternal env p key = .ok p' ↔
    p.entityExists key.entityId = true ∧ ValidKey key ∧
      (p.keys (computeKeyId env key)).entityId = 0 ∧ p' = keyAdded env p key := by
  unfold addKeyInternal ValidKey
  by_cases heoa : key.keyType = KEY_EOA
  · have hwebauthn : KEY_EOA ≠ KEY_WEBAUTHN := by decide
    have hyubikey : KEY_EOA ≠ KEY_YUBIKEY := by decide
    simp only [heoa, if_true, bind_eq_ok, revertIf_eq_ok, pure_eq_ok, exists_const, keyType_cases,
      decide_eq_false_iff_not, Bool.not_eq_false', beq_eq_false_iff_ne, bne_eq_false_iff_eq,
      hwebauthn, hyubikey, or_true, or_false, false_and, true_and]
    apply Iff.intro
    · rintro ⟨hexists, hne, hfree, hp⟩
      exact ⟨hexists, hne, hfree, hp.symm⟩
    · rintro ⟨hexists, hne, hfree, hp⟩
      exact ⟨hexists, hne, hfree, hp.symm⟩
  · simp only [heoa, if_false, bind_eq_ok, revertIf_eq_ok, pure_eq_ok, exists_const, keyType_cases,
      decide_eq_false_iff_not, Bool.not_eq_false', bne_eq_false_iff_eq, Bool.and_eq_false_imp,
      beq_iff_eq, beq_eq_false_iff_ne, or_false, false_or, false_and, not_and]
    apply Iff.intro
    · rintro ⟨hexists, hkind, hkey, hfree, hp⟩
      exact ⟨hexists, ⟨hkind, hkey⟩, hfree, hp.symm⟩
    · rintro ⟨hexists, ⟨hkind, hkey⟩, hfree, hp⟩
      exact ⟨hexists, hkind, hkey, hfree, hp.symm⟩

def keyRemoved (p : Policy) (keyId : Bytes32) : Policy :=
  { p with
    keys := update p.keys keyId KeyRecord.zero
    entityKeyCount := update p.entityKeyCount (p.keys keyId).entityId
      (p.entityKeyCount (p.keys keyId).entityId - 1) }

theorem removeKeyInternal_eq_ok : removeKeyInternal p keyId = .ok p' ↔
    (p.keys keyId).entityId ≠ 0 ∧ p' = keyRemoved p keyId := by
  unfold removeKeyInternal
  simp only [bind_eq_ok, revertIf_eq_ok, pure_eq_ok, exists_const, beq_eq_false_iff_ne]
  apply Iff.intro
  · rintro ⟨hlive, hp⟩
    exact ⟨hlive, hp.symm⟩
  · rintro ⟨hlive, hp⟩
    exact ⟨hlive, hp.symm⟩

theorem setThresholdInternal_eq_ok : setThresholdInternal p m = .ok p' ↔
    (1 ≤ m.toNat ∧ m.toNat ≤ p.entityCount.toNat) ∧ p' = { p with threshold := m } := by
  have hzero : m = 0 ↔ m.toNat = 0 := by
    rw [← BitVec.toNat_inj]
    rfl
  unfold setThresholdInternal
  simp only [bind_eq_ok, revertIf_eq_ok, pure_eq_ok, exists_const, Bool.or_eq_false_iff,
    beq_eq_false_iff_ne, decide_eq_false_iff_not, BitVec.not_lt, BitVec.le_def, ne_eq, hzero]
  apply Iff.intro
  · rintro ⟨⟨hne, hle⟩, hp⟩
    exact ⟨⟨by omega, hle⟩, hp.symm⟩
  · rintro ⟨⟨hpos, hle⟩, hp⟩
    exact ⟨⟨by omega, hle⟩, hp.symm⟩

-- The entity's bit is set in the veto bitmap.
def VetoBit (p : Policy) (e : Bytes32) : Prop := (p.entityBit e).toNat ∈ bits p.vetoBitmap

instance : Decidable (VetoBit p e) := inferInstanceAs (Decidable (_ ∈ bits _))

theorem and_bitMask_ne_zero {x : Uint256} {bit : Uint8} :
    x &&& bitMask bit ≠ 0 ↔ bit.toNat ∈ bits x :=
  and_mask_ne_zero (toNat_lt bit)

-- What `_setVetoInternal` leaves: the veto set with the bit in or out, and its count.
structure VetoSet (p : Policy) (e : Bytes32) (isVeto : Bool) (p' : Policy) : Prop where
  rest : ∃ vetoBitmap vetoCount, p' = { p with vetoBitmap := vetoBitmap, vetoCount := vetoCount }
  bits : bits p'.vetoBitmap =
    if isVeto then insert (p.entityBit e).toNat (bits p.vetoBitmap)
    else (Lib.Bitmap.bits p.vetoBitmap).erase (p.entityBit e).toNat
  count : p'.vetoCount =
    if isVeto then if VetoBit p e then p.vetoCount else p.vetoCount + 1
    else if VetoBit p e then p.vetoCount - 1 else p.vetoCount

theorem setVetoInternal_ok {isVeto : Bool} (h : setVetoInternal p e isVeto = .ok p') :
    p.entityExists e = true ∧ p.entityKeyCount e ≠ 0 ∧ VetoSet p e isVeto p' := by
  unfold setVetoInternal at h
  simp only [bind_eq_ok, revertIf_eq_ok, exists_const, Bool.not_eq_false',
    beq_eq_false_iff_ne] at h
  rcases h with ⟨hexists, hkeys, h⟩
  refine ⟨hexists, hkeys, ?_⟩
  have hbit : (p.vetoBitmap &&& bitMask (p.entityBit e) != 0) = decide (VetoBit p e) := by
    rw [Bool.eq_iff_iff, bne_iff_ne, decide_eq_true_iff]
    exact and_bitMask_ne_zero
  rw [hbit] at h
  split at h
  · -- Nothing to change.
    rename_i hsame
    cases pure_eq_ok.mp h
    refine ⟨⟨_, _, rfl⟩, ?_, ?_⟩
    · by_cases hveto : VetoBit p e
      · rw [hsame, decide_eq_true hveto, if_pos rfl, Finset.insert_eq_self.mpr hveto]
      · rw [hsame, decide_eq_false hveto, if_neg Bool.false_ne_true,
          Finset.erase_eq_of_notMem hveto]
    · by_cases hveto : VetoBit p e <;> simp [hsame, hveto]
  · rename_i hdiff
    split at h
    · rename_i hset
      have hveto : ¬VetoBit p e := by
        intro hveto
        exact hdiff (by simp [hset, hveto])
      cases pure_eq_ok.mp h
      refine ⟨⟨_, _, rfl⟩, ?_, ?_⟩
      · rw [if_pos hset]
        exact bits_or_mask _ (toNat_lt _)
      · simp [hset, hveto]
    · rename_i hset
      have hveto : VetoBit p e := by
        by_contra hveto
        exact hdiff (by simp [hset, hveto])
      cases pure_eq_ok.mp h
      refine ⟨⟨_, _, rfl⟩, ?_, ?_⟩
      · rw [if_neg hset]
        exact bits_and_not_mask _ (toNat_lt _)
      · simp [hset, hveto]

-- What `_removeEntityInternal` leaves: the entity of the last bit has moved into the freed bit.
structure EntityRemoval (p : Policy) (e : Bytes32) (p' : Policy) : Prop where
  count_pos : 1 ≤ p.entityCount.toNat
  advanced : p'.advanced = p.advanced
  threshold : p'.threshold = p.threshold
  keys : p'.keys = p.keys
  keyCount : p'.entityKeyCount = update p.entityKeyCount e 0
  count : p'.entityCount = p.entityCount - 1
  exists_ : p'.entityExists = update p.entityExists e false
  bit : ∀ x, p'.entityBit x =
    if x = e then 0
    else if x = p.entityAtBit (p.entityCount - 1) ∧ p.entityBit e ≠ p.entityCount - 1 then
      p.entityBit e
    else p.entityBit x
  atBit : ∀ b, p'.entityAtBit b =
    if b = p.entityCount - 1 then 0
    else if b = p.entityBit e then p.entityAtBit (p.entityCount - 1)
    else p.entityAtBit b
  bitmap : bits p'.entityBitmap =
    if p.entityBit e = p.entityCount - 1 then (bits p.entityBitmap).erase (p.entityBit e).toNat
    else insert (p.entityBit e).toNat
      (((bits p.entityBitmap).erase (p.entityBit e).toNat).erase (p.entityCount - 1).toNat)
  veto : bits p'.vetoBitmap =
    if p.entityBit e ≠ p.entityCount - 1 ∧
        (p.entityCount - 1).toNat ∈ (bits p.vetoBitmap).erase (p.entityBit e).toNat then
      insert (p.entityBit e).toNat
        (((bits p.vetoBitmap).erase (p.entityBit e).toNat).erase (p.entityCount - 1).toNat)
    else (bits p.vetoBitmap).erase (p.entityBit e).toNat
  vetoCount : p'.vetoCount = if VetoBit p e then p.vetoCount - 1 else p.vetoCount

section Removal

variable {r l : Uint8}

-- Fields that neither half of the removal touches.
theorem clearBit_rest (p : Policy) (r : Uint8) : ∃ vetoBitmap vetoCount entityBitmap,
    clearBit p r =
      { p with vetoBitmap := vetoBitmap, vetoCount := vetoCount, entityBitmap := entityBitmap } := by
  unfold clearBit
  split
  · exact ⟨_, _, _, rfl⟩
  · exact ⟨p.vetoBitmap, p.vetoCount, _, rfl⟩

theorem bits_clearBit_entityBitmap :
    bits (clearBit p r).entityBitmap = (bits p.entityBitmap).erase r.toNat := by
  unfold clearBit
  split <;> exact bits_and_not_mask _ (toNat_lt _)

theorem bits_clearBit_vetoBitmap :
    bits (clearBit p r).vetoBitmap = (bits p.vetoBitmap).erase r.toNat := by
  unfold clearBit
  split
  · exact bits_and_not_mask _ (toNat_lt _)
  · rename_i hclear
    rw [and_bitMask_ne_zero] at hclear
    rw [Finset.erase_eq_of_notMem hclear]

theorem clearBit_vetoCount : (clearBit p r).vetoCount =
    if r.toNat ∈ bits p.vetoBitmap then p.vetoCount - 1 else p.vetoCount := by
  unfold clearBit
  by_cases hveto : r.toNat ∈ bits p.vetoBitmap
  · rw [if_pos hveto, if_pos (and_bitMask_ne_zero.mpr hveto)]
  · rw [if_neg hveto, if_neg (fun h => hveto (and_bitMask_ne_zero.mp h))]

theorem moveLastBit_rest (p : Policy) (r l : Uint8) :
    ∃ entityBit entityAtBit entityBitmap vetoBitmap, moveLastBit p r l =
      { p with
        entityBit := entityBit
        entityAtBit := entityAtBit
        entityBitmap := entityBitmap
        vetoBitmap := vetoBitmap } := by
  unfold moveLastBit
  split
  · exact ⟨_, _, _, _, rfl⟩
  · exact ⟨p.entityBit, _, p.entityBitmap, p.vetoBitmap, rfl⟩

theorem moveLastBit_entityBit (x : Bytes32) : (moveLastBit p r l).entityBit x =
    if x = p.entityAtBit l ∧ r ≠ l then r else p.entityBit x := by
  unfold moveLastBit
  by_cases hrl : r = l
  · simp [hrl]
  · simp [hrl, update_apply]

theorem moveLastBit_entityAtBit (b : Uint8) : (moveLastBit p r l).entityAtBit b =
    if b = l then 0 else if b = r then p.entityAtBit l else p.entityAtBit b := by
  unfold moveLastBit
  by_cases hrl : r = l
  · by_cases hb : b = l
    · simp [hrl, hb]
    · simp [hrl, hb]
  · simp [hrl, update_apply]

theorem bits_moveLastBit_entityBitmap : bits (moveLastBit p r l).entityBitmap =
    if r = l then bits p.entityBitmap
    else insert r.toNat ((bits p.entityBitmap).erase l.toNat) := by
  unfold moveLastBit
  by_cases hrl : r = l
  · simp [hrl]
  · simp only [hrl, ne_eq, not_false_eq_true, if_true, if_false]
    unfold bitMask
    rw [bits_or_mask _ (toNat_lt _), bits_and_not_mask _ (toNat_lt _)]

theorem bits_moveLastBit_vetoBitmap : bits (moveLastBit p r l).vetoBitmap =
    if r ≠ l ∧ l.toNat ∈ bits p.vetoBitmap then
      insert r.toNat ((bits p.vetoBitmap).erase l.toNat)
    else bits p.vetoBitmap := by
  unfold moveLastBit
  by_cases hrl : r = l
  · simp [hrl]
  · simp only [hrl, ne_eq, not_false_eq_true, if_true, true_and]
    by_cases hlast : l.toNat ∈ bits p.vetoBitmap
    · rw [if_pos hlast, if_pos (and_bitMask_ne_zero.mpr hlast)]
      unfold bitMask
      rw [bits_or_mask _ (toNat_lt _), bits_and_not_mask _ (toNat_lt _)]
    · rw [if_neg hlast, if_neg (fun h => hlast (and_bitMask_ne_zero.mp h))]

theorem moveLastBit_vetoCount : (moveLastBit p r l).vetoCount = p.vetoCount := by
  unfold moveLastBit
  split <;> rfl

end Removal

-- What a successful removal leaves.
theorem removeEntityInternal_ok (h : removeEntityInternal p e = .ok p') :
    EntityRemoval p e p' := by
  unfold removeEntityInternal at h
  simp only [bind_eq_ok, checkedSub_eq_ok, pure_eq_ok] at h
  rcases h with ⟨l, ⟨hcount, hl⟩, hp⟩
  subst hl
  rcases clearBit_rest p (p.entityBit e) with ⟨_, _, _, hclear⟩
  rcases moveLastBit_rest (clearBit p (p.entityBit e)) (p.entityBit e) (p.entityCount - 1) with
    ⟨_, _, _, _, hmove⟩
  have hAtBit : (clearBit p (p.entityBit e)).entityAtBit = p.entityAtBit := by rw [hclear]
  have hBit : (clearBit p (p.entityBit e)).entityBit = p.entityBit := by rw [hclear]
  subst hp
  constructor
  case count_pos => exact hcount
  case advanced => rw [hmove, hclear]
  case threshold => rw [hmove, hclear]
  case keys => rw [hmove, hclear]
  case keyCount => rw [hmove, hclear]
  case count => rw [hmove, hclear]
  case exists_ => rw [hmove, hclear]
  case bit =>
    intro x
    show update _ e 0 x = _
    rw [update_apply, moveLastBit_entityBit, hAtBit, hBit]
  case atBit =>
    intro b
    rw [moveLastBit_entityAtBit, hAtBit]
  case bitmap =>
    show bits (moveLastBit _ _ _).entityBitmap = _
    rw [bits_moveLastBit_entityBitmap, bits_clearBit_entityBitmap]
  case veto =>
    show bits (moveLastBit _ _ _).vetoBitmap = _
    rw [bits_moveLastBit_vetoBitmap, bits_clearBit_vetoBitmap]
  case vetoCount =>
    show (moveLastBit _ _ _).vetoCount = _
    rw [moveLastBit_vetoCount, clearBit_vetoCount]
    rfl

/-! ## Operations -/

-- Every existing entity has a non-zero key counter.
def AllCounted (p : Policy) : Prop :=
  ∀ b : Uint8, b.toNat < p.entityCount.toNat → p.entityKeyCount (p.entityAtBit b) ≠ 0

theorem assertEntitiesUsable_eq_ok {u : Unit} : assertEntitiesUsable p = .ok u ↔ AllCounted p := by
  unfold assertEntitiesUsable AllCounted
  simp only [revertIf_eq_ok, List.any_eq_false, List.mem_range, beq_iff_eq]
  apply Iff.intro
  · intro h b hb
    have hround : BitVec.ofNat 8 b.toNat = b := by simp
    have := h b.toNat hb
    rwa [hround] at this
  · intro h n hn
    apply h
    have hlt := toNat_lt p.entityCount
    rw [BitVec.toNat_ofNat, Nat.mod_eq_of_lt (by omega)]
    exact hn

theorem onlyAdvanced_eq_ok {u : Unit} : onlyAdvanced p = .ok u ↔ p.advanced = true := by
  simp [onlyAdvanced]

theorem enableAdvanced_ok {pending : Bool} {migrate : Policy → Except Error Policy}
    (h : enableAdvanced p pending migrate e = .ok p') :
    p.advanced = false ∧ pending = false ∧
      ∃ p₁, registerEntity { p with advanced := true, threshold := 1 } e = .ok p₁ ∧
        migrate p₁ = .ok p' := by
  unfold enableAdvanced at h
  simp only [bind_eq_ok, revertIf_eq_ok, exists_const] at h
  exact h

theorem addEntity_ok (h : addEntity p e = .ok p') :
    p.advanced = true ∧ registerEntity p e = .ok p' := by
  unfold addEntity at h
  simpa only [bind_eq_ok, onlyAdvanced_eq_ok, exists_const] using h

theorem removeEntity_ok {keyIds : List Bytes32} (h : removeEntity p e keyIds = .ok p') :
    p.advanced = true ∧ p.entityExists e = true ∧ p.threshold.toNat < p.entityCount.toNat ∧
      ∃ p₁, keyIds.foldlM (removeEntityKey e) p = .ok p₁ ∧ p₁.entityKeyCount e = 0 ∧
        removeEntityInternal p₁ e = .ok p' := by
  unfold removeEntity at h
  simp only [bind_eq_ok, onlyAdvanced_eq_ok, revertIf_eq_ok, exists_const, Bool.not_eq_false',
    decide_eq_false_iff_not, BitVec.not_le, BitVec.lt_def] at h
  rcases h with ⟨hadv, hexists, hlt, p₁, hkeys, hzero, hremove⟩
  refine ⟨hadv, hexists, hlt, p₁, hkeys, ?_, hremove⟩
  apply BitVec.eq_of_toNat_eq
  have hzero : ¬0 < (p₁.entityKeyCount e).toNat := hzero
  show (p₁.entityKeyCount e).toNat = 0
  omega

theorem addKey_ok (h : addKey env p key = .ok p') :
    p.advanced = true ∧ addKeyInternal env p key = .ok p' := by
  unfold addKey at h
  simp only [bind_eq_ok, onlyAdvanced_eq_ok, revertIf_eq_ok, exists_const] at h
  exact ⟨h.1, h.2.2⟩

theorem removeKey_ok (h : removeKey p keyId = .ok p') :
    p.advanced = true ∧ 1 < (p.entityKeyCount (p.keys keyId).entityId).toNat ∧
      removeKeyInternal p keyId = .ok p' := by
  unfold removeKey at h
  simp only [bind_eq_ok, onlyAdvanced_eq_ok, revertIf_eq_ok, exists_const, decide_eq_false_iff_not,
    BitVec.not_le, BitVec.lt_def] at h
  exact ⟨h.1, h.2.2.1, h.2.2.2⟩

theorem setThreshold_ok (h : setThreshold p m = .ok p') :
    p.advanced = true ∧ setThresholdInternal p m = .ok p' := by
  unfold setThreshold at h
  simpa only [bind_eq_ok, onlyAdvanced_eq_ok, exists_const] using h

theorem setVeto_ok {isVeto : Bool} (h : setVeto p e isVeto = .ok p') :
    p.advanced = true ∧ setVetoInternal p e isVeto = .ok p' := by
  unfold setVeto at h
  simpa only [bind_eq_ok, onlyAdvanced_eq_ok, exists_const] using h

-- The policy with the new threshold and no veto, from where the batch sets the requested vetoes.
def vetoReset (p : Policy) (m : Uint8) : Policy :=
  { p with threshold := m, vetoBitmap := 0, vetoCount := 0 }

theorem configureMultisig_ok {config : MultisigConfig}
    (h : configureMultisig env p config = .ok p') :
    p.advanced = true ∧ ∃ p₁ p₂ p₃,
      config.removeKeyIds.foldlM removeKeyInternal p = .ok p₁ ∧
      config.entityIds.foldlM registerMissing p₁ = .ok p₂ ∧
      config.newKeys.foldlM (addKeyInternal env) p₂ = .ok p₃ ∧
      (1 ≤ config.threshold.toNat ∧ config.threshold.toNat ≤ p₃.entityCount.toNat) ∧
      config.vetoEntityIds.foldlM (fun p entityId => setVetoInternal p entityId true)
        (vetoReset p₃ config.threshold) = .ok p' ∧
      AllCounted p' := by
  unfold configureMultisig at h
  simp only [bind_eq_ok, onlyAdvanced_eq_ok, exists_const, assertEntitiesUsable_eq_ok,
    setThresholdInternal_eq_ok, pure_eq_ok] at h
  rcases h with ⟨hadv, p₁, h₁, p₂, h₂, -, -, p₃, h₃, p₄, ⟨hbound, rfl⟩, p₅, h₅, hcounted, rfl⟩
  exact ⟨hadv, p₁, p₂, p₃, h₁, h₂, h₃, hbound, h₅, hcounted⟩

/-! ## Predicates that every change keeps -/

/-- A predicate on policies that each internal change keeps. -/
structure Stable (env : Env) (I : Policy → Prop) : Prop where
  enable : ∀ p, I p → I { p with advanced := true, threshold := 1 }
  register : ∀ p e, I p → e ≠ 0 → p.entityExists e = false → p.entityCount.toNat < 255 →
    I (registered p e)
  removal : ∀ p e p', I p → p.entityExists e = true → p.entityKeyCount e = 0 →
    EntityRemoval p e p' → I p'
  addKey : ∀ p key, I p → p.entityExists key.entityId = true → ValidKey key →
    (p.keys (computeKeyId env key)).entityId = 0 → I (keyAdded env p key)
  removeKey : ∀ p keyId, I p → (p.keys keyId).entityId ≠ 0 → I (keyRemoved p keyId)
  threshold : ∀ p m, I p → I { p with threshold := m }
  veto : ∀ p e isVeto p', I p → p.entityExists e = true → p.entityKeyCount e ≠ 0 →
    VetoSet p e isVeto p' → I p'
  reset : ∀ p m, I p → I (vetoReset p m)

namespace Stable

variable {I : Policy → Prop} (hI : Stable env I) (h : I p)

include hI h

theorem registerEntity (hok : registerEntity p e = .ok p') : I p' := by
  rcases registerEntity_eq_ok.mp hok with ⟨hne, hnew, hroom, rfl⟩
  exact hI.register p e h hne hnew hroom

theorem addKeyInternal (hok : addKeyInternal env p key = .ok p') : I p' := by
  rcases addKeyInternal_eq_ok.mp hok with ⟨hexists, hvalid, hfree, rfl⟩
  exact hI.addKey p key h hexists hvalid hfree

theorem removeKeyInternal (hok : removeKeyInternal p keyId = .ok p') : I p' := by
  rcases removeKeyInternal_eq_ok.mp hok with ⟨hlive, rfl⟩
  exact hI.removeKey p keyId h hlive

theorem setVetoInternal {isVeto : Bool} (hok : setVetoInternal p e isVeto = .ok p') : I p' := by
  rcases setVetoInternal_ok hok with ⟨hexists, hkeys, hset⟩
  exact hI.veto p e isVeto p' h hexists hkeys hset

end Stable

theorem removeEntityKey_ok (h : removeEntityKey e p keyId = .ok p') :
    (p.keys keyId).entityId = e ∧ removeKeyInternal p keyId = .ok p' := by
  unfold removeEntityKey at h
  simpa only [bind_eq_ok, revertIf_eq_ok, exists_const, bne_eq_false_iff_eq] using h

theorem registerMissing_ok (h : registerMissing p e = .ok p') :
    p' = p ∨ registerEntity p e = .ok p' := by
  unfold registerMissing at h
  split at h
  · exact .inr h
  · cases h
    exact .inl rfl

/-! ## Loops over keys and vetoes -/

-- The two policies differ in their keys and key counters at most.
def OnlyKeysDiffer (p p' : Policy) : Prop :=
  ∃ keys entityKeyCount, p' = { p with keys := keys, entityKeyCount := entityKeyCount }

theorem OnlyKeysDiffer.refl (p : Policy) : OnlyKeysDiffer p p := ⟨_, _, rfl⟩

theorem OnlyKeysDiffer.addKeyInternal {q q' : Policy} (h : OnlyKeysDiffer p q)
    (hok : addKeyInternal env q key = .ok q') : OnlyKeysDiffer p q' := by
  rcases h with ⟨keys, entityKeyCount, rfl⟩
  rcases addKeyInternal_eq_ok.mp hok with ⟨-, -, -, rfl⟩
  exact ⟨_, _, rfl⟩

theorem OnlyKeysDiffer.removeKeyInternal {q q' : Policy} (h : OnlyKeysDiffer p q)
    (hok : removeKeyInternal q keyId = .ok q') : OnlyKeysDiffer p q' := by
  rcases h with ⟨keys, entityKeyCount, rfl⟩
  rcases removeKeyInternal_eq_ok.mp hok with ⟨-, rfl⟩
  exact ⟨_, _, rfl⟩

theorem onlyKeysDiffer_of_removeEntityKeys {keyIds : List Bytes32}
    (h : keyIds.foldlM (removeEntityKey e) p = .ok p') : OnlyKeysDiffer p p' :=
  foldlM_invariant (I := OnlyKeysDiffer p)
    (fun _ _ _ _ hq hok => hq.removeKeyInternal (removeEntityKey_ok hok).2) (.refl p) h

-- The two policies differ in their vetoes at most.
def OnlyVetoDiffers (p p' : Policy) : Prop :=
  ∃ vetoBitmap vetoCount, p' = { p with vetoBitmap := vetoBitmap, vetoCount := vetoCount }

theorem onlyVetoDiffers_of_setVetoes {entityIds : List Bytes32}
    (h : entityIds.foldlM (fun p entityId => setVetoInternal p entityId true) p = .ok p') :
    OnlyVetoDiffers p p' := by
  refine foldlM_invariant (I := OnlyVetoDiffers p) ?_ ⟨_, _, rfl⟩ h
  rintro q entityId q' _ ⟨vetoBitmap, vetoCount, hq⟩ hok
  rcases (setVetoInternal_ok hok).2.2.rest with ⟨vetoBitmap', vetoCount', rfl⟩
  subst hq
  exact ⟨_, _, rfl⟩

end OnchainInvoice.AdvancedWalletMixin
