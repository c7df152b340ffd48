import OnchainInvoice.Wallet.Effects

/-!
# Entities and their bits

The entities of a policy and the bits below `entityCount` are in bijection, the veto bits are bits
of entities, and every change keeps it so.
-/

namespace OnchainInvoice.AdvancedWalletMixin

open Evm AdvancedWalletTypes WalletEip712 Lib.Bitmap Function

variable {env : Env} {p p' : Policy} {e : Bytes32}

structure Bijection (p : Policy) : Prop where
  bitmap : bits p.entityBitmap = Finset.range p.entityCount.toNat
  bit_lt : ∀ e, p.entityExists e = true → (p.entityBit e).toNat < p.entityCount.toNat
  atBit_bit : ∀ e, p.entityExists e = true → p.entityAtBit (p.entityBit e) = e
  exists_atBit : ∀ b : Uint8, b.toNat < p.entityCount.toNat → p.entityExists (p.entityAtBit b) = true
  bit_atBit : ∀ b : Uint8, b.toNat < p.entityCount.toNat → p.entityBit (p.entityAtBit b) = b
  veto_lt : ∀ n ∈ bits p.vetoBitmap, n < p.entityCount.toNat
  vetoCount : p.vetoCount.toNat = (bits p.vetoBitmap).card
  zero : p.entityExists 0 = false

theorem Bijection.unused : Bijection Policy.unused where
  bitmap := bits_zero
  bit_lt _ h := absurd h Bool.false_ne_true
  atBit_bit _ h := absurd h Bool.false_ne_true
  exists_atBit _ h := absurd h (Nat.not_lt_zero _)
  bit_atBit _ h := absurd h (Nat.not_lt_zero _)
  veto_lt n h := by
    have hempty : bits Policy.unused.vetoBitmap = ∅ := bits_zero
    rw [hempty] at h
    exact absurd h (Finset.notMem_empty n)
  vetoCount := by
    have hempty : bits Policy.unused.vetoBitmap = ∅ := bits_zero
    rw [hempty]
    rfl
  zero := rfl

-- Entities with the same bit are the same.
theorem Bijection.bit_inj (h : Bijection p) {x y : Bytes32} (hx : p.entityExists x = true)
    (hy : p.entityExists y = true) (hbit : p.entityBit x = p.entityBit y) : x = y := by
  rw [← h.atBit_bit x hx, ← h.atBit_bit y hy, hbit]

-- There are fewer than 256 veto entities, so their count does not wrap.
theorem Bijection.card_veto_lt (h : Bijection p) : (bits p.vetoBitmap).card < 256 := by
  have hsubset : bits p.vetoBitmap ⊆ Finset.range p.entityCount.toNat := by
    intro n hn
    exact Finset.mem_range.mpr (h.veto_lt n hn)
  have hcard := Finset.card_le_card hsubset
  rw [Finset.card_range] at hcard
  have hlt := toNat_lt p.entityCount
  omega

theorem toNat_add_one {b : Uint8} (h : b.toNat < 255) : (b + 1).toNat = b.toNat + 1 := by
  rw [BitVec.toNat_add]
  show (b.toNat + 1) % 256 = _
  omega

theorem toNat_sub_one {b : Uint8} (h : 1 ≤ b.toNat) : (b - 1).toNat = b.toNat - 1 :=
  BitVec.toNat_sub_of_le (BitVec.le_def.mpr h)

/-! ## The changes keep the bijection -/

theorem Bijection.registered (h : Bijection p) (hne : e ≠ 0) (hnew : p.entityExists e = false)
    (hroom : p.entityCount.toNat < 255) : Bijection (registered p e) := by
  have hcount : (AdvancedWalletMixin.registered p e).entityCount.toNat = p.entityCount.toNat + 1 :=
    toNat_add_one hroom
  have hold : ∀ x, (AdvancedWalletMixin.registered p e).entityExists x = true →
      x ≠ e → p.entityExists x = true := by
    intro x hx hxe
    simpa [AdvancedWalletMixin.registered, update_of_ne hxe] using hx
  -- A bit below the new count is a bit below the old one or the new bit.
  have hcases : ∀ b : Uint8, b.toNat < p.entityCount.toNat + 1 →
      b = p.entityCount ∨ b ≠ p.entityCount ∧ b.toNat < p.entityCount.toNat := by
    intro b hb
    by_cases heq : b = p.entityCount
    · exact .inl heq
    · have hne : b.toNat ≠ p.entityCount.toNat := fun h => heq (BitVec.toNat_inj.mp h)
      exact .inr ⟨heq, by omega⟩
  have hneAt : ∀ b : Uint8, b.toNat < p.entityCount.toNat → p.entityAtBit b ≠ e := by
    intro b hb heq
    have hexists := h.exists_atBit b hb
    rw [heq, hnew] at hexists
    exact Bool.false_ne_true hexists
  constructor
  case bitmap =>
    rw [hcount, Finset.range_add_one, ← h.bitmap]
    exact bits_or_mask _ (toNat_lt _)
  case bit_lt =>
    intro x hx
    rw [hcount]
    by_cases hxe : x = e
    · simp [AdvancedWalletMixin.registered, hxe]
    · have hlt := h.bit_lt x (hold x hx hxe)
      simp only [AdvancedWalletMixin.registered, update_of_ne hxe]
      omega
  case atBit_bit =>
    intro x hx
    by_cases hxe : x = e
    · simp [AdvancedWalletMixin.registered, hxe]
    · have hlt := h.bit_lt x (hold x hx hxe)
      have hbit : p.entityBit x ≠ p.entityCount := by
        intro heq
        rw [heq] at hlt
        omega
      simp only [AdvancedWalletMixin.registered, update_of_ne hxe, update_of_ne hbit]
      exact h.atBit_bit x (hold x hx hxe)
  case exists_atBit =>
    intro b hb
    rcases hcases b (hcount ▸ hb) with rfl | ⟨hbne, hlt⟩
    · simp [AdvancedWalletMixin.registered]
    · simp only [AdvancedWalletMixin.registered, update_of_ne hbne, update_of_ne (hneAt b hlt)]
      exact h.exists_atBit b hlt
  case bit_atBit =>
    intro b hb
    rcases hcases b (hcount ▸ hb) with rfl | ⟨hbne, hlt⟩
    · simp [AdvancedWalletMixin.registered]
    · simp only [AdvancedWalletMixin.registered, update_of_ne hbne, update_of_ne (hneAt b hlt)]
      exact h.bit_atBit b hlt
  case veto_lt =>
    intro n hn
    rw [hcount]
    have hlt := h.veto_lt n hn
    omega
  case vetoCount => exact h.vetoCount
  case zero =>
    show update p.entityExists e true 0 = false
    rw [update_of_ne hne.symm]
    exact h.zero

theorem EntityRemoval.toNat_count (hr : EntityRemoval p e p') :
    p'.entityCount.toNat = p.entityCount.toNat - 1 := by
  rw [hr.count, toNat_sub_one hr.count_pos]

theorem EntityRemoval.exists_iff (hr : EntityRemoval p e p') {x : Bytes32} :
    p'.entityExists x = true ↔ x ≠ e ∧ p.entityExists x = true := by
  rw [hr.exists_]
  by_cases hx : x = e
  · simp [hx]
  · simp [hx]

-- A surviving entity on the last bit is the one that moves.
theorem Bijection.last_moves (h : Bijection p) (he : p.entityExists e = true) {x : Bytes32}
    (hx : x ≠ e) (hxe : p.entityExists x = true) (hbit : p.entityBit x = p.entityCount - 1) :
    x = p.entityAtBit (p.entityCount - 1) ∧ p.entityBit e ≠ p.entityCount - 1 := by
  refine ⟨by rw [← hbit, h.atBit_bit x hxe], ?_⟩
  intro heq
  exact hx (h.bit_inj hxe he (hbit.trans heq.symm))

section Removal

variable (h : Bijection p) (he : p.entityExists e = true) (hr : EntityRemoval p e p')

include h he hr

-- The two ways a surviving entity has its bit.
theorem removal_bit {x : Bytes32} (hx : x ≠ e) (hxe : p.entityExists x = true) :
    (p.entityBit x = p.entityCount - 1 ∧ p.entityBit e ≠ p.entityCount - 1 ∧
        p'.entityBit x = p.entityBit e) ∨
      (p.entityBit x ≠ p.entityCount - 1 ∧ p'.entityBit x = p.entityBit x) := by
  by_cases hlast : p.entityBit x = p.entityCount - 1
  · have hmoved := h.last_moves he hx hxe hlast
    refine .inl ⟨hlast, hmoved.2, ?_⟩
    rw [hr.bit, if_neg hx, if_pos hmoved]
  · refine .inr ⟨hlast, ?_⟩
    rw [hr.bit, if_neg hx, if_neg]
    intro hmoved
    have hlt : (p.entityCount - 1).toNat < p.entityCount.toNat := by
      rw [toNat_sub_one hr.count_pos]
      have hpos := hr.count_pos
      omega
    exact hlast (by rw [hmoved.1, h.bit_atBit _ hlt])

theorem removal_veto_lt {n : Nat} (hn : n ∈ bits p'.vetoBitmap) : n < p'.entityCount.toNat := by
  have hcount := hr.toNat_count
  have hlast : (p.entityCount - 1).toNat = p.entityCount.toNat - 1 := toNat_sub_one hr.count_pos
  have hr_lt := h.bit_lt e he
  rw [hr.veto] at hn
  rw [hcount]
  split at hn
  · rename_i hmoved
    have hne := BitVec.toNat_ne.mp hmoved.1
    simp only [Finset.mem_insert, Finset.mem_erase] at hn
    rcases hn with hn | ⟨hnl, -, hnv⟩
    · omega
    · have hold := h.veto_lt n hnv
      omega
  · rename_i hstay
    rw [Finset.mem_erase] at hn
    have hold := h.veto_lt n hn.2
    by_contra hlarge
    have hnl : n = (p.entityCount - 1).toNat := by omega
    apply hstay
    refine ⟨fun heq => hn.1 (hnl.trans (heq ▸ rfl)), ?_⟩
    rw [← hnl]
    exact Finset.mem_erase.mpr hn

omit h he in
/-- A veto bit that moves is counted once. -/
theorem card_removal_veto : (bits p'.vetoBitmap).card =
    ((bits p.vetoBitmap).erase (p.entityBit e).toNat).card := by
  rw [hr.veto]
  split
  · rename_i hmoved
    have hfresh : (p.entityBit e).toNat ∉ ((bits p.vetoBitmap).erase
        (p.entityBit e).toNat).erase (p.entityCount - 1).toNat := by
      simp
    have hpos := Finset.card_pos.mpr ⟨_, hmoved.2⟩
    rw [Finset.card_insert_of_notMem hfresh, Finset.card_erase_of_mem hmoved.2]
    omega
  · rfl

omit he in
theorem removal_vetoCount : p'.vetoCount.toNat = (bits p'.vetoBitmap).card := by
  rw [card_removal_veto hr, hr.vetoCount]
  split
  · rename_i hveto
    have hpos : 1 ≤ p.vetoCount.toNat := by
      rw [h.vetoCount]
      exact Finset.card_pos.mpr ⟨_, hveto⟩
    rw [Finset.card_erase_of_mem hveto, toNat_sub_one hpos, h.vetoCount]
  · rename_i hveto
    rw [Finset.erase_eq_of_notMem hveto, h.vetoCount]

theorem Bijection.removal : Bijection p' := by
  have hcount := hr.toNat_count
  have hpos := hr.count_pos
  have hlast : (p.entityCount - 1).toNat = p.entityCount.toNat - 1 := toNat_sub_one hpos
  have hlt : (p.entityCount - 1).toNat < p.entityCount.toNat := by omega
  have hr_lt := h.bit_lt e he
  constructor
  case bitmap =>
    rw [hr.bitmap, hcount, h.bitmap]
    split
    · rename_i heq
      rw [heq, hlast]
      ext n
      simp only [Finset.mem_erase, Finset.mem_range]
      omega
    · rename_i hne
      have hne := BitVec.toNat_ne.mp hne
      ext n
      simp only [Finset.mem_insert, Finset.mem_erase, Finset.mem_range]
      omega
  case bit_lt =>
    intro x hx
    rcases hr.exists_iff.mp hx with ⟨hxe, hxold⟩
    have hold := h.bit_lt x hxold
    rw [hcount]
    rcases removal_bit h he hr hxe hxold with ⟨_, hmoved, hbit⟩ | ⟨hstay, hbit⟩
    · have hne := BitVec.toNat_ne.mp hmoved
      rw [hbit]
      omega
    · have hne := BitVec.toNat_ne.mp hstay
      rw [hbit]
      omega
  case atBit_bit =>
    intro x hx
    rcases hr.exists_iff.mp hx with ⟨hxe, hxold⟩
    rcases removal_bit h he hr hxe hxold with ⟨hxlast, hmoved, hbit⟩ | ⟨hstay, hbit⟩
    · rw [hbit, hr.atBit, if_neg hmoved, if_pos rfl, ← hxlast, h.atBit_bit x hxold]
    · have hfree : p.entityBit x ≠ p.entityBit e := fun heq => hxe (h.bit_inj hxold he heq)
      rw [hbit, hr.atBit, if_neg hstay, if_neg hfree, h.atBit_bit x hxold]
  case exists_atBit =>
    intro b hb
    have hb_ne : b ≠ p.entityCount - 1 := by
      intro heq
      rw [heq] at hb
      omega
    rw [hr.atBit, if_neg hb_ne, hr.exists_iff]
    split
    · rename_i hbr
      refine ⟨?_, h.exists_atBit _ hlt⟩
      intro heq
      have hbit := h.bit_atBit _ hlt
      rw [heq] at hbit
      exact hb_ne (hbr.trans hbit)
    · rename_i hbr
      have hb_lt : b.toNat < p.entityCount.toNat := by omega
      refine ⟨?_, h.exists_atBit b hb_lt⟩
      intro heq
      have hbit := h.bit_atBit b hb_lt
      rw [heq] at hbit
      exact hbr hbit.symm
  case bit_atBit =>
    intro b hb
    have hb_ne : b ≠ p.entityCount - 1 := by
      intro heq
      rw [heq] at hb
      omega
    rw [hr.atBit, if_neg hb_ne]
    split
    · rename_i hbr
      have hmoved : p.entityBit e ≠ p.entityCount - 1 := hbr ▸ hb_ne
      have hne : p.entityAtBit (p.entityCount - 1) ≠ e := by
        intro heq
        have hbit := h.bit_atBit _ hlt
        rw [heq] at hbit
        exact hmoved hbit
      rw [hr.bit, if_neg hne, if_pos ⟨rfl, hmoved⟩, hbr]
    · rename_i hbr
      have hb_lt : b.toNat < p.entityCount.toNat := by omega
      have hbit := h.bit_atBit b hb_lt
      have hne : p.entityAtBit b ≠ e := by
        intro heq
        rw [heq] at hbit
        exact hbr hbit.symm
      have hstay : ¬(p.entityAtBit b = p.entityAtBit (p.entityCount - 1) ∧
          p.entityBit e ≠ p.entityCount - 1) := by
        intro hmoved
        rw [hmoved.1, h.bit_atBit _ hlt] at hbit
        exact hb_ne hbit.symm
      rw [hr.bit, if_neg hne, if_neg hstay, hbit]
  case veto_lt => exact fun n hn => removal_veto_lt h he hr hn
  case vetoCount => exact removal_vetoCount h hr
  case zero =>
    have hnot : ¬p'.entityExists 0 = true := by
      rw [hr.exists_iff, h.zero]
      simp
    exact Bool.eq_false_iff.mpr hnot

/-- The veto entities among the survivors are the ones from before. -/
theorem removal_vetoBit {x : Bytes32} (hx : p'.entityExists x = true) :
    VetoBit p' x ↔ VetoBit p x := by
  rcases hr.exists_iff.mp hx with ⟨hxe, hxold⟩
  have hfree : p.entityBit x ≠ p.entityBit e := fun heq => hxe (h.bit_inj hxold he heq)
  unfold VetoBit
  rw [hr.veto]
  rcases removal_bit h he hr hxe hxold with ⟨hxlast, hmoved, hbit⟩ | ⟨hstay, hbit⟩
  · rw [hbit, hxlast]
    have hne := BitVec.toNat_ne.mp hmoved
    split
    · rename_i hveto
      simpa using (Finset.mem_erase.mp hveto.2).2
    · rename_i hveto
      have hout : (p.entityCount - 1).toNat ∉ bits p.vetoBitmap := by
        intro hin
        exact hveto ⟨hmoved, Finset.mem_erase.mpr ⟨hne.symm, hin⟩⟩
      simp only [Finset.mem_erase, ne_eq, not_true_eq_false, false_and, false_iff]
      exact hout
  · rw [hbit]
    have hne := BitVec.toNat_ne.mp hfree
    have hnl := BitVec.toNat_ne.mp hstay
    split
    · simp only [Finset.mem_insert, Finset.mem_erase, hne, hnl, ne_eq, not_false_eq_true, true_and,
        false_or]
    · simp only [Finset.mem_erase, hne, ne_eq, not_false_eq_true, true_and]

end Removal

theorem Bijection.vetoSet (h : Bijection p) (he : p.entityExists e = true) {isVeto : Bool}
    (hset : VetoSet p e isVeto p') : Bijection p' := by
  rcases hset.rest with ⟨vetoBitmap, vetoCount, rfl⟩
  have hbits := hset.bits
  have hcount := hset.count
  have hsmall := h.card_veto_lt
  have hlt := h.bit_lt e he
  have hveto_lt : ∀ n ∈ bits vetoBitmap, n < p.entityCount.toNat := by
    intro n hn
    rw [hbits] at hn
    split at hn
    · rcases Finset.mem_insert.mp hn with rfl | hn
      · exact hlt
      · exact h.veto_lt n hn
    · exact h.veto_lt n (Finset.mem_of_mem_erase hn)
  refine ⟨h.bitmap, h.bit_lt, h.atBit_bit, h.exists_atBit, h.bit_atBit, hveto_lt, ?_, h.zero⟩
  change _ = (bits vetoBitmap).card
  rw [hbits, hcount]
  unfold VetoBit
  by_cases hveto : (p.entityBit e).toNat ∈ bits p.vetoBitmap
  · have hpos : 1 ≤ p.vetoCount.toNat := by
      rw [h.vetoCount]
      exact Finset.card_pos.mpr ⟨_, hveto⟩
    cases isVeto with
    | true =>
      simp only [hveto, if_true]
      rw [Finset.insert_eq_self.mpr hveto, h.vetoCount]
    | false =>
      simp only [hveto, if_true, Bool.false_eq_true, if_false]
      rw [Finset.card_erase_of_mem hveto, toNat_sub_one hpos, h.vetoCount]
  · cases isVeto with
    | true =>
      -- The new bit is below the count as well, so there is room for one more in a `uint8`.
      have hroom : p.vetoCount.toNat < 255 := by
        have hsubset : insert (p.entityBit e).toNat (bits p.vetoBitmap) ⊆
            Finset.range p.entityCount.toNat := by
          intro n hn
          rcases Finset.mem_insert.mp hn with rfl | hn
          · exact Finset.mem_range.mpr hlt
          · exact Finset.mem_range.mpr (h.veto_lt n hn)
        have hcard := Finset.card_le_card hsubset
        rw [Finset.card_insert_of_notMem hveto, Finset.card_range] at hcard
        have hmax := toNat_lt p.entityCount
        rw [h.vetoCount]
        omega
      simp only [hveto, if_true, if_false]
      rw [Finset.card_insert_of_notMem hveto, toNat_add_one hroom, h.vetoCount]
    | false =>
      simp only [hveto, Bool.false_eq_true, if_false]
      rw [Finset.erase_eq_of_notMem hveto, h.vetoCount]

theorem Bijection.vetoReset (h : Bijection p) (m : Uint8) : Bijection (vetoReset p m) := by
  have hempty : bits (AdvancedWalletMixin.vetoReset p m).vetoBitmap = ∅ := bits_zero
  refine ⟨h.bitmap, h.bit_lt, h.atBit_bit, h.exists_atBit, h.bit_atBit, ?_, ?_, h.zero⟩
  · rw [hempty]
    exact fun n hn => absurd hn (Finset.notMem_empty n)
  · rw [hempty]
    rfl

-- Changes that touch neither the entities nor the vetoes.
theorem Bijection.frame (h : Bijection p) (advanced : Bool) (threshold : Uint8)
    (entityKeyCount : Bytes32 → Uint8) (keys : Bytes32 → KeyRecord) :
    Bijection { p with
      advanced := advanced, threshold := threshold, entityKeyCount := entityKeyCount
      keys := keys } :=
  ⟨h.bitmap, h.bit_lt, h.atBit_bit, h.exists_atBit, h.bit_atBit, h.veto_lt, h.vetoCount, h.zero⟩

theorem Bijection.stable (env : Env) : Stable env Bijection where
  enable _ h := h.frame ..
  register _ _ h hne hnew hroom := h.registered hne hnew hroom
  removal _ _ _ h he _ hr := h.removal he hr
  addKey _ _ h _ _ _ := h.frame ..
  removeKey _ _ h _ := h.frame ..
  threshold _ _ h := h.frame ..
  veto _ _ _ _ h he _ hset := h.vetoSet he hset
  reset _ m h := h.vetoReset m

/-! ## The threshold -/

-- In advanced mode the threshold can be met by entities that exist.
def Bounded (p : Policy) : Prop :=
  p.advanced = true → 1 ≤ p.threshold.toNat ∧ p.threshold.toNat ≤ p.entityCount.toNat

theorem Bounded.onlyKeysDiffer (h : Bounded p) (hkeys : OnlyKeysDiffer p p') : Bounded p' := by
  rcases hkeys with ⟨_, _, rfl⟩
  exact h

theorem Bounded.onlyVetoDiffers (h : Bounded p) (hveto : OnlyVetoDiffers p p') : Bounded p' := by
  rcases hveto with ⟨_, _, rfl⟩
  exact h

theorem Bounded.registered (h : Bounded p) (hroom : p.entityCount.toNat < 255) :
    Bounded (registered p e) := by
  intro hadv
  have hcount : (AdvancedWalletMixin.registered p e).entityCount.toNat = p.entityCount.toNat + 1 :=
    toNat_add_one hroom
  have hold := h hadv
  rw [hcount]
  exact ⟨hold.1, by have := hold.2; change p.threshold.toNat ≤ _; omega⟩

end OnchainInvoice.AdvancedWalletMixin

namespace OnchainInvoice.Wallet

open Evm AdvancedWalletTypes WalletEip712 AdvancedWalletMixin Lib.Runs Lib.Bitmap

variable {env : Env} {s s' : State} {tx : Tx Call}

theorem bounded_policyChange {p p' : Policy} {call : Call} (h : PolicyChange env p call p')
    (hp : Bounded p) : Bounded p' := by
  cases h with
  | configureMultisig hok =>
    rcases configureMultisig_ok hok with ⟨-, _, _, p₃, -, -, -, hbound, hveto, -⟩
    have hreset : Bounded (vetoReset p₃ _) := fun _ => hbound
    exact hreset.onlyVetoDiffers (onlyVetoDiffers_of_setVetoes hveto)
  | addEntity hok =>
    rcases registerEntity_eq_ok.mp (addEntity_ok hok).2 with ⟨-, -, hroom, rfl⟩
    exact hp.registered hroom
  | removeEntity hok =>
    rcases removeEntity_ok hok with ⟨hadv, -, hlt, p₁, hkeys, -, hremove⟩
    rcases onlyKeysDiffer_of_removeEntityKeys hkeys with ⟨_, _, rfl⟩
    have hr := removeEntityInternal_ok hremove
    intro _
    have hpos := (hp hadv).1
    have hthreshold : p'.threshold.toNat = p.threshold.toNat := by rw [hr.threshold]
    have hcount : p'.entityCount.toNat = p.entityCount.toNat - 1 := hr.toNat_count
    omega
  | addKey hok => exact hp.onlyKeysDiffer ((OnlyKeysDiffer.refl p).addKeyInternal (addKey_ok hok).2)
  | addKeyEoa hsig hok =>
    exact hp.onlyKeysDiffer ((OnlyKeysDiffer.refl p).addKeyInternal (addKey_ok hok).2)
  | removeKey hok =>
    exact hp.onlyKeysDiffer ((OnlyKeysDiffer.refl p).removeKeyInternal (removeKey_ok hok).2.2)
  | setThreshold hok =>
    rcases setThresholdInternal_eq_ok.mp (setThreshold_ok hok).2 with ⟨hbound, rfl⟩
    exact fun _ => hbound
  | setVeto hok =>
    exact hp.onlyVetoDiffers (setVetoInternal_ok (setVeto_ok hok).2).2.2.rest

theorem Effect.bounded (he : Effect env s tx s') (hs : Bounded s.policy) : Bounded s'.policy := by
  cases he with
  | enableAdvanced admin policy hcall hauth hpaused hok =>
    rcases enableAdvanced_ok hok with ⟨-, -, p₁, hregister, hmigrate⟩
    rcases registerEntity_eq_ok.mp hregister with ⟨-, -, hroom, rfl⟩
    -- One entity at least, and the threshold starts at one.
    have hone : Bounded (registered { s.policy with advanced := true, threshold := 1 } admin) := by
      intro _
      have hcount := toNat_add_one hroom
      exact ⟨le_refl _, hcount ▸ Nat.succ_le_succ (Nat.zero_le _)⟩
    exact hone.onlyKeysDiffer (onlyKeysDiffer_of_migrate hmigrate)
  | policy policy hauth hpaused h => exact bounded_policyChange h hs
  | _ => exact hs

-- Both sides of the bijection, the veto set and the threshold, in the contract's own terms.
structure EntityBits (p : Policy) : Prop where
  bitmap : p.entityBitmap.toNat = 2 ^ p.entityCount.toNat - 1
  atBit_bit : ∀ e, p.entityExists e = true →
    p.entityBit e < p.entityCount ∧ p.entityAtBit (p.entityBit e) = e
  bit_atBit : ∀ b, b < p.entityCount →
    p.entityExists (p.entityAtBit b) = true ∧ p.entityBit (p.entityAtBit b) = b
  veto_subset : p.vetoBitmap &&& p.entityBitmap = p.vetoBitmap
  vetoCount : p.vetoCount.toNat = (bits p.vetoBitmap).card
  threshold : 1 ≤ p.threshold ∧ p.threshold ≤ p.entityCount

theorem entityBits_of_bijection {p : Policy} (h : Bijection p) (hb : Bounded p)
    (hadv : p.advanced = true) : EntityBits p := by
  have hcount : p.entityCount.toNat ≤ 256 := (toNat_lt p.entityCount).le
  constructor
  case bitmap => exact (bits_eq_range_iff hcount).mp h.bitmap
  case atBit_bit => exact fun e he => ⟨BitVec.lt_def.mpr (h.bit_lt e he), h.atBit_bit e he⟩
  case bit_atBit =>
    intro b hb
    exact ⟨h.exists_atBit b (BitVec.lt_def.mp hb), h.bit_atBit b (BitVec.lt_def.mp hb)⟩
  case veto_subset =>
    apply bits_injective
    rw [bits_and, h.bitmap]
    exact Finset.inter_eq_left.mpr fun n hn => Finset.mem_range.mpr (h.veto_lt n hn)
  case vetoCount => exact h.vetoCount
  case threshold => exact ⟨BitVec.le_def.mpr (hb hadv).1, BitVec.le_def.mpr (hb hadv).2⟩

-- Removing an entity takes that entity away and no other, and leaves the others their veto.
def RemovalKeepsVeto (env : Env) (s : State) : Prop :=
  ∀ tx e keyIds s', tx.call = .removeEntity e keyIds → step env s tx = .ok s' → ∀ x,
    (s'.policy.entityExists x = true ↔ x ≠ e ∧ s.policy.entityExists x = true) ∧
      (s'.policy.entityExists x = true → (VetoBit s'.policy x ↔ VetoBit s.policy x))

theorem removal_keeps_veto (h : Bijection s.policy) : RemovalKeepsVeto env s := by
  intro tx e keyIds s' hcall hstep x
  have hremove : ∃ p₁, OnlyKeysDiffer s.policy p₁ ∧ s.policy.entityExists e = true ∧
      EntityRemoval p₁ e s'.policy := by
    cases step_effect hstep with
    | policy policy hauth hpaused hchange =>
      rw [hcall] at hchange
      cases hchange with
      | removeEntity hok =>
        rcases removeEntity_ok hok with ⟨-, hexists, -, p₁, hkeys, -, hremove⟩
        exact ⟨p₁, onlyKeysDiffer_of_removeEntityKeys hkeys, hexists,
          removeEntityInternal_ok hremove⟩
    | owners registry hauth hpaused hsimple hchange =>
      rw [hcall] at hchange
      cases hchange
    | _ => simp_all
  rcases hremove with ⟨p₁, ⟨keys, counts, rfl⟩, hexists, hr⟩
  have hbijection : Bijection { s.policy with keys := keys, entityKeyCount := counts } :=
    h.frame s.policy.advanced s.policy.threshold counts keys
  exact ⟨hr.exists_iff, fun hx => removal_vetoBit hbijection hexists hr hx⟩

/-- In every reachable advanced state the entities and the bits below `entityCount` are in
bijection, and removing an entity leaves the vetoes of the others alone. -/
theorem entity_bits_of_run (env : Env) (tx₀ : Tx Call) (qx qy : Bytes32)
    (recoveryContract : Address) (recoveryTimelock : Uint256) (s₀ : State)
    (hcall : tx₀.call = .initialize_ qx qy recoveryContract recoveryTimelock)
    (hinit : step env clone tx₀ = .ok s₀) (txs : List (Tx Call))
    (hadv : (run (step env) s₀ txs).policy.advanced = true) :
    EntityBits (run (step env) s₀ txs).policy ∧ RemovalKeepsVeto env (run (step env) s₀ txs) := by
  have hs₀ := policy_of_init hcall hinit
  have hbijection : Bijection (run (step env) s₀ txs).policy :=
    run_stable (Bijection.stable env) (hs₀ ▸ Bijection.unused) txs
  have hbounded : Bounded (run (step env) s₀ txs).policy := by
    refine run_invariant (I := fun s => Bounded s.policy)
      (fun _ _ _ hs hok => (step_effect hok).bounded hs) ?_ txs
    rw [hs₀]
    exact fun h => absurd h Bool.false_ne_true
  exact ⟨entityBits_of_bijection hbijection hbounded hadv, removal_keeps_veto hbijection⟩

def toyEnv : Env := ⟨Crypto.toy, 0x3A11E7, 8453, 0x4337⟩

def toyInitialize (qx qy : Bytes32) : Tx Call := ⟨0xFAC, 100, .initialize_ qx qy 0x6EC 100⟩

def toyWallet (qx qy : Bytes32) : State :=
  { clone with
    initialized := true
    registry := P256OwnerRegistry.ownerAdded toyEnv P256OwnerRegistry.OwnerRegistry.empty qx qy
    recoveryContract := 0x6EC
    recoveryTimelock := 100 }

def bySelf (call : Call) : Tx Call := ⟨toyEnv.this, 200, call⟩

-- A veto entity with a passkey joins the admin entity, which then leaves.
def entityRun : List (Tx Call) :=
  [bySelf (.enableAdvanced 1), bySelf (.addEntity 2),
    bySelf (.addKey ⟨2, KEY_WEBAUTHN, 21, 22, 0⟩), bySelf (.setVeto 2 true),
    bySelf (.removeEntity 1 [computeKeyId toyEnv ⟨1, KEY_WEBAUTHN, 11, 12, 0⟩])]

example : (run (step toyEnv) (toyWallet 11 12) entityRun).policy.entityAtBit 0 = 2 := by
  decide +kernel

theorem entity_bits_of_entityRun :
    EntityBits (run (step toyEnv) (toyWallet 11 12) entityRun).policy ∧
      RemovalKeepsVeto toyEnv (run (step toyEnv) (toyWallet 11 12) entityRun) :=
  entity_bits_of_run toyEnv (toyInitialize 11 12) 11 12 0x6EC 100 (toyWallet 11 12) rfl rfl
    entityRun (by decide +kernel)

end OnchainInvoice.Wallet
