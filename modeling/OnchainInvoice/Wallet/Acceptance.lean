import OnchainInvoice.Wallet.Bijection

/-!
# What an advanced wallet accepts

`Satisfies` is the M-of-N-with-veto policy as a statement about a list of entries.  The loop over
the entries collects the bits of their entities, so with the bijection between entities and bits its
popcount and mask tests decide exactly that policy.
-/

namespace OnchainInvoice.AdvancedWalletMixin

open Evm AdvancedWalletTypes WalletEip712 Lib.Revert Lib.Bitmap Function

variable {env : Env} {p p' : Policy} {digest : Bytes32} {e : Bytes32}

/-! ## The policy -/

-- The signature is one of the key over the digest; ECDSA and WebAuthn are whatever they are.
def SignedBy (env : Env) (digest : Bytes32) (key : KeyRecord) (sig : Bytes) : Prop :=
  if key.keyType = KEY_EOA then
    env.crypto.tryRecover (hashUserOp env env.this digest) sig = some key.eoa
  else ∃ auth, decodeWebAuthnAuth sig = some auth ∧
    env.crypto.webAuthnVerify (wordBytes digest) auth key.qx key.qy = true

-- The entity an entry speaks for.
def entityOf (p : Policy) (entry : EntitySig) : Bytes32 := (p.keys entry.keyId).entityId

structure Satisfies (env : Env) (p : Policy) (digest : Bytes32) (entries : List EntitySig) :
    Prop where
  signed : ∀ entry ∈ entries, p.entityExists (entityOf p entry) = true ∧
    SignedBy env digest (p.keys entry.keyId) entry.sig
  distinct : (entries.map (entityOf p)).Nodup
  quorum : p.threshold.toNat ≤ entries.length
  veto : (∃ e, p.entityExists e = true ∧ VetoBit p e) →
    ∃ entry ∈ entries, VetoBit p (entityOf p entry)

/-! ## Registered keys -/

-- The record of every live key passed the checks of `_addKeyInternal`.
def KeysValid (p : Policy) : Prop :=
  ∀ keyId, (p.keys keyId).entityId ≠ 0 → ValidKey (p.keys keyId)

theorem KeysValid.stable (env : Env) : Stable env KeysValid where
  enable _ h := h
  register _ _ h _ _ _ := h
  removal _ _ _ h _ _ hr := by
    unfold KeysValid
    rw [hr.keys]
    exact h
  addKey p key h _ hvalid _ := by
    intro keyId
    simp only [keyAdded, update_apply]
    split
    · exact fun _ => hvalid
    · exact h keyId
  removeKey p keyId h _ := by
    intro x
    simp only [keyRemoved, update_apply]
    split
    · exact fun hne => absurd rfl hne
    · exact h x
  threshold _ _ h := h
  veto _ _ _ _ h _ _ hset := by
    rcases hset.rest with ⟨_, _, rfl⟩
    exact h
  reset _ _ h := h

-- An assertion that decodes is long enough for the length check in front of the decoder.
theorem le_length_of_decodeWebAuthnAuth {sig : Bytes} {auth : WebAuthnAuth}
    (h : decodeWebAuthnAuth sig = some auth) : 0xC0 ≤ sig.length := by
  unfold decodeWebAuthnAuth Abi.dynamicAt Abi.offsetAt at h
  simp only [bind, Option.bind_eq_some_iff] at h
  rcases h with ⟨_, -, _, -, _, -, _, -, _, -, _, ⟨_, ⟨w, hword, -⟩, -⟩, -⟩
  exact Abi.le_of_wordAt hword

theorem validateKeySignature_eq_true {key : KeyRecord} {sig : Bytes} (hvalid : ValidKey key) :
    validateKeySignature env digest key sig = .ok true ↔ SignedBy env digest key sig := by
  unfold validateKeySignature SignedBy
  rcases hvalid with ⟨heoa, hne⟩ | ⟨hkind, hkey⟩
  · rw [if_pos heoa, if_neg hne, if_pos heoa, ← recover_eq hne]
    simp [recoverUserOp]
  · have heoa : ¬key.keyType = KEY_EOA := by
      rcases hkind with hkind | hkind <;> rw [hkind] <;> decide
    rw [if_neg heoa, if_pos hkind, if_neg hkey, if_neg heoa]
    by_cases hlen : sig.length < 0xC0
    · have hnone : ¬∃ auth, decodeWebAuthnAuth sig = some auth ∧
          env.crypto.webAuthnVerify (wordBytes digest) auth key.qx key.qy = true := by
        rintro ⟨auth, hdec, _⟩
        have hle := le_length_of_decodeWebAuthnAuth hdec
        omega
      simp [hlen, hnone]
    · rw [if_neg hlen]
      simp only [bind_eq_ok, orRevert_eq_ok, pure_eq_ok]

/-! ## Counting bits -/

/-- The loop adds the number of set bits, as long as the sum fits in a `uint8`. -/
theorem popcountLoop_eq {fuel : Nat} {x : Uint256} {count : Uint8}
    (hfuel : ∀ n ∈ bits x, n < fuel) (hfit : count.toNat + (bits x).card < 256) :
    ∃ total, popcountLoop fuel x count = .ok total ∧
      total.toNat = count.toNat + (bits x).card := by
  induction fuel generalizing x count with
  | zero =>
    have hempty : bits x = ∅ :=
      Finset.eq_empty_of_forall_notMem fun n hn => Nat.not_lt_zero n (hfuel n hn)
    exact ⟨count, rfl, by rw [hempty]; rfl⟩
  | succ fuel ih =>
    unfold popcountLoop
    by_cases hx : x = 0
    · rw [if_pos hx]
      exact ⟨count, rfl, by rw [hx, bits_zero]; rfl⟩
    · have hcard := card_bits_ushiftRight x
      have hlow : (BitVec.setWidth 8 (x &&& 1)).toNat = (x.getLsbD 0).toNat := by
        rw [BitVec.toNat_setWidth, BitVec.toNat_and]
        show (x.toNat &&& 1) % 256 = (x.toNat.testBit 0).toNat
        rw [Nat.and_one_is_mod, Nat.testBit_zero]
        rcases Nat.mod_two_eq_zero_or_one x.toNat with hmod | hmod <;> simp [hmod]
      have hsum : count.toNat + (BitVec.setWidth 8 (x &&& 1)).toNat < 2 ^ 8 := by
        rw [hlow]
        omega
      have hnext : (count + BitVec.setWidth 8 (x &&& 1)).toNat =
          count.toNat + (x.getLsbD 0).toNat := by
        rw [BitVec.toNat_add, Nat.mod_eq_of_lt hsum, hlow]
      have hfuel' : ∀ n ∈ bits (x >>> 1), n < fuel := by
        intro n hn
        rw [mem_bits, BitVec.getLsbD_ushiftRight] at hn
        have hlt := hfuel (1 + n) (mem_bits.mpr hn)
        omega
      have hfit' : (count + BitVec.setWidth 8 (x &&& 1)).toNat + (bits (x >>> 1)).card < 256 := by
        rw [hnext]
        omega
      rcases ih hfuel' hfit' with ⟨total, htotal, hcount⟩
      refine ⟨total, ?_, by omega⟩
      rw [if_neg hx]
      exact bind_eq_ok.mpr ⟨_, checkedAdd_eq_ok.mpr ⟨hsum, rfl⟩, htotal⟩

theorem popcount_eq {x : Uint256} (hfit : (bits x).card < 256) :
    ∃ total, popcount x = .ok total ∧ total.toNat = (bits x).card := by
  have hzero : (0 : Uint8).toNat = 0 := rfl
  have hsum : (0 : Uint8).toNat + (bits x).card < 256 := by
    rw [hzero]
    omega
  rcases popcountLoop_eq (fun n hn => lt_of_mem_bits hn) hsum with ⟨total, htotal, hcount⟩
  exact ⟨total, htotal, by rw [hcount, hzero]; omega⟩

/-! ## The loop over the entries -/

-- One entry passes when its signature is valid and its entity has not voted yet.
theorem collectSignedBits_cons {entry : EntitySig} {entries : List EntitySig}
    {signedBits out : Uint256} (hb : Bijection p) (hk : KeysValid p) :
    collectSignedBits env p digest (entry :: entries) signedBits = .ok (some out) ↔
      (p.entityExists (entityOf p entry) = true ∧
        SignedBy env digest (p.keys entry.keyId) entry.sig) ∧
      (p.entityBit (entityOf p entry)).toNat ∉ bits signedBits ∧
      collectSignedBits env p digest entries
        (signedBits ||| bitMask (p.entityBit (entityOf p entry))) = .ok (some out) := by
  rw [collectSignedBits]
  unfold entityOf
  by_cases hlive : (p.keys entry.keyId).entityId = 0
  · have hdead : ¬p.entityExists (p.keys entry.keyId).entityId = true := by
      rw [hlive, hb.zero]
      exact Bool.false_ne_true
    rw [if_pos hlive]
    apply Iff.intro
    · intro h
      cases pure_eq_ok.mp h
    · intro h
      exact absurd h.1.1 hdead
  · have hvalid : validateKeySignature env digest (p.keys entry.keyId) entry.sig = .ok true ↔
        SignedBy env digest (p.keys entry.keyId) entry.sig :=
      validateKeySignature_eq_true (hk entry.keyId hlive)
    rw [if_neg hlive]
    apply Iff.intro
    · intro h
      rcases bind_eq_ok.mp h with ⟨valid, hcheck, h⟩
      cases valid with
      | false =>
        rw [if_pos rfl] at h
        cases pure_eq_ok.mp h
      | true =>
        rw [if_neg (by decide)] at h
        split at h
        · cases pure_eq_ok.mp h
        · rename_i hexists
          dsimp only at h
          split at h
          · cases pure_eq_ok.mp h
          · rename_i hfree
            rw [and_bitMask_ne_zero] at hfree
            exact ⟨⟨Bool.eq_true_of_not_eq_false hexists, hvalid.mp hcheck⟩, hfree, h⟩
    · rintro ⟨⟨hexists, hsigned⟩, hfree, hrest⟩
      refine bind_eq_ok.mpr ⟨true, hvalid.mpr hsigned, ?_⟩
      rw [if_neg (by decide), if_neg (by rw [hexists]; decide),
        if_neg (fun h => hfree (and_bitMask_ne_zero.mp h))]
      exact hrest

-- The bits of the entities the entries speak for.
def votedBits (p : Policy) (entries : List EntitySig) : Finset Nat :=
  (entries.map fun entry => (p.entityBit (entityOf p entry)).toNat).toFinset

/-- The loop succeeds when every entry is valid and no entity votes twice, and then it has
collected the bits of their entities. -/
theorem collectSignedBits_eq_some {entries : List EntitySig} {signedBits out : Uint256}
    (hb : Bijection p) (hk : KeysValid p) :
    collectSignedBits env p digest entries signedBits = .ok (some out) ↔
      (∀ entry ∈ entries, p.entityExists (entityOf p entry) = true ∧
        SignedBy env digest (p.keys entry.keyId) entry.sig) ∧
      (entries.map (entityOf p)).Nodup ∧
      Disjoint (votedBits p entries) (bits signedBits) ∧
      bits out = bits signedBits ∪ votedBits p entries := by
  induction entries generalizing signedBits with
  | nil =>
    simp only [collectSignedBits, Except.ok.injEq, Option.some.injEq, votedBits]
    rw [← bits_injective.eq_iff]
    apply Iff.intro
    · intro h
      exact ⟨by simp, by simp, by simp, by simp [h]⟩
    · intro h
      simpa using h.2.2.2.symm
  | cons entry entries ih =>
    have hinsert : bits (signedBits ||| bitMask (p.entityBit (entityOf p entry))) =
        insert (p.entityBit (entityOf p entry)).toNat (bits signedBits) :=
      bits_or_mask _ (toNat_lt _)
    have hcons : votedBits p (entry :: entries) =
        insert (p.entityBit (entityOf p entry)).toNat (votedBits p entries) := by
      simp [votedBits]
    -- Among existing entities, the same bit means the same entity.
    have hsame : p.entityExists (entityOf p entry) = true →
        (∀ x ∈ entries, p.entityExists (entityOf p x) = true) →
        ((p.entityBit (entityOf p entry)).toNat ∈ votedBits p entries ↔
          entityOf p entry ∈ entries.map (entityOf p)) := by
      intro hexists hall
      simp only [votedBits, List.mem_toFinset, List.mem_map]
      apply Iff.intro
      · rintro ⟨x, hx, hbit⟩
        exact ⟨x, hx, hb.bit_inj (hall x hx) hexists (BitVec.toNat_inj.mp hbit)⟩
      · rintro ⟨x, hx, heq⟩
        exact ⟨x, hx, by rw [heq]⟩
    rw [collectSignedBits_cons hb hk, ih, hinsert, hcons, List.forall_mem_cons, List.map_cons,
      List.nodup_cons, Finset.disjoint_insert_left, Finset.disjoint_insert_right,
      Finset.insert_union, Finset.union_insert]
    apply Iff.intro
    · rintro ⟨hentry, hfree, hall, hnodup, ⟨hfresh, hdisjoint⟩, hout⟩
      have hnew := (not_congr (hsame hentry.1 fun x hx => (hall x hx).1)).mp hfresh
      exact ⟨⟨hentry, hall⟩, ⟨hnew, hnodup⟩, ⟨hfree, hdisjoint⟩, hout⟩
    · rintro ⟨⟨hentry, hall⟩, ⟨hnew, hnodup⟩, ⟨hfree, hdisjoint⟩, hout⟩
      have hfresh := (not_congr (hsame hentry.1 fun x hx => (hall x hx).1)).mpr hnew
      exact ⟨hentry, hfree, hall, hnodup, ⟨hfresh, hdisjoint⟩, hout⟩

-- When the entries pass there are bits to collect: the union of their masks.
theorem collectSignedBits_complete {entries : List EntitySig} (hb : Bijection p) (hk : KeysValid p)
    (hall : ∀ entry ∈ entries, p.entityExists (entityOf p entry) = true ∧
      SignedBy env digest (p.keys entry.keyId) entry.sig)
    (hnodup : (entries.map (entityOf p)).Nodup) :
    ∃ out, collectSignedBits env p digest entries 0 = .ok (some out) ∧
      bits out = votedBits p entries := by
  have hout : ∃ out : Uint256, bits out = votedBits p entries := by
    clear hall hnodup
    induction entries with
    | nil => exact ⟨0, bits_zero⟩
    | cons entry entries ih =>
      rcases ih with ⟨out, hout⟩
      refine ⟨out ||| bitMask (p.entityBit (entityOf p entry)), ?_⟩
      unfold bitMask
      rw [bits_or_mask _ (toNat_lt _), hout]
      simp [votedBits]
  rcases hout with ⟨out, hout⟩
  refine ⟨out, (collectSignedBits_eq_some hb hk).mpr ⟨hall, hnodup, ?_, ?_⟩, hout⟩
  · rw [bits_zero]
    exact Finset.disjoint_empty_right _
  · rw [bits_zero, Finset.empty_union, hout]

/-! ## The tally -/

theorem mem_votedBits {entries : List EntitySig} {n : Nat} :
    n ∈ votedBits p entries ↔ ∃ entry ∈ entries, (p.entityBit (entityOf p entry)).toNat = n := by
  simp [votedBits]

-- Distinct existing entities have as many bits as there are of them.
theorem card_votedBits {entries : List EntitySig} (hb : Bijection p)
    (hall : ∀ entry ∈ entries, p.entityExists (entityOf p entry) = true)
    (hnodup : (entries.map (entityOf p)).Nodup) :
    (votedBits p entries).card = entries.length := by
  have hbits : ((entries.map (entityOf p)).map fun e => (p.entityBit e).toNat).Nodup := by
    refine List.Nodup.map_on ?_ hnodup
    intro x hx y hy hxy
    rcases List.mem_map.mp hx with ⟨a, ha, rfl⟩
    rcases List.mem_map.mp hy with ⟨b, hb', rfl⟩
    exact hb.bit_inj (hall a ha) (hall b hb') (BitVec.toNat_inj.mp hxy)
  rw [List.map_map] at hbits
  exact (List.toFinset_card_of_nodup hbits).trans (List.length_map _)

theorem card_votedBits_lt {entries : List EntitySig} (hb : Bijection p)
    (hall : ∀ entry ∈ entries, p.entityExists (entityOf p entry) = true) :
    (votedBits p entries).card < 256 := by
  have hsubset : votedBits p entries ⊆ Finset.range p.entityCount.toNat := by
    intro n hn
    rcases mem_votedBits.mp hn with ⟨entry, hentry, rfl⟩
    exact Finset.mem_range.mpr (hb.bit_lt _ (hall entry hentry))
  have hcard := Finset.card_le_card hsubset
  rw [Finset.card_range] at hcard
  have hlt := toNat_lt p.entityCount
  omega

-- The veto bitmap is empty exactly when no entity has veto.
theorem Bijection.vetoBitmap_ne_zero (hb : Bijection p) :
    p.vetoBitmap ≠ 0 ↔ ∃ e, p.entityExists e = true ∧ VetoBit p e := by
  rw [← not_iff_not, not_not, ← bits_eq_empty]
  apply Iff.intro
  · rintro hempty ⟨e, _, hveto⟩
    unfold VetoBit at hveto
    rw [hempty] at hveto
    exact Finset.notMem_empty _ hveto
  · intro hnone
    apply Finset.eq_empty_of_forall_notMem
    intro n hn
    have hlt := hb.veto_lt n hn
    have hmax := toNat_lt p.entityCount
    have hround : (BitVec.ofNat 8 n).toNat = n := by
      rw [BitVec.toNat_ofNat, Nat.mod_eq_of_lt (by omega)]
    refine hnone ⟨p.entityAtBit (BitVec.ofNat 8 n), hb.exists_atBit _ (by omega), ?_⟩
    unfold VetoBit
    rwa [hb.bit_atBit _ (by omega), hround]

theorem meetsPolicy_eq_true {signedBits : Uint256} (hfit : (bits signedBits).card < 256) :
    meetsPolicy p signedBits = .ok true ↔ p.threshold.toNat ≤ (bits signedBits).card ∧
      (p.vetoBitmap ≠ 0 → ∃ n ∈ bits signedBits, n ∈ bits p.vetoBitmap) := by
  rcases popcount_eq hfit with ⟨total, htotal, hcard⟩
  have hlt : total < p.threshold ↔ ¬p.threshold.toNat ≤ (bits signedBits).card := by
    rw [BitVec.lt_def, hcard, Nat.not_le]
  have hveto : signedBits &&& p.vetoBitmap = 0 ↔
      ¬∃ n ∈ bits signedBits, n ∈ bits p.vetoBitmap := by
    rw [← and_ne_zero, not_not]
  unfold meetsPolicy
  rw [htotal]
  show (if total < p.threshold then _ else _ : Except Error Bool) = _ ↔ _
  by_cases hquorum : p.threshold.toNat ≤ (bits signedBits).card
  · rw [if_neg (fun h => hlt.mp h hquorum)]
    by_cases hblocked : p.vetoBitmap ≠ 0 ∧ signedBits &&& p.vetoBitmap = 0
    · rw [if_pos hblocked]
      apply Iff.intro
      · intro h
        cases pure_eq_ok.mp h
      · intro h
        exact absurd (h.2 hblocked.1) (hveto.mp hblocked.2)
    · rw [if_neg hblocked]
      apply Iff.intro
      · intro _
        refine ⟨hquorum, fun hne => ?_⟩
        by_contra hnone
        exact hblocked ⟨hne, hveto.mpr hnone⟩
      · intro _
        rfl
  · rw [if_pos (hlt.mpr hquorum)]
    apply Iff.intro
    · intro h
      cases pure_eq_ok.mp h
    · intro h
      exact absurd h.1 hquorum

theorem decodeEntitySigs_eq_ok {signature : Bytes} {entries : List EntitySig} :
    decodeEntitySigs signature = .ok entries ↔ signature.take 4 = ADVANCED_SIG_MAGIC ∧
      abiDecodeEntitySigs (signature.drop 4) = some entries := by
  unfold decodeEntitySigs
  simp only [bind_eq_ok, revertIf_eq_ok, orRevert_eq_ok, exists_const, decide_eq_false_iff_not,
    bne_eq_false_iff_eq]
  apply Iff.intro
  · exact fun h => h.2
  · intro h
    refine ⟨?_, h⟩
    have hlen := congrArg List.length h.1
    rw [List.length_take] at hlen
    have hmagic : ADVANCED_SIG_MAGIC.length = 4 := rfl
    omega

/-- The signature check accepts exactly the lists of entries that satisfy the policy. -/
theorem validateAdvancedSignatures_eq_true {signature : Bytes} (hb : Bijection p)
    (hk : KeysValid p) : validateAdvancedSignatures env p digest signature = .ok true ↔
      ∃ entries, signature.take 4 = ADVANCED_SIG_MAGIC ∧
        abiDecodeEntitySigs (signature.drop 4) = some entries ∧ Satisfies env p digest entries := by
  unfold validateAdvancedSignatures
  rw [bind_eq_ok]
  apply exists_congr
  intro entries
  rw [decodeEntitySigs_eq_ok, and_assoc, and_congr_right_iff]
  intro _
  rw [and_congr_right_iff]
  intro _
  rw [bind_eq_ok]
  apply Iff.intro
  · rintro ⟨result, hcollect, h⟩
    cases result with
    | none => cases pure_eq_ok.mp h
    | some out =>
      rcases (collectSignedBits_eq_some hb hk).mp hcollect with ⟨hall, hnodup, -, hout⟩
      rw [bits_zero, Finset.empty_union] at hout
      have hexists : ∀ entry ∈ entries, p.entityExists (entityOf p entry) = true :=
        fun entry hentry => (hall entry hentry).1
      rcases (meetsPolicy_eq_true (hout ▸ card_votedBits_lt hb hexists)).mp h with ⟨hquorum, hveto⟩
      rw [hout, card_votedBits hb hexists hnodup] at hquorum
      refine ⟨hall, hnodup, hquorum, fun hsome => ?_⟩
      rcases hveto (hb.vetoBitmap_ne_zero.mpr hsome) with ⟨n, hn, hin⟩
      rw [hout] at hn
      rcases mem_votedBits.mp hn with ⟨entry, hentry, rfl⟩
      exact ⟨entry, hentry, hin⟩
  · intro h
    have hexists : ∀ entry ∈ entries, p.entityExists (entityOf p entry) = true :=
      fun entry hentry => (h.signed entry hentry).1
    have hcollect := collectSignedBits_complete hb hk h.signed h.distinct
    rcases hcollect with ⟨out, hcollect, hout⟩
    refine ⟨some out, hcollect, ?_⟩
    apply (meetsPolicy_eq_true (hout ▸ card_votedBits_lt hb hexists)).mpr
    rw [hout, card_votedBits hb hexists h.distinct]
    refine ⟨h.quorum, fun hne => ?_⟩
    rcases h.veto (hb.vetoBitmap_ne_zero.mp hne) with ⟨entry, hentry, hin⟩
    exact ⟨_, mem_votedBits.mpr ⟨entry, hentry, rfl⟩, hin⟩

/-! ## Canonical encodings -/

def encodeEntitySig (entry : EntitySig) : Bytes :=
  wordBytes entry.keyId ++ wordBytes (BitVec.ofNat 256 64) ++ Abi.encodeBytes entry.sig

-- `abi.encode(entries)`
def encodeEntitySigs (entries : List EntitySig) : Bytes :=
  wordBytes (BitVec.ofNat 256 32) ++ Abi.encodeArray (entries.map encodeEntitySig)

theorem entitySigAt_of_holds {data : Bytes} {pos : Nat} {entry : EntitySig}
    (hlen : entry.sig.length < 2 ^ 64) (h : Abi.Holds data pos (encodeEntitySig entry)) :
    entitySigAt data pos = some entry := by
  unfold encodeEntitySig at h
  rw [Abi.Holds.append, Abi.Holds.append, List.length_append, length_wordBytes,
    length_wordBytes] at h
  rcases h with ⟨⟨hkey, hoffset⟩, hsig⟩
  have hbytes := Abi.bytesAt_of_holds hlen hsig
  unfold entitySigAt
  rw [Abi.wordAt_of_holds hkey, Abi.dynamicAt_of_holds (by decide) hoffset hbytes]
  rfl

/-- What `abi.encode` writes is what the decoder reads. -/
theorem abiDecodeEntitySigs_encode {entries : List EntitySig}
    (hsize : (encodeEntitySigs entries).length < 2 ^ 64) :
    abiDecodeEntitySigs (encodeEntitySigs entries) = some entries := by
  have hwhole : Abi.Holds (encodeEntitySigs entries) 0 (encodeEntitySigs entries) :=
    List.prefix_rfl
  have hparts := hwhole
  unfold encodeEntitySigs at hsize
  rw [List.length_append, length_wordBytes, Abi.length_encodeArray, List.length_map] at hsize
  nth_rewrite 2 [encodeEntitySigs] at hparts
  rw [Abi.Holds.append, length_wordBytes] at hparts
  refine Abi.dynamicAt_of_holds (by decide) hparts.1 ?_
  refine Abi.arrayAt_of_holds ?_ (by omega) hparts.2
  intro entry hentry pos hpos
  refine entitySigAt_of_holds ?_ hpos
  have hitem : (encodeEntitySig entry).length ≤ (entries.map encodeEntitySig).flatten.length :=
    (List.sublist_flatten_of_mem (List.mem_map_of_mem hentry)).length_le
  have hsig := Abi.length_le_encodeBytes entry.sig
  have hlen : (Abi.encodeBytes entry.sig).length ≤ (encodeEntitySig entry).length := by
    rw [encodeEntitySig, List.length_append]
    omega
  omega

end OnchainInvoice.AdvancedWalletMixin

namespace OnchainInvoice.Wallet

open Evm AdvancedWalletTypes WalletEip712 AdvancedWalletMixin Lib.Runs

/-- In every reachable state the advanced signature check is the policy: on any byte string, and on
the canonical encoding of any list of entries. -/
theorem acceptance_is_policy (env : Env) (tx₀ : Tx Call) (qx qy : Bytes32)
    (recoveryContract : Address) (recoveryTimelock : Uint256) (s₀ : State)
    (hcall : tx₀.call = .initialize_ qx qy recoveryContract recoveryTimelock)
    (hinit : step env clone tx₀ = .ok s₀) (txs : List (Tx Call)) (digest : Bytes32) :
    (∀ signature,
      validateAdvancedSignatures env (run (step env) s₀ txs).policy digest signature = .ok true ↔
        ∃ entries, signature.take 4 = ADVANCED_SIG_MAGIC ∧
          abiDecodeEntitySigs (signature.drop 4) = some entries ∧
          Satisfies env (run (step env) s₀ txs).policy digest entries) ∧
      ∀ entries, (encodeEntitySigs entries).length < 2 ^ 64 →
        (validateAdvancedSignatures env (run (step env) s₀ txs).policy digest
            (ADVANCED_SIG_MAGIC ++ encodeEntitySigs entries) = .ok true ↔
          Satisfies env (run (step env) s₀ txs).policy digest entries) := by
  have hs₀ := policy_of_init hcall hinit
  have hb : Bijection (run (step env) s₀ txs).policy :=
    run_stable (Bijection.stable env) (hs₀ ▸ Bijection.unused) txs
  have hk : KeysValid (run (step env) s₀ txs).policy := by
    refine run_stable (KeysValid.stable env) ?_ txs
    rw [hs₀]
    exact fun _ hlive => absurd rfl hlive
  refine ⟨fun signature => validateAdvancedSignatures_eq_true hb hk, ?_⟩
  intro entries hsize
  rw [validateAdvancedSignatures_eq_true hb hk]
  have htake : (ADVANCED_SIG_MAGIC ++ encodeEntitySigs entries).take 4 = ADVANCED_SIG_MAGIC :=
    rfl
  have hdrop : (ADVANCED_SIG_MAGIC ++ encodeEntitySigs entries).drop 4 = encodeEntitySigs entries :=
    rfl
  rw [htake, hdrop, abiDecodeEntitySigs_encode hsize]
  apply Iff.intro
  · rintro ⟨entries', _, hsome, hsatisfies⟩
    cases hsome
    exact hsatisfies
  · intro hsatisfies
    exact ⟨entries, rfl, rfl, hsatisfies⟩

-- The veto entity of `entityRun` signs with its passkey.
def toyEntry (digest : Bytes32) : EntitySig :=
  ⟨computeKeyId toyEnv ⟨2, KEY_WEBAUTHN, 21, 22, 0⟩, toyAssertion 21 22 digest⟩

example : validateAdvancedSignatures toyEnv (run (step toyEnv) (toyWallet 11 12) entityRun).policy 7
    (ADVANCED_SIG_MAGIC ++ encodeEntitySigs [toyEntry 7]) = .ok true := by decide +kernel

theorem acceptance_is_policy_entityRun :
    (∀ signature, validateAdvancedSignatures toyEnv
        (run (step toyEnv) (toyWallet 11 12) entityRun).policy 7 signature = .ok true ↔
        ∃ entries, signature.take 4 = ADVANCED_SIG_MAGIC ∧
          abiDecodeEntitySigs (signature.drop 4) = some entries ∧
          Satisfies toyEnv (run (step toyEnv) (toyWallet 11 12) entityRun).policy 7 entries) ∧
      ∀ entries, (encodeEntitySigs entries).length < 2 ^ 64 →
        (validateAdvancedSignatures toyEnv (run (step toyEnv) (toyWallet 11 12) entityRun).policy 7
            (ADVANCED_SIG_MAGIC ++ encodeEntitySigs entries) = .ok true ↔
          Satisfies toyEnv (run (step toyEnv) (toyWallet 11 12) entityRun).policy 7 entries) :=
  acceptance_is_policy toyEnv (toyInitialize 11 12) 11 12 0x6EC 100 (toyWallet 11 12) rfl rfl
    entityRun 7

end OnchainInvoice.Wallet
