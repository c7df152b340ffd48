import OnchainInvoice.Identity.Invariant
import OnchainInvoice.Identity.Signers

/-!
# What an `IdentityWallet` accepts

`Accepts` is the signer policy as a statement about a signature.  The loop of `_validateSuper` marks
the index of every signer it meets, and distinct signers have distinct indices, so it decides exactly
that policy.
-/

namespace OnchainInvoice.IdentityWallet

open Evm IdentityTypes Lib.Revert Lib.Runs Lib.Bitmap

variable {verify : Bytes32 → Bytes → Except Error Bytes32} {s : State} {hash id : Bytes32}

/-! ## The policy -/

-- `verify` returns the identity and not the zero that stands for failure.
def VerifiesTo (verify : Bytes32 → Bytes → Except Error Bytes32) (hash : Bytes32) (blob : Bytes)
    (id : Bytes32) : Prop :=
  verify hash blob = .ok id ∧ id ≠ 0

-- The blobs are by pairwise distinct signers, at least as many as the threshold.
def Quorum (verify : Bytes32 → Bytes → Except Error Bytes32) (s : State) (hash : Bytes32)
    (blobs : List Bytes) : Prop :=
  ∃ ids, List.Forall₂ (VerifiesTo verify hash) blobs ids ∧ ids.Nodup ∧
    (∀ id ∈ ids, s.isSigner id = true) ∧ s.threshold.toNat ≤ blobs.length

def Accepts (verify : Bytes32 → Bytes → Except Error Bytes32) (s : State) (hash : Bytes32)
    (signature : Bytes) : Prop :=
  if s.superWallet then
    if signature.take 4 = SUPER_MAGIC then
      ∃ blobs, Abi.dynamicAt (Abi.arrayAt Abi.bytesAt) (signature.drop 4) 0 0 = some blobs ∧
        Quorum verify s hash blobs
    else ∃ id, VerifiesTo verify hash signature id ∧ s.isSigner id = true ∧ s.threshold.toNat ≤ 1
  else VerifiesTo verify hash signature s.identityId

/-! ## The loop over the blobs -/

-- The marks of the signers counted so far: as many as there are votes, all below `signerCount`.
structure Counted (s : State) (votes : Uint8) (seen : Uint256) : Prop where
  card : votes.toNat = (bits seen).card
  below : ∀ n ∈ bits seen, n < s.signerCount.toNat

theorem Counted.zero (s : State) : Counted s 0 0 := by
  constructor
  · rw [bits_zero]
    rfl
  · rw [bits_zero]
    exact fun n hn => absurd hn (Finset.notMem_empty n)

-- One more signer leaves room in the `uint8`.
theorem Counted.lt {votes : Uint8} {seen : Uint256} (h : Counted s votes seen) {bit : Uint8}
    (hbit : bit.toNat < s.signerCount.toNat) (hfree : bit.toNat ∉ bits seen) :
    votes.toNat + 1 < 2 ^ 8 := by
  have hsubset : insert bit.toNat (bits seen) ⊆ Finset.range s.signerCount.toNat := by
    intro n hn
    rw [Finset.mem_range]
    rcases Finset.mem_insert.mp hn with rfl | hn
    · exact hbit
    · exact h.below n hn
  have hcard := Finset.card_le_card hsubset
  rw [Finset.card_insert_of_notMem hfree, Finset.card_range, ← h.card] at hcard
  have hmax := s.signerCount.isLt
  omega

theorem Counted.insert {votes votes' : Uint8} {seen : Uint256} (h : Counted s votes seen)
    {bit : Uint8} (hbit : bit.toNat < s.signerCount.toNat) (hfree : bit.toNat ∉ bits seen)
    (hvotes : votes'.toNat = votes.toNat + 1) : Counted s votes' (seen ||| mask bit.toNat) := by
  have hwidth : bit.toNat < 256 := bit.isLt
  constructor
  · rw [bits_or_mask _ hwidth, Finset.card_insert_of_notMem hfree, hvotes, h.card]
  · intro n hn
    rw [bits_or_mask _ hwidth] at hn
    rcases Finset.mem_insert.mp hn with rfl | hn
    · exact hbit
    · exact h.below n hn

-- No signer of the list has been marked.
def Unmarked (s : State) (seen : Uint256) (ids : List Bytes32) : Prop :=
  ∀ id ∈ ids, ∀ i : Uint8, i.toNat < s.signerCount.toNat → s.signerAt i = id →
    i.toNat ∉ bits seen

theorem unmarked_insert {seen : Uint256} {bit : Uint8} {ids : List Bytes32}
    (hbit : bit.toNat < s.signerCount.toNat) (hid : s.signerAt bit = id) :
    Unmarked s (seen ||| mask bit.toNat) ids ↔ Unmarked s seen ids ∧ id ∉ ids := by
  unfold Unmarked
  rw [bits_or_mask _ (show bit.toNat < 256 from bit.isLt)]
  simp only [Finset.mem_insert, not_or]
  apply Iff.intro
  · intro hall
    apply And.intro
    · exact fun x hx i hi hxi => (hall x hx i hi hxi).2
    · exact fun hx => (hall id hx bit hbit hid).1 rfl
  · rintro ⟨hall, hnew⟩ x hx i hi hxi
    refine ⟨fun heq => ?_, hall x hx i hi hxi⟩
    rw [← hxi, BitVec.toNat_inj.mp heq, hid] at hx
    exact hnew hx

/-- The loop counts the blobs that come before the end when every one of them verifies to a signer
that has not voted yet. -/
theorem collectVotes_eq_some (h : SignerSet s) {blobs : List Bytes} {votes total : Uint8}
    {seen : Uint256} (hc : Counted s votes seen) :
    collectVotes s verify hash blobs votes seen = .ok (some total) ↔
      ∃ ids, List.Forall₂ (VerifiesTo verify hash) blobs ids ∧ ids.Nodup ∧
        (∀ id ∈ ids, s.isSigner id = true) ∧ Unmarked s seen ids ∧
        total.toNat = votes.toNat + blobs.length := by
  induction blobs generalizing votes seen with
  | nil =>
    simp only [collectVotes, Except.ok.injEq, Option.some.injEq, List.forall₂_nil_left_iff]
    apply Iff.intro
    · intro heq
      exact ⟨[], rfl, List.nodup_nil, by simp, by simp [Unmarked], by simp [heq]⟩
    · rintro ⟨ids, rfl, -, -, -, htotal⟩
      rw [← BitVec.toNat_inj]
      exact htotal.symm
  | cons blob blobs ih =>
    rw [collectVotes]
    simp only [bind_eq_ok]
    apply Iff.intro
    · rintro ⟨id, hverify, hok⟩
      split at hok
      · cases pure_eq_ok.mp hok
      · rename_i hsigner
        rw [not_or, Bool.not_eq_false] at hsigner
        split at hok
        · cases pure_eq_ok.mp hok
        · rename_i bit hfind
          rcases h.findSigner_eq_some.mp hfind with ⟨hbit, hid⟩
          split at hok
          · cases pure_eq_ok.mp hok
          · rename_i hfree
            rw [and_mask_ne_zero (show bit.toNat < 256 from bit.isLt)] at hfree
            rcases bind_eq_ok.mp hok with ⟨votes', hadd, hrest⟩
            have hvotes : votes'.toNat = votes.toNat + 1 := toNat_of_checkedAdd hadd
            rcases (ih (hc.insert hbit hfree hvotes)).mp hrest with
              ⟨ids, hall, hnodup, hsigners, hunmarked, htotal⟩
            rcases (unmarked_insert hbit hid).mp hunmarked with ⟨hold, hnew⟩
            refine ⟨id :: ids, .cons ⟨hverify, hsigner.1⟩ hall, List.nodup_cons.mpr ⟨hnew, hnodup⟩,
              List.forall_mem_cons.mpr ⟨hsigner.2, hsigners⟩, ?_, ?_⟩
            · unfold Unmarked
              rw [List.forall_mem_cons]
              refine ⟨fun i hi hid' => ?_, hold⟩
              rwa [h.distinct i bit hi hbit (hid'.trans hid.symm)]
            · rw [htotal, hvotes, List.length_cons]
              omega
    · rintro ⟨ids', hall, hnodup, hsigners, hunmarked, htotal⟩
      rcases List.forall₂_cons_left_iff.mp hall with ⟨id, ids, ⟨hverify, hne⟩, hrest, rfl⟩
      rcases List.nodup_cons.mp hnodup with ⟨hnew, hnodup'⟩
      rcases List.forall_mem_cons.mp hsigners with ⟨hsigner, hsigners'⟩
      rcases List.forall_mem_cons.mp hunmarked with ⟨hmine, hunmarked'⟩
      rcases (h.listed id).mp hsigner with ⟨bit, hbit, hid⟩
      have hfree := hmine bit hbit hid
      have hfit := hc.lt hbit hfree
      refine ⟨id, hverify, ?_⟩
      rw [if_neg (not_or.mpr ⟨hne, by simp [hsigner]⟩), h.findSigner_eq_some.mpr ⟨hbit, hid⟩]
      have hskip : ¬seen &&& mask bit.toNat ≠ 0 := by
        rw [and_mask_ne_zero (show bit.toNat < 256 from bit.isLt)]
        exact hfree
      simp only [if_neg hskip, bind_eq_ok]
      have hadd : checkedAdd Error.panic votes 1 = .ok (votes + 1) :=
        checkedAdd_eq_ok.mpr ⟨hfit, rfl⟩
      have hvotes : (votes + 1).toNat = votes.toNat + 1 := toNat_of_checkedAdd hadd
      refine ⟨votes + 1, hadd, (ih (hc.insert hbit hfree hvotes)).mpr ?_⟩
      refine ⟨ids, hrest, hnodup', hsigners', (unmarked_insert hbit hid).mpr ⟨hunmarked', hnew⟩, ?_⟩
      rw [htotal, hvotes, List.length_cons]
      omega

/-! ## The check -/

theorem decodeSuperBlobs_eq_ok {signature : Bytes} {blobs : List Bytes} :
    decodeSuperBlobs signature = .ok blobs ↔ 4 ≤ signature.length ∧
      signature.take 4 = SUPER_MAGIC ∧
      Abi.dynamicAt (Abi.arrayAt Abi.bytesAt) (signature.drop 4) 0 0 = some blobs := by
  unfold decodeSuperBlobs
  simp only [bind_eq_ok, revertIf_eq_ok, orRevert_eq_ok, exists_const, decide_eq_false_iff_not,
    bne_eq_false_iff_eq, Nat.not_lt]

theorem validateSuper_eq_true (h : SignerSet s) {blobs : List Bytes} :
    validateSuper s verify hash blobs = .ok true ↔ Quorum verify s hash blobs := by
  have hzero : (0 : Uint8).toNat = 0 := rfl
  unfold validateSuper Quorum
  rw [bind_eq_ok]
  apply Iff.intro
  · rintro ⟨result, hcollect, hok⟩
    cases result with
    | none => cases pure_eq_ok.mp hok
    | some total =>
      have hle := of_decide_eq_true (pure_eq_ok.mp hok)
      rcases (collectVotes_eq_some h (.zero s)).mp hcollect with
        ⟨ids, hall, hnodup, hsigners, -, htotal⟩
      rw [hzero, Nat.zero_add] at htotal
      refine ⟨ids, hall, hnodup, hsigners, ?_⟩
      rw [← htotal]
      exact BitVec.le_def.mp hle
  · rintro ⟨ids, hall, hnodup, hsigners, hquorum⟩
    have hlength := hall.length_eq
    -- Distinct signers are no more than there are places for them.
    have hfit : blobs.length < 2 ^ 8 := by
      have hsubset : ids ⊆ signerList s := fun id hid => h.mem_signerList.mpr (hsigners id hid)
      have hle := (List.subperm_of_subset hnodup hsubset).length_le
      rw [length_signerList] at hle
      have hmax := s.signerCount.isLt
      omega
    have htotal : (BitVec.ofNat 8 blobs.length).toNat = blobs.length := by
      rw [BitVec.toNat_ofNat, Nat.mod_eq_of_lt hfit]
    refine ⟨some (BitVec.ofNat 8 blobs.length), (collectVotes_eq_some h (.zero s)).mpr
      ⟨ids, hall, hnodup, hsigners, ?_, ?_⟩, ?_⟩
    · intro id _ i _ _
      rw [bits_zero]
      exact Finset.notMem_empty _
    · rw [htotal, hzero, Nat.zero_add]
    · apply pure_eq_ok.mpr
      rw [decide_eq_true_iff, BitVec.le_def, htotal]
      exact hquorum

/-- The signature check is the signer policy. -/
theorem rawSignatureValidation_eq_true {storeState : IdentityStore.State} (hs : Sound storeState s)
    {signature : Bytes} :
    rawSignatureValidation s verify hash signature = .ok true ↔ Accepts verify s hash signature := by
  have hmagic : SUPER_MAGIC.length = 4 := rfl
  have hshort : 4 ≤ signature.length ∧ signature.take 4 = SUPER_MAGIC ↔
      signature.take 4 = SUPER_MAGIC := by
    apply Iff.intro And.right
    intro htake
    have hlength := congrArg List.length htake
    rw [List.length_take, hmagic] at hlength
    exact ⟨by omega, htake⟩
  unfold rawSignatureValidation Accepts
  rw [if_congr hshort rfl rfl]
  by_cases hsuper : s.superWallet = true
  · rw [if_pos hsuper, if_pos hsuper]
    by_cases htake : signature.take 4 = SUPER_MAGIC
    · rw [if_pos htake, if_pos htake, bind_eq_ok]
      apply exists_congr
      intro blobs
      rw [decodeSuperBlobs_eq_ok, validateSuper_eq_true hs.signers]
      have hlength := (hshort.mpr htake).1
      simp only [hlength, htake, true_and]
    · rw [if_neg htake, if_neg htake, bind_eq_ok]
      apply exists_congr
      intro id
      rw [pure_eq_ok, Bool.and_eq_true, Bool.and_eq_true, bne_iff_ne, decide_eq_true_iff,
        BitVec.le_def]
      unfold VerifiesTo
      have hbound : (1 : Uint8).toNat = 1 := rfl
      rw [hbound, and_assoc, and_assoc]
  · rw [if_neg hsuper, if_neg hsuper, bind_eq_ok]
    unfold VerifiesTo
    simp only [pure_eq_ok, beq_iff_eq]
    apply Iff.intro
    · rintro ⟨id, hok, rfl⟩
      exact ⟨hok, hs.own⟩
    · rintro ⟨hok, -⟩
      exact ⟨_, hok, rfl⟩

/-- In every reachable state the signature check accepts exactly what the signer policy allows,
whatever the store verifies. -/
theorem acceptance_of_run (env : SystemEnv) (storeState : IdentityStore.State)
    (identityId_ : Bytes32) (wallet : State)
    (hinit : initialize_ storeState clone env.storeEnv.this identityId_ = .ok wallet)
    (txs : List (Tx Call)) (verify : Bytes32 → Bytes → Except Error Bytes32) (hash : Bytes32)
    (signature : Bytes) :
    rawSignatureValidation (run (step env) ⟨storeState, wallet⟩ txs).wallet verify hash signature =
        .ok true ↔
      Accepts verify (run (step env) ⟨storeState, wallet⟩ txs).wallet hash signature := by
  have hs : Sound storeState wallet := .of_init hinit
  exact rawSignatureValidation_eq_true (sound_of_run (t := ⟨storeState, wallet⟩) hs txs)

/-! ## Canonical encodings -/

theorem decode_encodeSuperBlobs {blobs : List Bytes}
    (hsize : (encodeSuperBlobs blobs).length < 2 ^ 64) :
    (encodeSuperBlobs blobs).take 4 = SUPER_MAGIC ∧
      Abi.dynamicAt (Abi.arrayAt Abi.bytesAt) ((encodeSuperBlobs blobs).drop 4) 0 0 =
        some blobs := by
  refine ⟨rfl, ?_⟩
  have hdrop : (encodeSuperBlobs blobs).drop 4 =
      wordBytes (BitVec.ofNat 256 32) ++ Abi.encodeArray (blobs.map Abi.encodeBytes) := rfl
  have hparts : Abi.Holds ((encodeSuperBlobs blobs).drop 4) 0
      (wordBytes (BitVec.ofNat 256 32) ++ Abi.encodeArray (blobs.map Abi.encodeBytes)) := by
    rw [hdrop]
    exact List.prefix_rfl
  unfold encodeSuperBlobs at hsize
  rw [List.length_append, List.length_append, length_wordBytes, Abi.length_encodeArray,
    List.length_map] at hsize
  rw [Abi.Holds.append, length_wordBytes] at hparts
  refine Abi.dynamicAt_of_holds (by decide) hparts.1 ?_
  refine Abi.arrayAt_of_holds ?_ (by omega) hparts.2
  intro blob hblob pos hpos
  refine Abi.bytesAt_of_holds ?_ hpos
  have hitem : (Abi.encodeBytes blob).length ≤ (blobs.map Abi.encodeBytes).flatten.length :=
    (List.sublist_flatten_of_mem (List.mem_map_of_mem hblob)).length_le
  have hblob' := Abi.length_le_encodeBytes blob
  omega

/-! ## A super wallet is never locked -/

def HasMethod (storeState : IdentityStore.State) (id : Bytes32) : Prop :=
  ∃ methodId, (storeState.methods methodId).exists_ = true ∧
    (storeState.methods methodId).identityId = id

-- There are enough signers, each of them can sign, and any quorum of signatures is accepted.
structure Unlocked (storeState : IdentityStore.State) (s : State) : Prop where
  quorum : s.threshold.toNat ≤ (signerList s).length
  distinct : (signerList s).Nodup
  live : ∀ id ∈ signerList s, HasMethod storeState id
  accepted : ∀ (verify : Bytes32 → Bytes → Except Error Bytes32) (hash : Bytes32)
    (blobOf : Bytes32 → Bytes) (ids : List Bytes32), ids.Nodup → ids ⊆ signerList s →
    s.threshold.toNat ≤ ids.length → (∀ id ∈ ids, VerifiesTo verify hash (blobOf id) id) →
    (encodeSuperBlobs (ids.map blobOf)).length < 2 ^ 64 →
    rawSignatureValidation s verify hash (encodeSuperBlobs (ids.map blobOf)) = .ok true

theorem quorum_accepted {storeState : IdentityStore.State} (hs : Sound storeState s)
    (hsuper : s.superWallet = true) {blobOf : Bytes32 → Bytes} {ids : List Bytes32}
    (hnodup : ids.Nodup) (hsigners : ids ⊆ signerList s) (hquorum : s.threshold.toNat ≤ ids.length)
    (hverify : ∀ id ∈ ids, VerifiesTo verify hash (blobOf id) id)
    (hsize : (encodeSuperBlobs (ids.map blobOf)).length < 2 ^ 64) :
    rawSignatureValidation s verify hash (encodeSuperBlobs (ids.map blobOf)) = .ok true := by
  rcases decode_encodeSuperBlobs hsize with ⟨htake, hdecode⟩
  rw [rawSignatureValidation_eq_true hs]
  unfold Accepts
  rw [if_pos hsuper, if_pos htake]
  refine ⟨ids.map blobOf, hdecode, ids, ?_, hnodup, ?_, ?_⟩
  · rw [List.forall₂_map_left_iff, List.forall₂_same]
    exact hverify
  · exact fun id hid => hs.signers.mem_signerList.mp (hsigners hid)
  · rw [List.length_map]
    exact hquorum

-- An identity that exists keeps a method.
theorem hasMethod_of_exists {storeEnv : IdentityStore.Env} {storeState : IdentityStore.State}
    {inputs : List Bytes} (hsound : IdentityStore.Sound storeEnv inputs storeState)
    (hexists : IdentityStore.identityExists storeState id = true) : HasMethod storeState id := by
  have hpresent := hsound.registry.present id hexists
  rcases List.exists_mem_of_length_pos hpresent.1 with ⟨methodId, hmem⟩
  exact ⟨methodId, (hsound.registry.listed id methodId).mp hmem⟩

/-- In every reachable state the signer list, the flags, the count and the threshold agree, and a
super wallet is not locked. -/
theorem signers_of_run (env : SystemEnv) (recoveryOperator initialOwner : Address)
    (store₀ : IdentityStore.State)
    (hdeploy : IdentityStore.deploy recoveryOperator initialOwner = .ok store₀)
    (before : List (Tx IdentityStore.Call)) (identityId_ : Bytes32) (wallet : State)
    (hinit : initialize_ (run (IdentityStore.step env.storeEnv) store₀ before) clone
      env.storeEnv.this identityId_ = .ok wallet) (txs : List (Tx Call)) (final : System)
    (hfinal : final =
      run (step env) ⟨run (IdentityStore.step env.storeEnv) store₀ before, wallet⟩ txs) :
    SignerSet final.wallet ∧
      (env.storeEnv.crypto.CollisionFree
          ((before ++ storeTxs txs).flatMap IdentityStore.hashedBy) →
        final.wallet.superWallet = true → Unlocked final.store final.wallet) := by
  have hs : Sound final.store final.wallet := by
    rw [hfinal]
    exact sound_of_run
      (t := ⟨run (IdentityStore.step env.storeEnv) store₀ before, wallet⟩) (.of_init hinit) txs
  refine ⟨hs.signers, fun hcf hsuper => ?_⟩
  have hstore : final.store =
      run (IdentityStore.step env.storeEnv) store₀ (before ++ storeTxs txs) := by
    rw [hfinal, run_store, ← run_append]
  have hsound := IdentityStore.run_sound hdeploy hcf
    fun tx htx p hp => List.mem_flatMap.mpr ⟨tx, htx, hp⟩
  rw [← hstore] at hsound
  constructor
  case quorum =>
    rw [length_signerList]
    exact (hs.signers.bounded hsuper).2.1
  case distinct => exact hs.signers.nodup_signerList
  case live =>
    exact fun id hid =>
      hasMethod_of_exists hsound (hs.known id (hs.signers.mem_signerList.mp hid))
  case accepted =>
    intro verify hash blobOf ids hnodup hsigners hquorum hverify hsize
    exact quorum_accepted hs hsuper hnodup hsigners hquorum hverify hsize

def toyEnv : SystemEnv := ⟨IdentityStore.toyEnv, ⟨0x1DA11, 0x4337⟩⟩

-- Three identities with a passkey each.
def superStore : List (Tx IdentityStore.Call) :=
  [⟨0xCA11, 100, .register 1 11 12⟩, ⟨0xCA11, 100, .register 2 21 22⟩,
    ⟨0xCA11, 100, .register 3 31 32⟩]

def toyWallet : State := { clone with initialized := true, store := 0x1D57, identityId := 1 }

def toySystem : System :=
  ⟨run (IdentityStore.step IdentityStore.toyEnv) IdentityStore.toyStore superStore, toyWallet⟩

theorem initialize_toyWallet :
    initialize_ toySystem.store clone IdentityStore.toyEnv.this 1 = .ok toyWallet := by
  have hexists : IdentityStore.identityExists toySystem.store 1 = true := by decide +kernel
  unfold initialize_
  rw [hexists]
  rfl

-- Two of three, after the wallet's own identity has left.
def superRun : List (Tx Call) :=
  [⟨0x1DA11, 200, .enableSuper [2, 3] 2⟩, ⟨0x1DA11, 201, .removeSigner 1⟩,
    ⟨0xCA11, 202, .store (.register 4 41 42)⟩, ⟨0x1DA11, 203, .addSigner 4⟩]

example : signerList (run (step toyEnv) toySystem superRun).wallet = [3, 2, 4] := by decide +kernel

-- Two of the three signers sign with their passkeys.
def superSignature (hash : Bytes32) : Bytes :=
  encodeSuperBlobs [IdentityStore.passkeyBlob IdentityStore.toyEnv 4 41 42 hash,
    IdentityStore.passkeyBlob IdentityStore.toyEnv 2 21 22 hash]

theorem acceptance_superRun :
    Accepts (IdentityStore.verify IdentityStore.toyEnv (run (step toyEnv) toySystem superRun).store)
      (run (step toyEnv) toySystem superRun).wallet 7 (superSignature 7) :=
  (acceptance_of_run toyEnv toySystem.store 1 toyWallet initialize_toyWallet superRun _ 7
    (superSignature 7)).mp (by decide +kernel)

theorem signers_superRun : SignerSet (run (step toyEnv) toySystem superRun).wallet ∧
    Unlocked (run (step toyEnv) toySystem superRun).store
      (run (step toyEnv) toySystem superRun).wallet := by
  have h := signers_of_run toyEnv 0x0BE0 0x0A11CE IdentityStore.toyStore rfl superStore 1 toyWallet
    initialize_toyWallet superRun _ rfl
  exact ⟨h.1, h.2 (by decide +kernel) (by decide +kernel)⟩

end OnchainInvoice.IdentityWallet
