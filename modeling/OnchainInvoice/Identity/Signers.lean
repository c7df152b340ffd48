import OnchainInvoice.Identity.Frames
import OnchainInvoice.Identity.IdentityWallet

/-!
# The signers of an `IdentityWallet`

`signerAt` below `signerCount` lists the signers: every operation on them keeps the list, the
`isSigner` flags, the count and the threshold in agreement.
-/

namespace OnchainInvoice.IdentityWallet

open Evm IdentityTypes Lib.Revert Lib.Runs Function

variable {storeState : IdentityStore.State} {s s' : State} {id : Bytes32}

/-! ## The search -/

theorem findSigner_some {signerAt : Uint8 → Bytes32} {count i : Uint8}
    (h : findSigner signerAt id count = some i) : i.toNat < count.toNat ∧ signerAt i = id := by
  have hmem := List.mem_of_find?_eq_some h
  have hfound := List.find?_some h
  rw [List.mem_map] at hmem
  rcases hmem with ⟨n, hn, rfl⟩
  rw [List.mem_range] at hn
  have hcount := count.isLt
  rw [BitVec.toNat_ofNat, Nat.mod_eq_of_lt (by omega)]
  exact ⟨hn, beq_iff_eq.mp hfound⟩

theorem findSigner_of_listed {signerAt : Uint8 → Bytes32} {count i : Uint8}
    (hi : i.toNat < count.toNat) (hid : signerAt i = id) :
    ∃ j, findSigner signerAt id count = some j := by
  rw [← Option.isSome_iff_exists]
  unfold findSigner
  rw [List.find?_isSome]
  refine ⟨i, List.mem_map.mpr ⟨i.toNat, List.mem_range.mpr hi, ?_⟩, beq_iff_eq.mpr hid⟩
  rw [BitVec.ofNat_toNat, BitVec.setWidth_eq]

/-! ## The invariant -/

structure SignerSet (s : State) : Prop where
  listed : ∀ id, s.isSigner id = true ↔
    ∃ i : Uint8, i.toNat < s.signerCount.toNat ∧ s.signerAt i = id
  distinct : ∀ i j : Uint8, i.toNat < s.signerCount.toNat → j.toNat < s.signerCount.toNat →
    s.signerAt i = s.signerAt j → i = j
  nonzero : s.isSigner 0 = false
  unused : ∀ i : Uint8, s.signerCount.toNat ≤ i.toNat → s.signerAt i = 0
  bounded : s.superWallet = true →
    1 ≤ s.threshold.toNat ∧ s.threshold.toNat ≤ s.signerCount.toNat ∧ s.signerCount.toNat ≤ 255

theorem SignerSet.findSigner_eq_some (h : SignerSet s) {i : Uint8} :
    findSigner s.signerAt id s.signerCount = some i ↔
      i.toNat < s.signerCount.toNat ∧ s.signerAt i = id := by
  apply Iff.intro findSigner_some
  intro hi
  rcases findSigner_of_listed hi.1 hi.2 with ⟨j, hj⟩
  have hlisted := findSigner_some hj
  rw [hj, h.distinct j i hlisted.1 hi.1 (hlisted.2.trans hi.2.symm)]

-- `signerAt[0..signerCount)`
def signerList (s : State) : List Bytes32 :=
  (List.range s.signerCount.toNat).map fun i => s.signerAt (BitVec.ofNat 8 i)

theorem length_signerList : (signerList s).length = s.signerCount.toNat := by
  rw [signerList, List.length_map, List.length_range]

theorem SignerSet.mem_signerList (h : SignerSet s) : id ∈ signerList s ↔ s.isSigner id = true := by
  have hmax := s.signerCount.isLt
  rw [h.listed, signerList, List.mem_map]
  apply Iff.intro
  · rintro ⟨n, hn, hid⟩
    rw [List.mem_range] at hn
    refine ⟨BitVec.ofNat 8 n, ?_, hid⟩
    rwa [BitVec.toNat_ofNat, Nat.mod_eq_of_lt (by omega)]
  · rintro ⟨i, hi, hid⟩
    refine ⟨i.toNat, List.mem_range.mpr hi, ?_⟩
    rwa [BitVec.ofNat_toNat, BitVec.setWidth_eq]

theorem SignerSet.nodup_signerList (h : SignerSet s) : (signerList s).Nodup := by
  have hmax := s.signerCount.isLt
  apply List.Nodup.map_on ?_ List.nodup_range
  intro m hm n hn hmn
  rw [List.mem_range] at hm hn
  have hround : ∀ k, k < s.signerCount.toNat → (BitVec.ofNat 8 k).toNat = k := by
    intro k hk
    rw [BitVec.toNat_ofNat, Nat.mod_eq_of_lt (by omega)]
  have hsame := h.distinct _ _ (by rwa [hround m hm]) (by rwa [hround n hn]) hmn
  rw [← hround m hm, ← hround n hn, hsame]

theorem SignerSet.clone : SignerSet clone where
  listed id := by simp [IdentityWallet.clone]
  distinct i j hi := absurd hi (Nat.not_lt_zero _)
  nonzero := rfl
  unused i _ := rfl
  bounded h := absurd h Bool.false_ne_true

/-! ## Adding a signer -/

def signerAdded (s : State) (id : Bytes32) : State :=
  { s with
    isSigner := update s.isSigner id true
    signerAt := update s.signerAt s.signerCount id
    signerCount := s.signerCount + 1 }

theorem addSignerInternal_eq_ok : addSignerInternal storeState s id = .ok s' ↔
    id ≠ 0 ∧ IdentityStore.identityExists storeState id = true ∧ s.isSigner id = false ∧
      s.signerCount.toNat + 1 < 256 ∧ s' = signerAdded s id := by
  unfold addSignerInternal
  simp only [bind_eq_ok, revertIf_eq_ok, checkedAdd_eq_ok, pure_eq_ok, exists_const,
    beq_eq_false_iff_ne, Bool.not_eq_false']
  apply Iff.intro
  · rintro ⟨hne, hexists, hnew, _, ⟨hfit, rfl⟩, rfl⟩
    exact ⟨hne, hexists, hnew, hfit, rfl⟩
  · rintro ⟨hne, hexists, hnew, hfit, rfl⟩
    exact ⟨hne, hexists, hnew, _, ⟨hfit, rfl⟩, rfl⟩

theorem SignerSet.added (h : SignerSet s) (hne : id ≠ 0) (hnew : s.isSigner id = false)
    (hfit : s.signerCount.toNat + 1 < 256) : SignerSet (signerAdded s id) := by
  have hcount : (s.signerCount + 1).toNat = s.signerCount.toNat + 1 := by
    rw [BitVec.toNat_add]
    exact Nat.mod_eq_of_lt hfit
  -- Nobody is listed under the new id yet.
  have hfresh : ∀ i : Uint8, i.toNat < s.signerCount.toNat → s.signerAt i ≠ id := by
    intro i hi hid
    have hsigner := (h.listed id).mpr ⟨i, hi, hid⟩
    rw [hnew] at hsigner
    cases hsigner
  have hold : ∀ i : Uint8, i.toNat < s.signerCount.toNat →
      update s.signerAt s.signerCount id i = s.signerAt i := by
    intro i hi
    apply update_of_ne
    rintro rfl
    omega
  have hlast : ∀ i : Uint8, i.toNat < s.signerCount.toNat + 1 →
      i.toNat < s.signerCount.toNat ∨ i = s.signerCount := by
    intro i hi
    rw [← BitVec.toNat_inj]
    omega
  constructor
  case listed =>
    intro x
    simp only [signerAdded, hcount, update_apply s.isSigner]
    apply Iff.intro
    · intro hx
      split at hx
      · rename_i heq
        exact ⟨s.signerCount, by omega, by rw [update_self, heq]⟩
      · rcases (h.listed x).mp hx with ⟨i, hi, rfl⟩
        exact ⟨i, by omega, hold i hi⟩
    · rintro ⟨i, hi, hid⟩
      split
      · rfl
      · rename_i hx
        rcases hlast i hi with hi' | rfl
        · rw [hold i hi'] at hid
          exact (h.listed x).mpr ⟨i, hi', hid⟩
        · rw [update_self] at hid
          exact absurd hid.symm hx
  case distinct =>
    intro i j hi hj hij
    simp only [signerAdded, hcount] at hi hj hij
    rcases hlast i hi with hi' | rfl <;> rcases hlast j hj with hj' | rfl
    · rw [hold i hi', hold j hj'] at hij
      exact h.distinct i j hi' hj' hij
    · rw [hold i hi', update_self] at hij
      exact absurd hij (hfresh i hi')
    · rw [hold j hj', update_self] at hij
      exact absurd hij.symm (hfresh j hj')
    · rfl
  case nonzero =>
    show update s.isSigner id true 0 = false
    rw [update_of_ne hne.symm]
    exact h.nonzero
  case unused =>
    intro i hi
    simp only [signerAdded, hcount] at hi
    show update s.signerAt s.signerCount id i = 0
    rw [update_of_ne]
    · exact h.unused i (by omega)
    · rintro rfl
      omega
  case bounded =>
    intro hsuper
    have hbounded := h.bounded hsuper
    simp only [signerAdded, hcount]
    omega

/-! ## Removing a signer -/

def signerRemoved (s : State) (id : Bytes32) : State :=
  { s with
    isSigner := update s.isSigner id false
    signerAt := dropSigner s.signerAt id s.signerCount (s.signerCount - 1)
    signerCount := s.signerCount - 1 }

theorem SignerSet.removed (h : SignerSet s) (hsigner : s.isSigner id = true)
    (hmore : s.superWallet = true → s.threshold.toNat < s.signerCount.toNat) :
    SignerSet (signerRemoved s id) := by
  rcases (h.listed id).mp hsigner with ⟨k, hk, hid⟩
  have hlast : (s.signerCount - 1).toNat = s.signerCount.toNat - 1 := by
    have hone : (1 : Uint8).toNat = 1 := rfl
    rw [BitVec.toNat_sub_of_le (BitVec.le_def.mpr (by omega)), hone]
  -- The last entry moves to the place `k` of the signer.
  have hat : ∀ i : Uint8, i.toNat < s.signerCount.toNat - 1 → (signerRemoved s id).signerAt i =
      if i = k then s.signerAt (s.signerCount - 1) else s.signerAt i := by
    intro i hi
    have hne : i ≠ s.signerCount - 1 := by
      rintro rfl
      omega
    simp only [signerRemoved, dropSigner, h.findSigner_eq_some.mpr ⟨hk, hid⟩, update_of_ne hne,
      update_apply]
  have hend : ∀ i : Uint8, i.toNat = s.signerCount.toNat - 1 → i = s.signerCount - 1 := by
    intro i hi
    rw [← BitVec.toNat_inj, hlast, hi]
  constructor
  case listed =>
    intro x
    show update s.isSigner id false x = true ↔
      ∃ i : Uint8, i.toNat < (s.signerCount - 1).toNat ∧ (signerRemoved s id).signerAt i = x
    rw [update_apply, hlast]
    apply Iff.intro
    · intro hx
      split at hx
      · cases hx
      · rename_i hne
        rcases (h.listed x).mp hx with ⟨i, hi, rfl⟩
        have hik : i ≠ k := by
          rintro rfl
          exact hne hid
        by_cases hi' : i.toNat < s.signerCount.toNat - 1
        · exact ⟨i, hi', by rw [hat i hi', if_neg hik]⟩
        · have hi := hend i (by omega)
          have hk' : k.toNat < s.signerCount.toNat - 1 := by
            rw [← BitVec.toNat_inj.ne, hi] at hik
            omega
          exact ⟨k, hk', by rw [hat k hk', if_pos rfl, hi]⟩
    · rintro ⟨i, hi, hx⟩
      rw [hat i hi] at hx
      split at hx
      · rename_i heq
        have hne : x ≠ id := by
          intro hxid
          rw [heq] at hi
          have hsame := h.distinct _ k (by omega) hk (hx.trans (hxid.trans hid.symm))
          rw [← hsame] at hi
          omega
        rw [if_neg hne]
        exact (h.listed x).mpr ⟨_, by omega, hx⟩
      · rename_i hik
        have hne : x ≠ id := by
          intro hxid
          exact hik (h.distinct i k (by omega) hk (hx.trans (hxid.trans hid.symm)))
        rw [if_neg hne]
        exact (h.listed x).mpr ⟨i, by omega, hx⟩
  case distinct =>
    intro i j hi hj hij
    replace hi : i.toNat < s.signerCount.toNat - 1 := hlast ▸ hi
    replace hj : j.toNat < s.signerCount.toNat - 1 := hlast ▸ hj
    rw [hat i hi, hat j hj] at hij
    by_cases hik : i = k <;> by_cases hjk : j = k
    · rw [hik, hjk]
    · rw [if_pos hik, if_neg hjk] at hij
      have hsame := h.distinct _ j (by omega) (by omega) hij
      rw [← hsame] at hj
      omega
    · rw [if_neg hik, if_pos hjk] at hij
      have hsame := h.distinct i _ (by omega) (by omega) hij
      rw [hsame] at hi
      omega
    · rw [if_neg hik, if_neg hjk] at hij
      exact h.distinct i j (by omega) (by omega) hij
  case nonzero =>
    show update s.isSigner id false 0 = false
    rw [update_apply]
    split
    · rfl
    · exact h.nonzero
  case unused =>
    intro i hi
    replace hi : s.signerCount.toNat - 1 ≤ i.toNat := hlast ▸ hi
    simp only [signerRemoved, dropSigner, h.findSigner_eq_some.mpr ⟨hk, hid⟩, update_apply]
    split
    · rfl
    · rename_i hne
      have hi' : s.signerCount.toNat ≤ i.toNat := by
        by_contra hlt
        exact hne (hend i (by omega))
      rw [if_neg]
      · exact h.unused i hi'
      · rintro rfl
        omega
  case bounded =>
    intro hsuper
    have hbounded := h.bounded hsuper
    have hmore' := hmore hsuper
    show 1 ≤ s.threshold.toNat ∧ s.threshold.toNat ≤ (s.signerCount - 1).toNat ∧
      (s.signerCount - 1).toNat ≤ 255
    omega

/-! ## Transactions -/

-- What every call keeps, together with the store the signers are registered in.
structure Sound (storeState : IdentityStore.State) (s : State) : Prop where
  initialized : s.initialized = true
  own : s.identityId ≠ 0
  signers : SignerSet s
  known : ∀ id, s.isSigner id = true → IdentityStore.identityExists storeState id = true

theorem Sound.of_init {store_ : Address} {identityId_ : Bytes32}
    (h : initialize_ storeState clone store_ identityId_ = .ok s) : Sound storeState s := by
  simp only [initialize_, bind_eq_ok, revertIf_eq_ok, pure_eq_ok, exists_const,
    beq_eq_false_iff_ne] at h
  rcases h with ⟨-, -, hne, -, rfl⟩
  exact ⟨rfl, hne, ⟨SignerSet.clone.listed, SignerSet.clone.distinct, rfl, SignerSet.clone.unused,
    SignerSet.clone.bounded⟩, fun _ h => absurd h Bool.false_ne_true⟩

theorem Sound.addSignerInternal (h : Sound storeState s)
    (hok : addSignerInternal storeState s id = .ok s') : Sound storeState s' := by
  rcases addSignerInternal_eq_ok.mp hok with ⟨hne, hexists, hnew, hfit, rfl⟩
  refine ⟨h.initialized, h.own, h.signers.added hne hnew hfit, ?_⟩
  intro x hx
  simp only [signerAdded, update_apply] at hx
  split at hx
  · rename_i heq
    rw [heq]
    exact hexists
  · exact h.known x hx

theorem Sound.enableSuper {env : Env} {sender : Address} {extraIdentities : List Bytes32}
    {threshold_ : Uint8} (h : Sound storeState s)
    (hok : enableSuper env storeState s sender extraIdentities threshold_ = .ok s') :
    Sound storeState s' := by
  simp only [IdentityWallet.enableSuper, bind_eq_ok, revertIf_eq_ok, pure_eq_ok, exists_const,
    decide_eq_false_iff_not, BitVec.lt_def, Nat.not_lt] at hok
  rcases hok with ⟨-, -, -, hone, s₁, hown, s₂, hextra, hle, rfl⟩
  have h₂ : Sound storeState s₂ :=
    foldlM_invariant (fun _ _ _ _ hq hok => hq.addSignerInternal hok)
      (h.addSignerInternal hown) hextra
  have hmax := s₂.signerCount.isLt
  exact ⟨h₂.initialized, h₂.own, ⟨h₂.signers.listed, h₂.signers.distinct, h₂.signers.nonzero,
    h₂.signers.unused, fun _ => ⟨hone, hle, by omega⟩⟩, h₂.known⟩

theorem Sound.removeSigner {env : Env} {sender : Address} (h : Sound storeState s)
    (hok : removeSigner env s sender id = .ok s') : Sound storeState s' := by
  simp only [IdentityWallet.removeSigner, bind_eq_ok, revertIf_eq_ok, pure_eq_ok, exists_const,
    Bool.not_eq_false', decide_eq_false_iff_not, BitVec.le_def, Nat.not_le] at hok
  rcases hok with ⟨-, -, -, hsigner, hmore, last, hlast, count, hcount, rfl⟩
  have hsame : count = s.signerCount := by
    have hone : (1 : Uint8).toNat = 1 := rfl
    have hsub := toNat_of_checkedSub hlast
    have hadd := toNat_of_checkedAdd hcount
    rw [← BitVec.toNat_inj]
    omega
  have hdiff : last = s.signerCount - 1 := (checkedSub_eq_ok.mp hlast).2.symm
  rw [hsame, hdiff]
  refine ⟨h.initialized, h.own, h.signers.removed hsigner fun _ => hmore, ?_⟩
  intro x hx
  simp only [update_apply] at hx
  split at hx
  · cases hx
  · exact h.known x hx

theorem Sound.setThreshold {env : Env} {sender : Address} {threshold_ : Uint8}
    (h : Sound storeState s) (hok : setThreshold env s sender threshold_ = .ok s') :
    Sound storeState s' := by
  simp only [IdentityWallet.setThreshold, bind_eq_ok, revertIf_eq_ok, pure_eq_ok, exists_const,
    Bool.or_eq_false_iff, decide_eq_false_iff_not, BitVec.lt_def, Nat.not_lt] at hok
  rcases hok with ⟨-, -, -, ⟨hone, hle⟩, rfl⟩
  have hmax := s.signerCount.isLt
  exact ⟨h.initialized, h.own, ⟨h.signers.listed, h.signers.distinct, h.signers.nonzero,
    h.signers.unused, fun _ => ⟨hone, hle, by omega⟩⟩, h.known⟩

variable {env : SystemEnv} {t t' : System} {tx : Tx Call}

theorem walletCall_eq_ok {result : Except Error State} :
    walletCall t result = .ok t' ↔ ∃ w, result = .ok w ∧ t' = { t with wallet := w } := by
  unfold walletCall
  simp only [bind_eq_ok, pure_eq_ok, @eq_comm _ t']

theorem storeCall_eq_ok {stx : Tx IdentityStore.Call} : storeCall env t stx = .ok t' ↔
    ∃ store, IdentityStore.step env.storeEnv t.store stx = .ok store ∧
      t' = { t with store := store } := by
  unfold storeCall
  simp only [bind_eq_ok, pure_eq_ok, @eq_comm _ t']

theorem Sound.step (h : Sound t.store t.wallet) (hok : step env t tx = .ok t') :
    Sound t'.store t'.wallet := by
  unfold IdentityWallet.step at hok
  cases hcall : tx.call with
  | initialize_ store_ identityId_ =>
    simp only [hcall, walletCall_eq_ok, initialize_, bind_eq_ok, revertIf_eq_ok] at hok
    rcases hok with ⟨_, ⟨_, hfirst, -⟩, -⟩
    rw [h.initialized] at hfirst
    cases hfirst
  | enableSuper extraIdentities threshold_ =>
    simp only [hcall, walletCall_eq_ok] at hok
    rcases hok with ⟨w, hw, rfl⟩
    exact h.enableSuper hw
  | addSigner signerId =>
    simp only [hcall, walletCall_eq_ok, addSigner, bind_eq_ok] at hok
    rcases hok with ⟨w, ⟨_, -, _, -, hw⟩, rfl⟩
    exact h.addSignerInternal hw
  | removeSigner signerId =>
    simp only [hcall, walletCall_eq_ok] at hok
    rcases hok with ⟨w, hw, rfl⟩
    exact h.removeSigner hw
  | setThreshold threshold_ =>
    simp only [hcall, walletCall_eq_ok] at hok
    rcases hok with ⟨w, hw, rfl⟩
    exact h.setThreshold hw
  | store call =>
    simp only [hcall, storeCall_eq_ok] at hok
    rcases hok with ⟨store, hstore, rfl⟩
    exact ⟨h.initialized, h.own, h.signers, fun id hid =>
      (IdentityStore.step_effect hstore).keeps_exists (h.known id hid)⟩

theorem sound_of_run (h : Sound t.store t.wallet) (txs : List (Tx Call)) :
    Sound (run (step env) t txs).store (run (step env) t txs).wallet :=
  run_invariant (I := fun t : System => Sound t.store t.wallet)
    (fun _ _ _ hs hok => hs.step hok) h txs

-- The transactions that reach the store.
def storeTxs (txs : List (Tx Call)) : List (Tx IdentityStore.Call) :=
  txs.filterMap fun tx =>
    match tx.call with
    | .store call => some ⟨tx.sender, tx.timestamp, call⟩
    | _ => none

/-- The store of the system is the store alone, run on its own transactions. -/
theorem run_store (t : System) (txs : List (Tx Call)) : (run (step env) t txs).store =
    run (IdentityStore.step env.storeEnv) t.store (storeTxs txs) := by
  induction txs generalizing t with
  | nil => rfl
  | cons tx txs ih =>
    rw [run_cons, ih]
    unfold commit step
    cases hcall : tx.call with
    | store call =>
      simp only [storeTxs, List.filterMap_cons, hcall, run_cons]
      congr 1
      unfold commit storeCall
      cases IdentityStore.step env.storeEnv t.store ⟨tx.sender, tx.timestamp, call⟩ <;> rfl
    | _ =>
      simp only [storeTxs, List.filterMap_cons, hcall]
      congr 1
      simp only [walletCall, bind, Except.bind]
      split
      · rename_i hok
        split at hok
        · cases hok
        · cases hok
          rfl
      · rfl

end OnchainInvoice.IdentityWallet
