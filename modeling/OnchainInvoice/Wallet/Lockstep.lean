import OnchainInvoice.Wallet.AdminGuardianRecovery
import OnchainInvoice.Wallet.Lockout

/-!
# Pause and pending owner

A wallet whose recovery contract is an `AdminGuardianRecovery` is paused exactly while a proposal
is pending: the guardian's call sets the two together, the execution and the owner's cancellation
clear them together, and nothing else moves either.  A matured proposal can be executed exactly when
the proposed key is not an owner yet.
-/

namespace OnchainInvoice.Wallet

open Evm AdvancedWalletTypes WalletEip712 P256OwnerRegistry AdvancedWalletMixin Lib.Revert

variable {env : Env} {s s' : State} {tx : Tx Call} {recovery : Address}

/-! ## The wallet's side -/

structure Lockstep (recovery : Address) (s : State) : Prop where
  initialized : s.initialized = true
  paused_iff : s.paused = true ↔ s.pendingOwner.active = true
  simple : s.policy.advanced = false → s.recoveryContract = recovery
  advanced : s.policy.advanced = true → s.paused = false ∧ s.recoveryContract = 0
  pending : s.pendingOwner.active = true → pendingKey s ≠ ⟨0, 0⟩

theorem Lockstep.inactive (hs : Lockstep recovery s) (hpaused : s.paused = false) :
    s.pendingOwner.active = false := by
  rw [← Bool.not_eq_true, ← hs.paused_iff, hpaused]
  exact Bool.false_ne_true

theorem Lockstep.not_advanced (hs : Lockstep recovery s) (hpaused : s.paused = true) :
    s.policy.advanced = false := by
  rw [← Bool.not_eq_true]
  intro hadv
  rw [(hs.advanced hadv).1] at hpaused
  cases hpaused

-- The ways in which a pending proposal ends.
inductive Ends (env : Env) (s : State) (call : Call) : Prop
  | executed (hcall : call = .executePendingOwner) (registry : OwnerRegistry)
      (hadd : addOwnerKey env s.registry s.pendingOwner.qx s.pendingOwner.qy = .ok registry)
  | cancelled (signature : Bytes) (hcall : call = .cancelPendingOwnerWithSignature signature)
      (hsig : validateAnyOwner env s.registry (cancelDigest env s.pendingOwner.requestId)
        signature = true)

-- What a call can do to the pair, short of a proposal.
inductive Moves (env : Env) (s : State) (call : Call) (s' : State) : Prop
  | stays (hpaused : s'.paused = s.paused) (hpending : s'.pendingOwner = s.pendingOwner)
      (hfrozen : s.paused = true → s'.registry = s.registry ∧ s'.policy = s.policy)
  | cleared (hends : Ends env s call) (hbefore : s.paused = true) (hpaused : s'.paused = false)
      (hpending : s'.pendingOwner.active = false)

-- The calls by which a recovery contract sets or clears one half of the pair.
def MovesHalf : Call → Prop
  | .pause => True
  | .unpause => True
  | .recoveryAddOwner _ _ => True
  | _ => False

theorem Lockstep.policy {policy : Policy} (hs : Lockstep recovery s) (hpaused : s.paused = false)
    (h : PolicyChange env s.policy tx.call policy) :
    Lockstep recovery { s with policy := policy } where
  initialized := hs.initialized
  paused_iff := hs.paused_iff
  simple hsimple := by
    have hadv := stable_policyChange (advanced_stable env) h (advanced_of_policyChange h)
    rw [show policy.advanced = false from hsimple] at hadv
    cases hadv
  advanced _ := ⟨hpaused, (hs.advanced (advanced_of_policyChange h)).2⟩
  pending := hs.pending

/-- Only the recovery contract can pull the pair apart. -/
theorem Effect.lockstep (he : Effect env s tx s') (hs : Lockstep recovery s)
    (hcaller : tx.sender = recovery → ¬MovesHalf tx.call) :
    Lockstep recovery s' ∧ Moves env s tx.call s' := by
  cases he with
  | initialize_ _ _ _ _ _ _ hfirst =>
    rw [hs.initialized] at hfirst
    cases hfirst
  | enableAdvanced admin policy hcall hauth hpaused hok =>
    have hidle : disableRecovery { s with policy := policy } =
        { s with policy := policy, recoveryContract := 0 } := by
      have hpending : ({ s.pendingOwner with active := false } : PendingOwner) = s.pendingOwner := by
        rw [← hs.inactive hpaused]
      show ({ s with policy := policy, recoveryContract := 0, pendingOwner := _ } : State) = _
      rw [hpending]
    have hadv : policy.advanced = true := by
      rcases enableAdvanced_ok hok with ⟨-, -, p₁, hregister, hmigrate⟩
      exact stable_migrate (advanced_stable env) hmigrate
        ((advanced_stable env).registerEntity rfl hregister)
    rw [hidle]
    refine ⟨⟨hs.initialized, hs.paused_iff, fun hsimple => ?_, fun _ => ⟨hpaused, rfl⟩, hs.pending⟩,
      .stays rfl rfl fun h => ?_⟩
    · rw [show policy.advanced = false from hsimple] at hadv
      cases hadv
    · rw [hpaused] at h
      cases h
  | policy policy hauth hpaused h =>
    refine ⟨hs.policy hpaused h, .stays rfl rfl fun hp => ?_⟩
    rw [hpaused] at hp
    cases hp
  | owners registry hauth hpaused hsimple h =>
    refine ⟨⟨hs.initialized, hs.paused_iff, hs.simple, hs.advanced, hs.pending⟩,
      .stays rfl rfl fun hp => ?_⟩
    rw [hpaused] at hp
    cases hp
  | setPaused paused hcall hsimple hsender =>
    rw [hs.simple hsimple] at hsender
    apply absurd ?_ (hcaller hsender)
    rcases hcall with hcall | hcall <;> rw [hcall] <;> trivial
  | authorizeRecoveryUpdate metadata hcall hsimple hsender =>
    exact ⟨⟨hs.initialized, hs.paused_iff, hs.simple, hs.advanced, hs.pending⟩,
      .stays rfl rfl fun _ => ⟨rfl, rfl⟩⟩
  | recoveryAddOwner qx qy hcall hsimple hsender hidle hfit =>
    rw [hs.simple hsimple] at hsender
    apply absurd ?_ (hcaller hsender)
    rw [hcall]
    trivial
  | executePendingOwner registry hcall hsimple hactive hready hadd =>
    refine ⟨⟨hs.initialized, Iff.rfl, hs.simple, fun hadv => ⟨rfl, (hs.advanced hadv).2⟩, ?_⟩,
      .cleared (.executed hcall registry hadd) (hs.paused_iff.mpr hactive) rfl rfl⟩
    exact fun h => absurd h Bool.false_ne_true
  | cancelPendingOwner hcall hsimple hactive hpaused =>
    rw [hs.inactive hpaused] at hactive
    cases hactive
  | cancelPendingOwnerWithSignature signature hcall hsimple hactive hpaused hsig =>
    refine ⟨⟨hs.initialized, Iff.rfl, hs.simple, fun hadv => ⟨rfl, (hs.advanced hadv).2⟩, ?_⟩,
      .cleared (.cancelled signature hcall hsig) hpaused rfl rfl⟩
    exact fun h => absurd h Bool.false_ne_true

theorem lockstep_of_init {qx qy : Bytes32} {recoveryTimelock : Uint256}
    (hcall : tx.call = .initialize_ qx qy recovery recoveryTimelock)
    (h : step env clone tx = .ok s) : Lockstep recovery s := by
  simp only [step, hcall, initialize_, bind_eq_ok, revertIf_eq_ok, pure_eq_ok, exists_const] at h
  rcases h with ⟨-, -, registry, -, rfl⟩
  refine ⟨rfl, Iff.rfl, fun _ => rfl, ?_, ?_⟩ <;> exact fun h => absurd h Bool.false_ne_true

/-! ## While a proposal is pending -/

-- The calls of the owners' side: they run for the entry point or the wallet itself.
def OwnerSide : Call → Prop
  | .initialize_ .. | .pause | .unpause | .authorizeRecoveryUpdate _ | .recoveryAddOwner _ _
  | .executePendingOwner | .cancelPendingOwner | .cancelPendingOwnerWithSignature _ => False
  | _ => True

-- No user operation is valid, no batch runs, and the owners' side is closed to every caller.
structure Frozen (env : Env) (s : State) : Prop where
  signature : ∀ hash signature, rawSignatureValidation env s hash signature = .ok false
  executor : ∀ caller, erc7821AuthorizedExecutor env s caller = false
  ownerSide : ∀ tx s', OwnerSide tx.call → step env s tx ≠ .ok s'

theorem frozen_of_paused (hpaused : s.paused = true) : Frozen env s where
  signature hash signature := by
    unfold rawSignatureValidation
    rw [if_pos hpaused]
  executor caller := by
    unfold erc7821AuthorizedExecutor
    rw [if_pos hpaused]
  ownerSide tx s' hside hok := by
    cases step_effect hok with
    | enableAdvanced _ _ _ _ h => exact absurd hpaused (by simp [h])
    | policy _ _ h => exact absurd hpaused (by simp [h])
    | owners _ _ h => exact absurd hpaused (by simp [h])
    | setPaused _ hcall =>
      rcases hcall with hcall | hcall <;> rw [hcall] at hside <;> exact hside
    | initialize_ _ _ _ _ _ hcall | authorizeRecoveryUpdate _ hcall | recoveryAddOwner _ _ hcall
    | executePendingOwner _ hcall | cancelPendingOwner hcall
    | cancelPendingOwnerWithSignature _ hcall =>
      rw [hcall] at hside
      exact hside

end OnchainInvoice.Wallet

namespace OnchainInvoice.AdminGuardianRecovery

open Evm AdvancedWalletTypes P256OwnerRegistry Wallet Lib.Revert Lib.Runs

variable {env : Env} {s s' : System} {tx : Tx Call}

/-! ## What one transaction does to the wallet -/

-- The recovery contract calls out of its own functions only.
def External (env : Env) (txs : List (Tx Call)) : Prop := ∀ tx ∈ txs, tx.sender ≠ env.this

instance (env : Env) (txs : List (Tx Call)) : Decidable (External env txs) :=
  inferInstanceAs (Decidable (∀ tx ∈ txs, _))

theorem onWallet_eq_ok {result : Except AdvancedWalletTypes.Error Wallet.State} :
    onWallet s result = .ok s' ↔ ∃ w, result = .ok w ∧ s' = { s with wallet := w } := by
  unfold onWallet
  simp only [bind_eq_ok, mapError_eq_ok, pure_eq_ok, @eq_comm _ s']

-- The guardian's call as it reaches the wallet: the wallet is paused first.
def Initiated (env : Env) (s : System) (tx : Tx Call) (w : Wallet.State) : Prop :=
  tx.sender = s.recovery.guardian ∧ ∃ qx qy, ¬(qx = 0 ∧ qy = 0) ∧
    Wallet.recoveryAddOwner env.wallet { s.wallet with paused := true } env.this tx.timestamp
      qx qy = .ok w

/-- A transaction leaves the wallet alone, makes one call to it, or is a proposal. -/
theorem step_wallet (h : step env s tx = .ok s') (hsender : tx.sender ≠ env.this) :
    s'.wallet = s.wallet ∨ Initiated env s tx s'.wallet ∨
      ∃ wtx : Tx Wallet.Call, Wallet.step env.wallet s.wallet wtx = .ok s'.wallet ∧
        (wtx.sender = env.this → ¬MovesHalf wtx.call) ∧
        ((∃ signature, wtx.call = .cancelPendingOwnerWithSignature signature) →
          tx.call = .wallet wtx.call) := by
  unfold step at h
  cases hcall : tx.call with
  | setGuardian guardian_ =>
    simp only [hcall, setGuardian, bind_eq_ok, pure_eq_ok] at h
    rcases h with ⟨_, -, rfl⟩
    exact .inl rfl
  | transferOwnership newOwner =>
    simp only [hcall, transferOwnership, bind_eq_ok, pure_eq_ok] at h
    rcases h with ⟨_, -, _, -, rfl⟩
    exact .inl rfl
  | renounceOwnership =>
    simp only [hcall, renounceOwnership, bind_eq_ok, pure_eq_ok] at h
    rcases h with ⟨_, -, rfl⟩
    exact .inl rfl
  | initiateOwnerRecovery wallet newOwnerPubkey =>
    simp only [hcall, initiateOwnerRecovery, onlyGuardian, bind_eq_ok, revertIf_eq_ok,
      orRevert_eq_ok, exists_const, bne_eq_false_iff_eq] at h
    rcases h with ⟨hguardian, -, qx, -, qy, -, hkey, htarget⟩
    unfold onTarget at htarget
    split at htarget
    · rcases onWallet_eq_ok.mp htarget with ⟨w, hw, rfl⟩
      simp only [Wallet.pause, bind_eq_ok, pure_eq_ok] at hw
      rcases hw with ⟨_, ⟨_, -, rfl⟩, hadd⟩
      exact .inr (.inl ⟨hguardian, qx, qy, by simpa using hkey, hadd⟩)
    · cases htarget
      exact .inl rfl
  | executeOwnerRecovery wallet =>
    simp only [hcall, executeOwnerRecovery, onTarget, bind_eq_ok, revertIf_eq_ok, exists_const] at h
    split at h
    · rcases onWallet_eq_ok.mp h.2 with ⟨w, hw, rfl⟩
      refine .inr (.inr ⟨⟨env.this, tx.timestamp, .executePendingOwner⟩, hw, fun _ hm => hm, ?_⟩)
      rintro ⟨_, hcancel⟩
      cases hcancel
    · cases h.2
      exact .inl rfl
  | authorizeRecoveryUpdate wallet update =>
    simp only [hcall, authorizeRecoveryUpdate, onTarget, bind_eq_ok, revertIf_eq_ok,
      exists_const] at h
    rcases h with ⟨_, -, -, h⟩
    split at h
    · rcases onWallet_eq_ok.mp h with ⟨w, hw, rfl⟩
      refine .inr (.inr ⟨⟨env.this, tx.timestamp, .authorizeRecoveryUpdate update⟩, hw,
        fun _ hm => hm, ?_⟩)
      rintro ⟨_, hcancel⟩
      cases hcancel
    · cases h
      exact .inl rfl
  | wallet call =>
    simp only [hcall] at h
    rcases onWallet_eq_ok.mp h with ⟨w, hw, rfl⟩
    exact .inr (.inr ⟨⟨tx.sender, tx.timestamp, call⟩, hw, fun heq => absurd heq hsender,
      fun _ => rfl⟩)

-- The pair is set by the guardian's proposal and cleared as a whole.
inductive PairMoves (env : Env) (s : System) (tx : Tx Call) (s' : System) : Prop
  | proposed (hguardian : tx.sender = s.recovery.guardian) (hidle : s.wallet.paused = false)
      (hpaused : s'.wallet.paused = true) (hactive : s'.wallet.pendingOwner.active = true)
  | moves (call : Wallet.Call) (h : Moves env.wallet s.wallet call s'.wallet)
      (hcancel : (∃ signature, call = .cancelPendingOwnerWithSignature signature) →
        tx.call = .wallet call)

theorem step_lockstep (h : step env s tx = .ok s') (hsender : tx.sender ≠ env.this)
    (hs : Lockstep env.this s.wallet) : Lockstep env.this s'.wallet ∧ PairMoves env s tx s' := by
  rcases step_wallet h hsender with hsame | ⟨hguardian, qx, qy, hkey, hadd⟩ |
    ⟨wtx, hw, hcaller, hcancel⟩
  · rw [hsame]
    have hstays : Moves env.wallet s.wallet .executePendingOwner s'.wallet := by
      refine .stays ?_ ?_ fun _ => ⟨?_, ?_⟩ <;> rw [hsame]
    refine ⟨hs, .moves _ hstays ?_⟩
    rintro ⟨_, hcancel⟩
    cases hcancel
  · simp only [Wallet.recoveryAddOwner, bind_eq_ok, onlyRecovery_eq_ok, revertIf_eq_ok, pure_eq_ok,
      exists_const] at hadd
    rcases hadd with ⟨⟨hsimple, -⟩, hidle, executableAt, -, hset⟩
    have hunpaused : s.wallet.paused = false := by
      rw [← Bool.not_eq_true, hs.paused_iff, hidle]
      exact Bool.false_ne_true
    rw [← hset]
    refine ⟨⟨hs.initialized, iff_of_true rfl rfl, hs.simple, fun hadv => ?_, fun _ heq => ?_⟩,
      .proposed hguardian hunpaused (by rw [← hset]) (by rw [← hset])⟩
    · rw [show s.wallet.policy.advanced = true from hadv] at hsimple
      cases hsimple
    · cases heq
      exact hkey ⟨rfl, rfl⟩
  · rcases (step_effect hw).lockstep hs hcaller with ⟨hs', hmoves⟩
    exact ⟨hs', .moves wtx.call hmoves hcancel⟩

theorem lockstep_of_steps {txs : List (Tx Call)} (hs : Lockstep env.this s.wallet)
    (hext : External env txs) : Lockstep env.this (run (step env) s txs).wallet :=
  run_invariant_of_mem (I := fun s : System => Lockstep env.this s.wallet)
    (fun _ _ _ hmem hs hok => (step_lockstep hok (hext _ hmem) hs).1) hs

-- Advanced mode is for good.
theorem advanced_of_steps {txs : List (Tx Call)} (hext : External env txs)
    (hadv : s.wallet.policy.advanced = true) :
    (run (step env) s txs).wallet.policy.advanced = true := by
  refine run_invariant_of_mem (I := fun s : System => s.wallet.policy.advanced = true)
    (fun s tx s' hmem hs hok => ?_) hadv
  rcases step_wallet hok (hext tx hmem) with hsame | ⟨-, qx, qy, -, hadd⟩ | ⟨wtx, hw, -⟩
  · rw [hsame]
    exact hs
  · simp only [Wallet.recoveryAddOwner, bind_eq_ok, onlyRecovery_eq_ok] at hadd
    rcases hadd with ⟨-, ⟨hsimple, -⟩, -⟩
    rw [hs] at hsimple
    cases hsimple
  · exact (step_effect hw).stable (advanced_stable env.wallet) hs

/-! ## Runs -/

/-- In every run pause and pending owner are set and cleared together, an advanced wallet has
neither for ever, and while a proposal is pending the owners' side and the signature check are
closed. -/
theorem lockstep_of_run (env : Env) (recovery : State) (tx₀ : Tx Wallet.Call) (qx qy : Bytes32)
    (recoveryTimelock : Uint256) (wallet : Wallet.State)
    (hcall : tx₀.call = .initialize_ qx qy env.this recoveryTimelock)
    (hinit : Wallet.step env.wallet Wallet.clone tx₀ = .ok wallet) (txs : List (Tx Call))
    (hext : External env txs) :
    Lockstep env.this (run (step env) ⟨recovery, wallet⟩ txs).wallet ∧
    (∀ tx s', tx.sender ≠ env.this → step env (run (step env) ⟨recovery, wallet⟩ txs) tx = .ok s' →
      PairMoves env (run (step env) ⟨recovery, wallet⟩ txs) tx s') ∧
    ((run (step env) ⟨recovery, wallet⟩ txs).wallet.policy.advanced = true →
      ∀ more, External env more →
        (run (step env) ⟨recovery, wallet⟩ (txs ++ more)).wallet.policy.advanced = true ∧
        (run (step env) ⟨recovery, wallet⟩ (txs ++ more)).wallet.paused = false ∧
        (run (step env) ⟨recovery, wallet⟩ (txs ++ more)).wallet.pendingOwner.active = false ∧
        (run (step env) ⟨recovery, wallet⟩ (txs ++ more)).wallet.recoveryContract = 0) ∧
    ((run (step env) ⟨recovery, wallet⟩ txs).wallet.pendingOwner.active = true →
      Frozen env.wallet (run (step env) ⟨recovery, wallet⟩ txs).wallet) := by
  have hs₀ : Lockstep env.this wallet := lockstep_of_init hcall hinit
  have hs : Lockstep env.this (run (step env) ⟨recovery, wallet⟩ txs).wallet :=
    lockstep_of_steps (s := ⟨recovery, wallet⟩) hs₀ hext
  refine ⟨hs, fun tx s' hsender hok => (step_lockstep hok hsender hs).2, ?_, ?_⟩
  · intro hadv more hmore
    rw [run_append]
    have hadv' := advanced_of_steps hmore hadv
    have hs' := lockstep_of_steps hs hmore
    exact ⟨hadv', (hs'.advanced hadv').1, hs'.inactive (hs'.advanced hadv').1,
      (hs'.advanced hadv').2⟩
  · intro hactive
    exact frozen_of_paused (hs.paused_iff.mpr hactive)

-- The wallet of the deployment knows the recovery contract under `0x6EC`.
def toyEnv : Env := ⟨0x6EC, Wallet.toyEnv, fun account => account == Wallet.toyEnv.this⟩

def toySystem : System := ⟨⟨0xAD, 0x6A⟩, toyWallet 11 12⟩

def initiate (timestamp : Uint256) (qx qy : Bytes32) : Tx Call :=
  ⟨0x6A, timestamp, .initiateOwnerRecovery Wallet.toyEnv.this (encodeWords [qx, qy])⟩

-- A recovery runs to its end, and the wallet then enters the advanced mode.
def recoveryRun : List (Tx Call) :=
  [initiate 300 31 32, ⟨0xFAC, 350, .executeOwnerRecovery Wallet.toyEnv.this⟩,
    ⟨0xFAC, 400, .executeOwnerRecovery Wallet.toyEnv.this⟩,
    ⟨Wallet.toyEnv.this, 500, .wallet (.enableAdvanced 1)⟩]

theorem lockstep_recoveryRun : Lockstep 0x6EC (run (step toyEnv) toySystem recoveryRun).wallet :=
  (lockstep_of_run toyEnv ⟨0xAD, 0x6A⟩ (toyInitialize 11 12) 11 12 100 (toyWallet 11 12) rfl rfl
    recoveryRun (by decide)).1

/-! ## Matured proposals -/

-- What `_addOwnerKey` will ask for beyond the check that the proposal has passed.
def Executable (env : WalletEip712.Env) (s : Wallet.State) : Prop :=
  s.registry.owners (ownerId env s.pendingOwner.qx s.pendingOwner.qy) = false ∧
    s.registry.ownerCount.toNat + 1 < 2 ^ 256

instance (env : WalletEip712.Env) (s : Wallet.State) : Decidable (Executable env s) :=
  inferInstanceAs (Decidable (_ ∧ _))

theorem executable_of_ok {env : WalletEip712.Env} {wallet w : Wallet.State} {timestamp : Uint256}
    (h : Wallet.executePendingOwner env wallet timestamp = .ok w) : Executable env wallet := by
  simp only [Wallet.executePendingOwner, bind_eq_ok, addOwnerKey_eq_ok] at h
  rcases h with ⟨_, -, _, -, _, -, _, ⟨-, hnew, hfit, -⟩, -⟩
  exact ⟨hnew, hfit⟩

theorem executePendingOwner_iff {wallet : Wallet.State} {timestamp : Uint256}
    (hs : Lockstep env.this wallet) (hactive : wallet.pendingOwner.active = true)
    (hready : wallet.pendingOwner.executableAt.toNat ≤ timestamp.toNat) :
    (∃ w, Wallet.executePendingOwner env.wallet wallet timestamp = .ok w ∧ w.paused = false ∧
      w.pendingOwner.active = false) ↔ Executable env.wallet wallet := by
  have hsimple := hs.not_advanced (hs.paused_iff.mpr hactive)
  apply Iff.intro
  · rintro ⟨w, hok, -⟩
    exact executable_of_ok hok
  · rintro ⟨hnew, hfit⟩
    unfold Wallet.executePendingOwner
    simp only [bind_eq_ok, revertIf_eq_ok, addOwnerKey_eq_ok, pure_eq_ok, exists_const,
      Bool.not_eq_false', decide_eq_false_iff_not, Nat.not_lt]
    have hkey : ¬(wallet.pendingOwner.qx = 0 ∧ wallet.pendingOwner.qy = 0) := by
      rintro ⟨hqx, hqy⟩
      exact hs.pending hactive (by rw [pendingKey, hqx, hqy])
    exact ⟨_, ⟨hsimple, hactive, hready, _, ⟨hkey, hnew, hfit, rfl⟩, rfl⟩, rfl, rfl⟩

-- No call asks for a cancellation on an owner's signature.
def Uncancelled (txs : List (Tx Call)) : Prop :=
  ∀ tx ∈ txs, ∀ signature, tx.call ≠ .wallet (.cancelPendingOwnerWithSignature signature)

/-- A proposal that cannot be executed stays: it can be neither executed nor replaced, by the
guardian or anyone else. -/
theorem stuck_of_steps {txs : List (Tx Call)} (hs : Lockstep env.this s.wallet)
    (hactive : s.wallet.pendingOwner.active = true) (hstuck : ¬Executable env.wallet s.wallet)
    (hext : External env txs) (hno : Uncancelled txs) :
    (run (step env) s txs).wallet.paused = true ∧
      (run (step env) s txs).wallet.pendingOwner = s.wallet.pendingOwner ∧
      ¬Executable env.wallet (run (step env) s txs).wallet := by
  have hI : Lockstep env.this (run (step env) s txs).wallet ∧
      (run (step env) s txs).wallet.pendingOwner = s.wallet.pendingOwner ∧
      (run (step env) s txs).wallet.registry = s.wallet.registry := by
    refine run_invariant_of_mem (I := fun t : System => Lockstep env.this t.wallet ∧
      t.wallet.pendingOwner = s.wallet.pendingOwner ∧ t.wallet.registry = s.wallet.registry)
      ?_ ⟨hs, rfl, rfl⟩
    rintro t tx t' hmem ⟨ht, hpending, hregistry⟩ hok
    have hpaused : t.wallet.paused = true := by
      rw [ht.paused_iff, hpending]
      exact hactive
    rcases step_lockstep hok (hext tx hmem) ht with ⟨ht', hmoves⟩
    rcases hmoves with ⟨-, hidle⟩ | ⟨call, hmoves, hcancel⟩
    · rw [hpaused] at hidle
      cases hidle
    · rcases hmoves with ⟨-, hsame, hfrozen⟩ | ⟨hends, -⟩
      · exact ⟨ht', hsame.trans hpending, (hfrozen hpaused).1.trans hregistry⟩
      · cases hends with
        | executed hcall registry hadd =>
          rcases addOwnerKey_eq_ok.mp hadd with ⟨-, hnew, hfit, -⟩
          rw [hpending, hregistry] at hnew
          rw [hregistry] at hfit
          exact absurd ⟨hnew, hfit⟩ hstuck
        | cancelled signature hcall =>
          exact absurd (hcall ▸ hcancel ⟨signature, hcall⟩) (hno tx hmem signature)
  rcases hI with ⟨hs', hpending, hregistry⟩
  refine ⟨?_, hpending, ?_⟩
  · rw [hs'.paused_iff, hpending]
    exact hactive
  · unfold Executable
    rw [hpending, hregistry]
    exact hstuck

/-- A matured proposal executes exactly when its key is not an owner yet and the owner count does
not overflow. -/
theorem matured_executes_iff (env : Env) (recovery : State) (tx₀ : Tx Wallet.Call)
    (qx qy : Bytes32) (recoveryTimelock : Uint256) (wallet : Wallet.State)
    (hcall : tx₀.call = .initialize_ qx qy env.this recoveryTimelock)
    (hinit : Wallet.step env.wallet Wallet.clone tx₀ = .ok wallet) (txs : List (Tx Call))
    (hext : External env txs) (timestamp : Uint256)
    (hactive : (run (step env) ⟨recovery, wallet⟩ txs).wallet.pendingOwner.active = true)
    (hready : (run (step env) ⟨recovery, wallet⟩ txs).wallet.pendingOwner.executableAt.toNat ≤
      timestamp.toNat) :
    (∃ w, Wallet.executePendingOwner env.wallet (run (step env) ⟨recovery, wallet⟩ txs).wallet
        timestamp = .ok w ∧ w.paused = false ∧ w.pendingOwner.active = false) ↔
      Executable env.wallet (run (step env) ⟨recovery, wallet⟩ txs).wallet :=
  executePendingOwner_iff
    (lockstep_of_steps (s := ⟨recovery, wallet⟩) (lockstep_of_init hcall hinit) hext) hactive hready

theorem matured_executes_proposal :
    ∃ w, Wallet.executePendingOwner Wallet.toyEnv
      (run (step toyEnv) toySystem [initiate 300 31 32]).wallet 400 = .ok w ∧ w.paused = false ∧
      w.pendingOwner.active = false :=
  (matured_executes_iff toyEnv ⟨0xAD, 0x6A⟩ (toyInitialize 11 12) 11 12 100 (toyWallet 11 12) rfl rfl
    [initiate 300 31 32] (by decide) 400 (by decide +kernel) (by decide +kernel)).mpr
    (by decide +kernel)

-- The guardian proposes the owner the wallet already has.
def stuckSystem : System := run (step toyEnv) toySystem [initiate 300 11 12]

/-- From then on the wallet is paused with a proposal that no call executes at any time, and only an
owner's signature ends it. -/
theorem proposed_owner_is_stuck : stuckSystem.wallet.pendingOwner.active = true ∧
    stuckSystem.wallet.pendingOwner.executableAt = 400 ∧
    ∀ txs, External toyEnv txs → Uncancelled txs →
      (run (step toyEnv) stuckSystem txs).wallet.paused = true ∧
      (run (step toyEnv) stuckSystem txs).wallet.pendingOwner = stuckSystem.wallet.pendingOwner ∧
      ∀ timestamp w, Wallet.executePendingOwner toyEnv.wallet
        (run (step toyEnv) stuckSystem txs).wallet timestamp ≠ .ok w := by
  have hinit : Wallet.step Wallet.toyEnv Wallet.clone (toyInitialize 11 12) =
      .ok (toyWallet 11 12) := rfl
  have hs : Lockstep toyEnv.this stuckSystem.wallet :=
    lockstep_of_steps (s := toySystem) (lockstep_of_init rfl hinit) (by decide)
  have hactive : stuckSystem.wallet.pendingOwner.active = true := by decide +kernel
  have hknown : ¬Executable toyEnv.wallet stuckSystem.wallet := by decide +kernel
  refine ⟨hactive, by decide +kernel, ?_⟩
  intro txs hext hno
  rcases stuck_of_steps hs hactive hknown hext hno with ⟨hpaused, hpending, hnever⟩
  exact ⟨hpaused, hpending, fun timestamp w hok => hnever (executable_of_ok hok)⟩

end OnchainInvoice.AdminGuardianRecovery
