import OnchainInvoice.Wallet.Owners

/-!
# The recovery timelock

The deadline of a proposed owner is kept in a `uint64`, while the timelock is any `uint256`.  As
long as every deadline fits, an execution comes at least the timelock after the proposal it carries
out, and nothing has cancelled, carried out or replaced that proposal in between.
-/

namespace OnchainInvoice.Wallet

open Evm AdvancedWalletTypes WalletEip712 P256OwnerRegistry AdvancedWalletMixin Lib.Revert Lib.Runs

variable {env : Env} {s s' s₀ : State} {tx : Tx Call}

/-! ## One transaction -/

-- What a successful proposal stores.
def proposed (env : Env) (timelock : Uint256) (timestamp : Uint256) (qx qy : Bytes32) :
    PendingOwner where
  qx := qx
  qy := qy
  executableAt := uint64 (timestamp + timelock)
  requestId := recoveryRequestId env qx qy timestamp
  active := true

theorem Effect.pendingOwner_cases (he : Effect env s tx s') :
    s'.pendingOwner = s.pendingOwner ∨ s'.pendingOwner.active = false ∨
      ∃ qx qy, tx.call = .recoveryAddOwner qx qy ∧
        tx.timestamp.toNat + s.recoveryTimelock.toNat < 2 ^ 256 ∧
        s'.pendingOwner = proposed env s.recoveryTimelock tx.timestamp qx qy := by
  cases he with
  | recoveryAddOwner qx qy hcall hsimple hsender hidle hfit =>
    exact .inr (.inr ⟨qx, qy, hcall, hfit, rfl⟩)
  | enableAdvanced | executePendingOwner | cancelPendingOwner | cancelPendingOwnerWithSignature =>
    exact .inr (.inl rfl)
  | initialize_ | policy | owners | setPaused | authorizeRecoveryUpdate => exact .inl rfl

def Cancels : Call → Prop
  | .cancelPendingOwner => True
  | .cancelPendingOwnerWithSignature _ => True
  | _ => False

-- The calls that store a pending owner or take it away.
def Settles : Call → Prop
  | .recoveryAddOwner _ _ => True
  | .executePendingOwner => True
  | call => Cancels call

theorem Effect.settles (he : Effect env s tx s') (h : Settles tx.call) :
    s.pendingOwner.active = false ∨ s'.pendingOwner.active = false := by
  cases he with
  | recoveryAddOwner qx qy hcall hsimple hsender hidle => exact .inl hidle
  | cancelPendingOwner | cancelPendingOwnerWithSignature | enableAdvanced | executePendingOwner =>
    exact .inr rfl
  | policy policy hauth hpaused hchange =>
    generalize tx.call = call at h hchange
    cases hchange <;> cases h
  | owners registry hauth hpaused hsimple hchange =>
    generalize tx.call = call at h hchange
    cases hchange <;> cases h
  | setPaused paused hcall =>
    rcases hcall with hcall | hcall <;> rw [hcall] at h <;> cases h
  | initialize_ _ _ _ _ _ hcall | authorizeRecoveryUpdate _ hcall =>
    rw [hcall] at h
    cases h

-- The initialisation sets the timelock for good.
def Locked (timelock : Uint256) (s : State) : Prop :=
  s.initialized = true ∧ s.recoveryTimelock = timelock

theorem Effect.locked {timelock : Uint256} (he : Effect env s tx s') (hs : Locked timelock s) :
    Locked timelock s' := by
  cases he with
  | initialize_ _ _ _ _ _ _ hfirst =>
    rw [hs.1] at hfirst
    cases hfirst
  | _ => exact hs

theorem locked_of_init {qx qy : Bytes32} {recoveryContract : Address} {timelock : Uint256}
    (hcall : tx.call = .initialize_ qx qy recoveryContract timelock)
    (h : step env clone tx = .ok s) : Locked timelock s := by
  simp only [step, hcall, initialize_, bind_eq_ok, revertIf_eq_ok, pure_eq_ok, exists_const] at h
  rcases h with ⟨-, -, registry, -, rfl⟩
  exact ⟨rfl, rfl⟩

/-- The stored deadline is the timelock after the proposal exactly when it fits in a `uint64`. -/
theorem executableAt_proposed {timelock timestamp : Uint256} {qx qy : Bytes32}
    (hfit : timestamp.toNat + timelock.toNat < 2 ^ 256) :
    (proposed env timelock timestamp qx qy).executableAt.toNat =
        timestamp.toNat + timelock.toNat ↔ timestamp.toNat + timelock.toNat < 2 ^ 64 := by
  show (BitVec.setWidth 64 (timestamp + timelock)).toNat = _ ↔ _
  rw [BitVec.toNat_setWidth, BitVec.toNat_add, Nat.mod_eq_of_lt hfit]
  omega

/-! ## Runs -/

-- `exec` adds the key that `propose` stored at least `timelock` seconds earlier. What `propose`
-- stored is pending ever since: nobody has cancelled it, carried it out or proposed another key.
def CarriesOut (env : Env) (timelock : Nat) (s₀ : State) (pre : List (Tx Call)) (exec : Tx Call)
    (s' : State) : Prop :=
  ∃ before propose mid qx qy s₁, pre = before ++ propose :: mid ∧
    propose.call = .recoveryAddOwner qx qy ∧
    step env (run (step env) s₀ before) propose = .ok s₁ ∧
    (run (step env) s₀ pre).pendingOwner = s₁.pendingOwner ∧
    addOwnerKey env (run (step env) s₀ pre).registry qx qy = .ok s'.registry ∧
    (∀ m₁ other m₂, mid = m₁ ++ other :: m₂ →
      Succeeds (step env) (run (step env) s₁ m₁) other → ¬Settles other.call) ∧
    propose.timestamp.toNat + timelock ≤ exec.timestamp.toNat

def Timelocked (env : Env) (timelock : Nat) (s₀ : State) (txs : List (Tx Call)) : Prop :=
  ∀ pre exec post s', txs = pre ++ exec :: post → exec.call = .executePendingOwner →
    step env (run (step env) s₀ pre) exec = .ok s' → CarriesOut env timelock s₀ pre exec s'

def DeadlinesFit (env : Env) (timelock : Nat) (s₀ : State) (txs : List (Tx Call)) : Prop :=
  ∀ pre propose post qx qy, txs = pre ++ propose :: post → propose.call = .recoveryAddOwner qx qy →
    Succeeds (step env) (run (step env) s₀ pre) propose →
      propose.timestamp.toNat + timelock < 2 ^ 64

theorem executePendingOwner_ok (hcall : tx.call = .executePendingOwner)
    (h : step env s tx = .ok s') : s.pendingOwner.active = true ∧
      s.pendingOwner.executableAt.toNat ≤ tx.timestamp.toNat ∧
      addOwnerKey env s.registry s.pendingOwner.qx s.pendingOwner.qy = .ok s'.registry := by
  cases step_effect h with
  | executePendingOwner registry hcall' hsimple hactive hready hadd => exact ⟨hactive, hready, hadd⟩
  | policy policy hauth hpaused hchange =>
    rw [hcall] at hchange
    cases hchange
  | owners registry hauth hpaused hsimple hchange =>
    rw [hcall] at hchange
    cases hchange
  | _ => simp_all

/-- In a run whose deadlines fit, every execution waits for the timelock of its own proposal. -/
theorem timelocked_of_run (env : Env) (tx₀ : Tx Call) (qx qy : Bytes32)
    (recoveryContract : Address) (recoveryTimelock : Uint256) (s₀ : State)
    (hcall : tx₀.call = .initialize_ qx qy recoveryContract recoveryTimelock)
    (hinit : step env clone tx₀ = .ok s₀) (txs : List (Tx Call))
    (hfits : DeadlinesFit env recoveryTimelock.toNat s₀ txs) :
    Timelocked env recoveryTimelock.toNat s₀ txs := by
  intro pre exec post s' htxs hexec hok
  rcases executePendingOwner_ok hexec hok with ⟨hactive, hready, hadd⟩
  have hidle : ¬s₀.pendingOwner = (run (step env) s₀ pre).pendingOwner := by
    intro heq
    rw [← heq, (initialize_eq_ok hcall hinit).2] at hactive
    cases hactive
  -- The pending owner got there by one call and has been there ever since.
  rcases exists_rise
      (P := fun s : State => s.pendingOwner = (run (step env) s₀ pre).pendingOwner) hidle rfl
    with ⟨before, propose, s₁, mid, hpre, hnew, hpropose, hstored, hkept⟩
  have hlocked : Locked recoveryTimelock (run (step env) s₀ before) :=
    run_invariant (I := Locked recoveryTimelock) (fun _ _ _ hs hok => (step_effect hok).locked hs)
      (locked_of_init hcall hinit) before
  rcases (step_effect hpropose).pendingOwner_cases with hsame | hoff | ⟨qx', qy', hkind, hfit, hset⟩
  · exact absurd (hsame.symm.trans hstored) hnew
  · rw [hstored, hactive] at hoff
    cases hoff
  · rw [hlocked.2] at hfit hset
    have hbound : propose.timestamp.toNat + recoveryTimelock.toNat < 2 ^ 64 :=
      hfits before propose (mid ++ exec :: post) qx' qy' (by simp [htxs, hpre]) hkind ⟨s₁, hpropose⟩
    have hpending := hstored.symm.trans hset
    refine ⟨before, propose, mid, qx', qy', s₁, hpre, hkind, hpropose, hstored.symm, ?_, ?_, ?_⟩
    · rw [hpending] at hadd
      exact hadd
    · rintro m₁ other m₂ hmid ⟨s₂, hother⟩ hsettles
      have hearlier := hkept m₁ ⟨other :: m₂, hmid.symm⟩
      have hlater := hkept (m₁ ++ [other]) ⟨m₂, by simp [hmid]⟩
      rw [run_concat, commit_of_ok hother] at hlater
      rcases (step_effect hother).settles hsettles with hoff | hoff
      · rw [hearlier, hactive] at hoff
        cases hoff
      · rw [hlater, hactive] at hoff
        cases hoff
    · rw [hpending, (executableAt_proposed hfit).mpr hbound] at hready
      exact hready

theorem timelocked_ownersRun : Timelocked toyEnv 100 (toyWallet 11 12) ownersRun := by
  apply timelocked_of_run toyEnv (toyInitialize 11 12) 11 12 0x6EC 100 (toyWallet 11 12) rfl rfl
  intro pre propose post qx qy htxs _ _
  have hmem : propose ∈ ownersRun := by simp [htxs]
  have hclock : ∀ tx ∈ ownersRun, tx.timestamp.toNat + (100 : Uint256).toNat < 2 ^ 64 := by decide
  exact hclock propose hmem

-- A timelock of `2 ^ 64` seconds is cut down to none.
def longTimelock : Tx Call := ⟨0xFAC, 100, .initialize_ 11 12 0x6EC (2 ^ 64)⟩

def longWallet : State := { toyWallet 11 12 with recoveryTimelock := 2 ^ 64 }

def earlyRun : List (Tx Call) :=
  [⟨0x6EC, 300, .recoveryAddOwner 31 32⟩, ⟨0xFAC, 300, .executePendingOwner⟩]

/-- The proposed key becomes an owner in the second of its proposal. -/
theorem executed_at_once : step toyEnv clone longTimelock = .ok longWallet ∧
    (run (step toyEnv) longWallet earlyRun).registry.owners (ownerId toyEnv 31 32) = true ∧
    ¬Timelocked toyEnv (2 ^ 64) longWallet earlyRun := by
  refine ⟨rfl, by decide +kernel, ?_⟩
  intro htimelocked
  have hsucceeds : Succeeds (step toyEnv) (run (step toyEnv) longWallet
      [⟨0x6EC, 300, .recoveryAddOwner 31 32⟩]) ⟨0xFAC, 300, .executePendingOwner⟩ := by
    decide +kernel
  rcases hsucceeds with ⟨s', hok⟩
  rcases htimelocked [⟨0x6EC, 300, .recoveryAddOwner 31 32⟩] ⟨0xFAC, 300, .executePendingOwner⟩ []
    s' rfl rfl hok with ⟨before, propose, mid, _, _, _, hpre, -, -, -, -, -, hwait⟩
  have hmem : propose ∈ [(⟨0x6EC, 300, .recoveryAddOwner 31 32⟩ : Tx Call)] := by
    rw [hpre]
    simp
  rw [List.mem_singleton.mp hmem] at hwait
  exact absurd hwait (by decide)

end OnchainInvoice.Wallet
