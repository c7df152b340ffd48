import OnchainInvoice.Factory.Factories
import OnchainInvoice.Wallet.Effects

/-!
# Whose wallet is at a counterfactual address

The address of a wallet depends on the salt alone, so it is the first `createAccount` that reaches
the address, whoever sends it, that decides what the wallet is initialised with.
-/

namespace OnchainInvoice.Factories

open Evm AdvancedWalletTypes P256OwnerRegistry Lib.Revert Lib.Runs Function

variable {env : Env} {s s' : State} {tx : Tx Call}

/-! ## Beneficiaries -/

-- What a wallet answers to: an identity, or the key of its first owner.
inductive Beneficiary
  | identity (identityId : Bytes32)
  | owner (key : OwnerKey)
deriving DecidableEq

def Account.beneficiary : Account → Option Beneficiary
  | .identityWallet w => some (.identity w.identityId)
  | .wallet w => w.registry.ownerIds.head?.map fun id => .owner (w.registry.ownerKeys id)

def factoryAddress (env : Env) (b : Beneficiary) (salt : Bytes32) : Address :=
  match b with
  | .identity _ => IdentityWalletFactory.predictAddress env salt
  | .owner _ => WalletFactory.predictAddress env salt

-- The beneficiary and the salt that a `createAccount` passes.
def Call.creation : Call → Option (Beneficiary × Bytes32)
  | .createIdentityAccount identityId salt => some (.identity identityId, salt)
  | .createAccount qx qy salt => some (.owner ⟨qx, qy⟩, salt)
  | _ => none

-- The salt commerce derives; only identities have an index.
def derivedSalt (env : Env) (b : Beneficiary) (index : Uint256) : Bytes32 :=
  match b with
  | .identity identityId => WalletAddress.deriveIdentityWalletSalt env.crypto identityId index
  | .owner key => WalletAddress.deriveWalletSalt env.crypto key.qx key.qy

-- The address commerce predicts for it.
def derivedAddress (env : Env) (b : Beneficiary) (index : Uint256) : Address :=
  match b with
  | .identity _ => WalletAddress.predictWalletAddress env.crypto env.identityWalletFactory
      env.identityWalletImplementation (derivedSalt env b index)
  | .owner _ => WalletAddress.predictWalletAddress env.crypto env.walletFactory
      env.walletImplementation (derivedSalt env b index)

/-! ## One transaction -/

@[simp] theorem deployClone_code (s : State) (a : Address) (account : Account) :
    (deployClone s a account).code a = some account :=
  update_self ..

theorem deployClone_code_of_ne {a wallet : Address} {account : Account} (h : a ≠ wallet) :
    (deployClone s wallet account).code a = s.code a :=
  update_of_ne h ..

theorem identityCreateAccount_ok {identityId salt : Bytes32}
    (h : IdentityWalletFactory.createAccount env s identityId salt = .ok s') :
    (s.code (IdentityWalletFactory.predictAddress env salt) ≠ none ∧ s' = s) ∨
      ∃ account, account.beneficiary = some (.identity identityId) ∧
        s.code (IdentityWalletFactory.predictAddress env salt) = none ∧
        s' = deployClone s (IdentityWalletFactory.predictAddress env salt) account := by
  unfold IdentityWalletFactory.createAccount IdentityWallet.initialize_ at h
  simp only [bind_eq_ok, revertIf_eq_ok, exists_const] at h
  rcases h with ⟨-, h⟩
  split at h
  · rename_i hempty
    simp only [bind_eq_ok, mapError_eq_ok, revertIf_eq_ok, exists_const, pure_eq_ok] at h
    rcases h with ⟨_, ⟨-, -, -, -, rfl⟩, rfl⟩
    exact .inr ⟨_, rfl, Option.isNone_iff_eq_none.mp hempty, rfl⟩
  · rename_i hcode
    exact .inl ⟨fun hnone => hcode (Option.isNone_iff_eq_none.mpr hnone), (pure_eq_ok.mp h).symm⟩

theorem walletCreateAccount_ok {qx qy salt : Bytes32}
    (h : WalletFactory.createAccount env s qx qy salt = .ok s') :
    (s.code (WalletFactory.predictAddress env salt) ≠ none ∧ s' = s) ∨
      ∃ account, account.beneficiary = some (.owner ⟨qx, qy⟩) ∧
        s.code (WalletFactory.predictAddress env salt) = none ∧
        s' = deployClone s (WalletFactory.predictAddress env salt) account := by
  unfold WalletFactory.createAccount Wallet.initialize_ at h
  simp only at h
  split at h
  · rename_i hempty
    simp only [bind_eq_ok, mapError_eq_ok, revertIf_eq_ok, exists_const, pure_eq_ok,
      addOwnerKey_eq_ok] at h
    rcases h with ⟨_, ⟨-, -, registry, ⟨-, -, -, rfl⟩, rfl⟩, rfl⟩
    refine .inr ⟨_, ?_, Option.isNone_iff_eq_none.mp hempty, rfl⟩
    simp [Account.beneficiary, ownerAdded, storeOwnerKey, OwnerRegistry.empty, Wallet.clone]
  · rename_i hcode
    exact .inl ⟨fun hnone => hcode (Option.isNone_iff_eq_none.mpr hnone), (pure_eq_ok.mp h).symm⟩

/-- A successful `createAccount` leaves a wallet where there is one and puts one of its own
beneficiary where there is none. -/
theorem step_creation {b : Beneficiary} {salt : Bytes32} (hcall : tx.call.creation = some (b, salt))
    (h : step env s tx = .ok s') :
    (s.code (factoryAddress env b salt) ≠ none ∧ s' = s) ∨
      ∃ account, account.beneficiary = some b ∧ s.code (factoryAddress env b salt) = none ∧
        s' = deployClone s (factoryAddress env b salt) account := by
  unfold step at h
  cases hkind : tx.call with
  | createIdentityAccount identityId salt' =>
    rw [hkind] at hcall h
    cases hcall
    exact identityCreateAccount_ok h
  | createAccount qx qy salt' =>
    rw [hkind] at hcall h
    cases hcall
    exact walletCreateAccount_ok h
  | setRecoveryImpl | setRecoveryTimelock | store =>
    rw [hkind] at hcall
    cases hcall

/-- No other call deploys a wallet. -/
theorem step_other (hcall : tx.call.creation = none) (h : step env s tx = .ok s') :
    s'.code = s.code := by
  unfold step at h
  cases hkind : tx.call with
  | createIdentityAccount | createAccount =>
    rw [hkind] at hcall
    cases hcall
  | setRecoveryImpl recoveryImpl =>
    simp only [hkind, WalletFactory.setRecoveryImpl, bind_eq_ok, pure_eq_ok] at h
    rcases h with ⟨_, -, _, -, rfl⟩
    rfl
  | setRecoveryTimelock recoveryTimelock =>
    simp only [hkind, WalletFactory.setRecoveryTimelock, bind_eq_ok, pure_eq_ok] at h
    rcases h with ⟨_, -, rfl⟩
    rfl
  | store call =>
    simp only [hkind, storeCall, bind_eq_ok, pure_eq_ok] at h
    rcases h with ⟨_, -, rfl⟩
    rfl

/-! ## Runs -/

variable {a : Address} {account : Account}

-- A wallet stays where it is, as it was initialised.
theorem step_keeps (h : step env s tx = .ok s') (ha : s.code a = some account) :
    s'.code a = some account := by
  cases hcall : tx.call.creation with
  | none => rw [step_other hcall h, ha]
  | some creation =>
    rcases creation with ⟨b, salt⟩
    rcases step_creation hcall h with ⟨-, rfl⟩ | ⟨_, -, hempty, rfl⟩
    · exact ha
    · have hne : a ≠ factoryAddress env b salt := by
        intro heq
        rw [heq, hempty] at ha
        cases ha
      rw [deployClone_code_of_ne hne, ha]

theorem run_keeps (ha : s.code a = some account) (txs : List (Tx Call)) :
    (run (step env) s txs).code a = some account :=
  run_invariant (I := fun s : State => s.code a = some account)
    (fun _ _ _ hs h => step_keeps h hs) ha txs

/-- The wallet at an address is of the beneficiary of the `createAccount` that found the address
empty. -/
theorem created_by {txs : List (Tx Call)} (hempty : s.code a = none)
    (ha : (run (step env) s txs).code a = some account) :
    ∃ pre tx post b salt, txs = pre ++ tx :: post ∧ tx.call.creation = some (b, salt) ∧
      factoryAddress env b salt = a ∧ (run (step env) s pre).code a = none ∧
      Succeeds (step env) (run (step env) s pre) tx ∧ account.beneficiary = some b := by
  rcases exists_rise (P := fun s : State => s.code a ≠ none) (not_not.mpr hempty)
    (by rw [ha]; exact Option.some_ne_none account) with
    ⟨pre, tx, s', post, htxs, hbefore, hok, hafter, -⟩
  rw [not_not] at hbefore
  cases hcall : tx.call.creation with
  | none =>
    rw [step_other hcall hok, hbefore] at hafter
    exact absurd rfl hafter
  | some creation =>
    rcases creation with ⟨b, salt⟩
    rcases step_creation hcall hok with ⟨-, rfl⟩ | ⟨created, hcreated, -, rfl⟩
    · exact absurd hbefore hafter
    · have hat : factoryAddress env b salt = a := by
        by_contra hne
        apply hafter
        rw [deployClone_code_of_ne (Ne.symm hne), hbefore]
      refine ⟨pre, tx, post, b, salt, htxs, hcall, hat, hbefore, ⟨_, hok⟩, ?_⟩
      have hkept : (run (step env) s txs).code a = some created := by
        rw [htxs, run_split hok]
        apply run_keeps
        rw [hat, deployClone_code]
      rw [ha] at hkept
      cases hkept
      exact hcreated

-- Any wallet at the derived address is of the beneficiary it was derived for.
def Belongs (env : Env) (s : State) (b : Beneficiary) (index : Uint256) : Prop :=
  ∀ account, s.code (derivedAddress env b index) = some account → account.beneficiary = some b

-- The successful `createAccount` that finds the derived address empty names that beneficiary.
def FirstNames (env : Env) (s₀ : State) (txs : List (Tx Call)) (b : Beneficiary)
    (index : Uint256) : Prop :=
  ∀ pre tx post b' salt, txs = pre ++ tx :: post → tx.call.creation = some (b', salt) →
    factoryAddress env b' salt = derivedAddress env b index →
    (run (step env) s₀ pre).code (derivedAddress env b index) = none →
    Succeeds (step env) (run (step env) s₀ pre) tx → b' = b

/-- A counterfactual address belongs to the identity or the key it was derived for exactly when the
first `createAccount` that reaches it says so. -/
theorem belongs_iff_first_names (env : Env) (store : IdentityStore.State)
    (owner recoveryImpl : Address) (recoveryTimelock : Uint256) (txs : List (Tx Call))
    (b : Beneficiary) (index : Uint256) :
    Belongs env (run (step env) (deployed store owner recoveryImpl recoveryTimelock) txs) b index ↔
      FirstNames env (deployed store owner recoveryImpl recoveryTimelock) txs b index := by
  apply Iff.intro
  · rintro hbelongs pre tx post b' salt htxs hcall haddress hempty ⟨s', hok⟩
    rcases step_creation hcall hok with ⟨hcode, -⟩ | ⟨account, haccount, -, rfl⟩
    · rw [haddress] at hcode
      exact absurd hempty hcode
    · have hkept := hbelongs account (by
        rw [htxs, run_split hok]
        apply run_keeps
        rw [haddress, deployClone_code])
      rw [haccount] at hkept
      exact Option.some.inj hkept
  · intro hfirst account haccount
    rcases created_by rfl haccount with ⟨pre, tx, post, b', salt, htxs, hcall, haddress, hempty,
      hok, hbeneficiary⟩
    rw [hbeneficiary, hfirst pre tx post b' salt htxs hcall haddress hempty hok]

def toyEnv : Env := ⟨Crypto.toy, 8453, 0x4337, 0x5704E, 0xFAC1, 0xC1, 0xFAC2, 0xC2⟩

def toyChain : State := deployed (IdentityStore.deployed 0x0FE 0x0DD) 0x0DD 0x6EC 100

-- The second party is first at both addresses of the first one, whose calls then succeed as well.
def squattedRun : List (Tx Call) :=
  [⟨0xA1, 100, .store (.register 1 11 12)⟩, ⟨0xA2, 100, .store (.register 2 21 22)⟩,
    ⟨0xA2, 200, .createIdentityAccount 2 (derivedSalt toyEnv (.identity 1) 0)⟩,
    ⟨0xA2, 200, .createAccount 21 22 (derivedSalt toyEnv (.owner ⟨11, 12⟩) 0)⟩,
    ⟨0xA1, 300, .createIdentityAccount 1 (derivedSalt toyEnv (.identity 1) 0)⟩,
    ⟨0xA1, 300, .createAccount 11 12 (derivedSalt toyEnv (.owner ⟨11, 12⟩) 0)⟩]

/-- Both counterfactual addresses can be taken by someone else. -/
theorem counterfactual_address_taken :
    ¬Belongs toyEnv (run (step toyEnv) toyChain squattedRun) (.identity 1) 0 ∧
      ¬Belongs toyEnv (run (step toyEnv) toyChain squattedRun) (.owner ⟨11, 12⟩) 0 := by
  have hidentity : ((run (step toyEnv) toyChain squattedRun).code
      (derivedAddress toyEnv (.identity 1) 0)).bind Account.beneficiary = some (.identity 2) := by
    decide +kernel
  have howner : ((run (step toyEnv) toyChain squattedRun).code
      (derivedAddress toyEnv (.owner ⟨11, 12⟩) 0)).bind Account.beneficiary =
        some (.owner ⟨21, 22⟩) := by
    decide +kernel
  apply And.intro
  · intro hbelongs
    rcases Option.bind_eq_some_iff.mp hidentity with ⟨account, hcode, hbeneficiary⟩
    rw [hbelongs account hcode] at hbeneficiary
    exact absurd hbeneficiary (by decide)
  · intro hbelongs
    rcases Option.bind_eq_some_iff.mp howner with ⟨account, hcode, hbeneficiary⟩
    rw [hbelongs account hcode] at hbeneficiary
    exact absurd hbeneficiary (by decide)

end OnchainInvoice.Factories
