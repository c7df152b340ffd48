import OnchainInvoice.Wallet.Migration

/-!
# The owner list

The list, the map, the keys and the count of the owners are linked in every state of a clone, from
before its initialisation on.  Once it is initialised there is an owner.
-/

namespace OnchainInvoice.P256OwnerRegistry

open Evm AdvancedWalletTypes WalletEip712 Lib.SwapPop Function

variable {env : Env} {r : OwnerRegistry} {qx qy : Bytes32}

theorem not_removeOwnerKey_empty : ¬removeOwnerKey env OwnerRegistry.empty qx qy = .ok r := by
  intro hok
  exact absurd (removeOwnerKey_eq_ok.mp hok).1 Bool.false_ne_true

end OnchainInvoice.P256OwnerRegistry

namespace OnchainInvoice.Wallet

open Evm AdvancedWalletTypes WalletEip712 P256OwnerRegistry AdvancedWalletMixin Lib.Revert Lib.Runs

variable {env : Env} {s s' : State} {tx : Tx Call}

/-! ## One transaction -/

/-- A wallet without owners is not initialised yet. -/
def Standing (s : State) : Prop :=
  WellFormed s.registry ∨ s.registry = OwnerRegistry.empty ∧ s.initialized = false

-- Only the initialisation, which adds an owner, initialises.
theorem Effect.initialized (he : Effect env s tx s') : s'.initialized = s.initialized ∨
    ∃ qx qy, addOwnerKey env s.registry qx qy = .ok s'.registry := by
  cases he with
  | initialize_ qx qy recoveryContract recoveryTimelock registry hcall hfirst hrecovery hadd =>
    exact .inr ⟨qx, qy, hadd⟩
  | _ => exact .inl rfl

theorem Standing.addOwnerKey {qx qy : Bytes32} (hs : Standing s)
    (hadd : addOwnerKey env s.registry qx qy = .ok s'.registry) : Standing s' := by
  left
  cases hs with
  | inl hwell => exact hwell.addOwnerKey hadd
  | inr hfirst =>
    rw [hfirst.1] at hadd
    exact WellFormed.first hadd

theorem Effect.standing (he : Effect env s tx s') (hs : Standing s) : Standing s' := by
  rcases he.initialized with hinit | ⟨qx, qy, hadd⟩
  · rcases he.registry_cases with hsame | ⟨key, -, hadd⟩ | ⟨qx, qy, hremove⟩
    · unfold Standing
      rw [hsame, hinit]
      exact hs
    · exact hs.addOwnerKey hadd
    · cases hs with
      | inl hwell => exact .inl (hwell.removeOwnerKey hremove)
      | inr hfirst =>
        rw [hfirst.1] at hremove
        exact absurd hremove not_removeOwnerKey_empty
  · exact hs.addOwnerKey hadd

theorem Effect.keyed (he : Effect env s tx s') (hs : Keyed env s.registry) :
    Keyed env s'.registry := by
  rcases he.registry_cases with hsame | ⟨key, -, hadd⟩ | ⟨qx, qy, hremove⟩
  · rw [hsame]
    exact hs
  · exact hs.addOwnerKey hadd
  · exact hs.removeOwnerKey hremove

/-! ## Runs -/

/-- The count, the list, the map and the keys of the owners agree, and an initialised wallet has an
owner. -/
structure OwnersLinked (env : Env) (s : State) : Prop where
  count : s.registry.ownerCount.toNat = s.registry.ownerIds.length
  nodup : s.registry.ownerIds.Nodup
  mem : ∀ id, id ∈ s.registry.ownerIds ↔ s.registry.owners id = true
  key : ∀ id ∈ s.registry.ownerIds,
    ownerId env (s.registry.ownerKeys id).qx (s.registry.ownerKeys id).qy = id
  nonempty : s.initialized = true → s.registry.ownerIds ≠ []

theorem ownersLinked_of_standing (hs : Standing s) (hkeyed : Keyed env s.registry) :
    OwnersLinked env s := by
  cases hs with
  | inl hwell =>
    exact {
      count := hwell.count
      nodup := hwell.nodup
      mem := hwell.mem
      key := fun id hid => hkeyed.id id ((hwell.mem id).mp hid)
      nonempty := fun _ => hwell.nonempty }
  | inr hfirst =>
    have hempty := hfirst.1
    apply OwnersLinked.mk
    · rw [hempty]
      rfl
    · rw [hempty]
      exact List.nodup_nil
    · intro id
      rw [hempty]
      show id ∈ [] ↔ false = true
      simp
    · intro id hid
      rw [hempty] at hid
      cases hid
    · intro hinit
      rw [hfirst.2] at hinit
      cases hinit

/-- Whatever the calls and their senders, the owners stay linked and the last of them stays. -/
theorem owners_linked_of_run (env : Env) (txs : List (Tx Call)) :
    OwnersLinked env (run (step env) clone txs) := by
  have hstanding : Standing (run (step env) clone txs) :=
    run_invariant (I := Standing) (fun _ _ _ hs hok => (step_effect hok).standing hs)
      (.inr ⟨rfl, rfl⟩) txs
  have hkeyed : Keyed env (run (step env) clone txs).registry :=
    run_invariant (I := fun s => Keyed env s.registry)
      (fun _ _ _ hs hok => (step_effect hok).keyed hs) (keyed_empty env) txs
  exact ownersLinked_of_standing hstanding hkeyed

end OnchainInvoice.Wallet
