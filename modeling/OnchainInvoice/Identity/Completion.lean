import OnchainInvoice.Identity.Replay

/-!
# Completing a restore

`_initiateRestore` does not look at the method list, `_executeRestore` does.  A matured restore can
therefore be completed in exactly the states that still have room for its method and do not hold it
already; in the others the record stays and keeps every further initiation out.
-/

namespace OnchainInvoice.IdentityStore

open Evm IdentityTypes Lib.Revert Lib.Runs Function

variable {env : Env} {s s' : State} {tx : Tx Call} {i : Bytes32} {inputs : List Bytes}

-- Anybody may finalize: the call succeeds for every sender and deletes the record.
def Completes (env : Env) (s : State) (identityId : Bytes32) (timestamp : Uint256) : Prop :=
  ∀ sender, ∃ s', step env s ⟨sender, timestamp, .executeRestore identityId⟩ = .ok s' ∧
    (s'.pendingRestores identityId).active = false

-- The identity can take the method of its pending restore.
def RestoreFits (env : Env) (s : State) (identityId : Bytes32) : Prop :=
  (s.identities identityId).methodCount < MAX_METHODS ∧
    (s.methods (computeMethodId env.crypto identityId
      (s.pendingRestores identityId).toMethodFields)).exists_ = false

instance : Decidable (RestoreFits env s i) := inferInstanceAs (Decidable (_ ∧ _))

theorem succeeds_executeRestore (hcall : tx.call = .executeRestore i) :
    step env s tx = .ok s' ↔ CanExecute s tx i ∧
      CanAdd env s i (s.pendingRestores i).toMethodFields ∧
      s' = added env (clearPending s i) i (s.pendingRestores i).toMethodFields := by
  simp only [step, hcall, executeRestore]
  exact executeRestoreInternal_eq_ok

-- The counter of one kind is at most the number of methods, so it never overflows first.
theorem Registry.kindCount_le (h : Registry env inputs s) {kind : Uint8} (hkind : IsKind kind) :
    (Identity.kindCount (s.identities i) kind).toNat ≤ (s.identities i).methodCount.toNat := by
  rw [h.counts i kind hkind, h.total i]
  exact List.countP_le_length

theorem Sound.canAdd_pending_iff (h : Sound env inputs s)
    (hactive : (s.pendingRestores i).active = true) :
    CanAdd env s i (s.pendingRestores i).toMethodFields ↔ RestoreFits env s i := by
  have hvalid := h.pending.valid i hactive
  apply Iff.intro
  · intro hcan
    exact ⟨BitVec.lt_def.mpr hcan.room, hcan.fresh⟩
  · rintro ⟨hroom, hfresh⟩
    have hroom : (s.identities i).methodCount.toNat < 32 := BitVec.lt_def.mp hroom
    have hkind := h.registry.kindCount_le (i := i) hvalid.kind_cases
    exact ⟨h.pending.exists_ i hactive, hroom, hvalid, hfresh, by omega⟩

/-- A matured restore completes exactly when its method fits. -/
theorem Sound.completes_iff (h : Sound env inputs s) (hactive : (s.pendingRestores i).active = true)
    {timestamp : Uint256} (hmature : (s.pendingRestores i).executeAfter.toNat ≤ timestamp.toNat) :
    Completes env s i timestamp ↔ RestoreFits env s i := by
  rw [← h.canAdd_pending_iff hactive]
  apply Iff.intro
  · intro hall
    rcases hall 0 with ⟨s', hstep, -⟩
    exact ((succeeds_executeRestore rfl).mp hstep).2.1
  · intro hcan sender
    have hready : CanExecute s ⟨sender, timestamp, .executeRestore i⟩ i :=
      ⟨hactive, hmature, h.pending.exists_ i hactive, h.pending.enabled i hactive⟩
    refine ⟨_, (succeeds_executeRestore rfl).mpr ⟨hready, hcan, rfl⟩, ?_⟩
    rw [added_pendingRestores]
    exact clearPending_self s i

-- While a restore is pending no other one can be initiated.
theorem no_initiation_while_pending (hactive : (s.pendingRestores i).active = true)
    (f : MethodFields) (hcall : tx.call = .initiateRestore i f ∨ tx.call = .restoreAddMethod i f) :
    ¬Succeeds (step env) s tx := by
  rintro ⟨s', hstep⟩
  have hcan : CanInitiate s tx i f := by
    rcases hcall with hcall | hcall
    · simp only [step, hcall, initiateRestore] at hstep
      exact (initiateRestoreInternal_eq_ok.mp hstep).1
    · simp only [step, hcall] at hstep
      exact (restoreAddMethod_eq_ok hstep).1
  rw [hcan.idle] at hactive
  exact absurd hactive (by decide)

/-- In every reachable state a matured restore completes if and only if the identity has room and
does not hold the method already. -/
theorem matured_restore_completes_iff (env : Env) (recoveryOperator initialOwner : Address)
    (s₀ : State) (hdeploy : deploy recoveryOperator initialOwner = .ok s₀) (txs : List (Tx Call))
    (hcf : env.crypto.CollisionFree (txs.flatMap hashedBy)) (identityId : Bytes32)
    (hactive : ((run (step env) s₀ txs).pendingRestores identityId).active = true)
    (timestamp : Uint256)
    (hmature : ((run (step env) s₀ txs).pendingRestores identityId).executeAfter.toNat ≤
      timestamp.toNat) :
    Completes env (run (step env) s₀ txs) identityId timestamp ↔
      RestoreFits env (run (step env) s₀ txs) identityId := by
  have hsound := sound_of_prefix hdeploy hcf (List.append_nil txs).symm
  exact hsound.completes_iff hactive hmature

theorem matured_restore_completes_iff_toyRun :
    Completes toyEnv (run (step toyEnv) toyStore [toyRegister, toyRestore 31 32]) 1 200 ↔
      RestoreFits toyEnv (run (step toyEnv) toyStore [toyRegister, toyRestore 31 32]) 1 :=
  matured_restore_completes_iff toyEnv 0x0BE0 0x0A11CE toyStore rfl [toyRegister, toyRestore 31 32]
    (by decide +kernel) 1 (by decide +kernel) 200 (by decide +kernel)

-- The passkey adds the EOA while the restore of that same EOA is pending.
def stuckRun : List (Tx Call) :=
  [toyRegister, ⟨0x0BE0, 101, .initiateRestore 1 (eoaFields 0xE0A)⟩, toyAddEoa]

/-- The pending restore can then never execute, and no other one can be initiated. -/
theorem restore_stuck_by_addMethod :
    deploy 0x0BE0 0x0A11CE = .ok toyStore ∧
      toyEnv.crypto.CollisionFree (stuckRun.flatMap hashedBy) ∧
      ((run (step toyEnv) toyStore stuckRun).pendingRestores 1).active = true ∧
      (∀ timestamp, ¬Completes toyEnv (run (step toyEnv) toyStore stuckRun) 1 timestamp) ∧
      ∀ sender timestamp f, ¬Succeeds (step toyEnv) (run (step toyEnv) toyStore stuckRun)
        ⟨sender, timestamp, .initiateRestore 1 f⟩ := by
  have hactive : ((run (step toyEnv) toyStore stuckRun).pendingRestores 1).active = true := by
    decide +kernel
  refine ⟨rfl, by decide +kernel, hactive, ?_, ?_⟩
  · intro timestamp h
    have hheld : ¬RestoreFits toyEnv (run (step toyEnv) toyStore stuckRun) 1 := by decide +kernel
    rcases h 0 with ⟨s', hstep, -⟩
    have hcan := ((succeeds_executeRestore rfl).mp hstep).2.1
    exact hheld ⟨BitVec.lt_def.mpr hcan.room, hcan.fresh⟩
  · intro sender timestamp f
    exact no_initiation_while_pending hactive f (.inl rfl)

end OnchainInvoice.IdentityStore
