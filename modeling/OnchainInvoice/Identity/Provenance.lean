import OnchainInvoice.Identity.Invariant

/-!
# Where the methods of an identity come from

A method becomes live by one of five calls (`Gain`).  Read backwards along a run, this gives every
live method an `Origin`: the registration, an authorization of a live method, a call of a live EOA
method, or a restore that the operator initiated and nobody cancelled.  The contract counts the
restore delay from `uint64(block.timestamp)`, so the clock reading at initiation is a parameter.
-/

namespace OnchainInvoice.IdentityStore

open Evm IdentityTypes Lib.Runs Function

variable {env : Env} {s s' : State} {tx : Tx Call} {i id : Bytes32}

-- The store holds the method and it belongs to the identity.
def Live (s : State) (identityId id : Bytes32) : Prop :=
  (s.methods id).exists_ = true ∧ (s.methods id).identityId = identityId

instance : Decidable (Live s i id) := inferInstanceAs (Decidable (_ ∧ _))

def OptedOut (s : State) (identityId : Bytes32) : Prop :=
  (s.identities identityId).exists_ = true ∧ (s.identities identityId).restoreEnabled = false

/-! ## One step -/

-- The calls that make a method live, with what the contract has checked by then.
inductive Gain (env : Env) (s : State) (tx : Tx Call) (identityId id : Bytes32) : Prop
  | register (qx qy : Bytes32) (hcall : tx.call = .register identityId qx qy)
      (hid : id = computeMethodId env.crypto identityId (passkeyFields qx qy))
      (hnew : (s.identities identityId).exists_ = false)
  | addMethod (f : MethodFields) (authorization : Bytes)
      (hcall : tx.call = .addMethod identityId f authorization)
      (hid : id = computeMethodId env.crypto identityId f)
      (hexists : (s.identities identityId).exists_ = true)
      (hverify : verify env s (hashAddMethod env identityId f) authorization = .ok identityId)
  | addMethodByEoa (f : MethodFields) (hcall : tx.call = .addMethodByEoa identityId f)
      (hid : id = computeMethodId env.crypto identityId f)
      (heoa : isIdentityEoa env s identityId tx.sender = true)
  | restoreAddMethod (f : MethodFields) (hcall : tx.call = .restoreAddMethod identityId f)
      (hid : id = computeMethodId env.crypto identityId f) (hdelay : s.restoreDelay = 0)
      (hinit : CanInitiate s tx identityId f)
  | executeRestore (hcall : tx.call = .executeRestore identityId)
      (hid : id = computeMethodId env.crypto identityId
        (s.pendingRestores identityId).toMethodFields)
      (hready : CanExecute s tx identityId)

theorem live_storeMethod {j id' : Bytes32} {f : MethodFields} :
    Live (storeMethod s id' j f) i id ↔ (id = id' ∧ i = j) ∨ (id ≠ id' ∧ Live s i id) := by
  unfold Live storeMethod
  by_cases hid : id = id'
  · subst hid
    simpa using eq_comm
  · simp [hid]

theorem live_added {j : Bytes32} {f : MethodFields} :
    Live (added env s j f) i id ↔ (id = computeMethodId env.crypto j f ∧ i = j) ∨
      (id ≠ computeMethodId env.crypto j f ∧ Live s i id) :=
  live_storeMethod

theorem live_registered {j qx qy : Bytes32} :
    Live (registered env s j qx qy) i id ↔
      (id = computeMethodId env.crypto j (passkeyFields qx qy) ∧ i = j) ∨
        (id ≠ computeMethodId env.crypto j (passkeyFields qx qy) ∧ Live s i id) :=
  live_storeMethod

theorem live_removed {j id' : Bytes32} :
    Live (removed s j id') i id ↔ id ≠ id' ∧ Live s i id := by
  unfold Live removed
  by_cases hid : id = id'
  · simp [hid, Method.zero]
  · simp [hid]

-- Only the five calls make a method live.
theorem Effect.gain (he : Effect env s tx s') (hn : ¬Live s i id) (h : Live s' i id) :
    Gain env s tx i id := by
  cases he with
  | register j qx qy hcall hid hnew hkey =>
    rcases live_registered.mp h with ⟨hid, rfl⟩ | ⟨-, hlive⟩
    · exact .register qx qy hcall hid hnew
    · exact absurd hlive hn
  | addMethod j f authorization hcall hverify hcan =>
    rcases live_added.mp h with ⟨hid, rfl⟩ | ⟨-, hlive⟩
    · exact .addMethod f authorization hcall hid hcan.exists_ hverify
    · exact absurd hlive hn
  | addMethodByEoa j f hcall heoa hcan =>
    rcases live_added.mp h with ⟨hid, rfl⟩ | ⟨-, hlive⟩
    · exact .addMethodByEoa f hcall hid heoa
    · exact absurd hlive hn
  | removeMethod j id' authorization hcall hlive hmember hcount hkind hverify =>
    exact absurd (live_removed.mp h).2 hn
  | disableRestore j hcall hexists henabled heoa =>
    exact absurd (by simpa [Live] using h) hn
  | initiateRestore j f hcall hcan => exact absurd h hn
  | restoreAddMethod j f hcall hdelay hinit hcan =>
    rcases live_added.mp h with ⟨hid, rfl⟩ | ⟨-, hlive⟩
    · exact .restoreAddMethod f hcall hid hdelay hinit
    · exact absurd hlive hn
  | cancelRestore j authorization hcall hactive hverify => exact absurd h hn
  | executeRestore j hcall hready hcan =>
    rcases live_added.mp h with ⟨hid, rfl⟩ | ⟨-, hlive⟩
    · exact .executeRestore hcall hid hready
    · exact absurd hlive hn
  | configure owner recoveryOperator restoreDelay hcall howner => exact absurd h hn

theorem Gain.not_register (h : Gain env s tx i id) (hexists : (s.identities i).exists_ = true)
    (qx qy : Bytes32) : tx.call ≠ .register i qx qy := by
  intro hregister
  cases h with
  | register _ _ hcall hid hnew =>
    rw [hexists] at hnew
    exact absurd hnew (by decide)
  | addMethod f authorization hcall hid hexists' hverify => simp [hcall] at hregister
  | addMethodByEoa f hcall hid heoa => simp [hcall] at hregister
  | restoreAddMethod f hcall hid hdelay hinit => simp [hcall] at hregister
  | executeRestore hcall hid hready => simp [hcall] at hregister

-- A record appears only by the operator's initiation, which writes all of it.
theorem Effect.pending (he : Effect env s tx s') {p : PendingRestore} (hactive : p.active = true)
    (hn : s.pendingRestores i ≠ p) (h : s'.pendingRestores i = p) :
    ∃ f, (tx.call = .initiateRestore i f ∨ tx.call = .restoreAddMethod i f) ∧
      CanInitiate s tx i f ∧
      p = { f with executeAfter := uint64 tx.timestamp + s.restoreDelay, active := true } := by
  -- What is cleared is not active, and what is left alone was there before.
  have hcleared : ∀ j, (clearPending s j).pendingRestores i ≠ p := by
    intro j hj
    by_cases hij : i = j
    · subst hij
      have hself := clearPending_self s i
      rw [hj, hactive] at hself
      exact absurd hself (by decide)
    · rw [clearPending_of_ne s hij] at hj
      exact hn hj
  cases he with
  | register j qx qy hcall hid hnew hkey => exact absurd h hn
  | addMethod j f authorization hcall hverify hcan => exact absurd h hn
  | addMethodByEoa j f hcall heoa hcan => exact absurd h hn
  | removeMethod j id' authorization hcall hlive hmember hcount hkind hverify => exact absurd h hn
  | disableRestore j hcall hexists henabled heoa =>
    by_cases hij : i = j
    · subst hij
      have hself := restoreDisabled_self s i
      rw [h, hactive] at hself
      exact absurd hself (by decide)
    · rw [restoreDisabled_of_ne s hij] at h
      exact absurd h hn
  | initiateRestore j f hcall hcan =>
    by_cases hij : i = j
    · subst hij
      refine ⟨f, hcall.imp id And.left, hcan, ?_⟩
      rw [← h]
      simp [initiated]
    · simp only [initiated, update_of_ne hij] at h
      exact absurd h hn
  | restoreAddMethod j f hcall hdelay hinit hcan => exact absurd h (hcleared j)
  | cancelRestore j authorization hcall hactive hverify => exact absurd h (hcleared j)
  | executeRestore j hcall hready hcan => exact absurd h (hcleared j)
  | configure owner recoveryOperator restoreDelay hcall howner => exact absurd h hn

-- The opt-out is kept by every step.
theorem Effect.optedOut (he : Effect env s tx s') (h : OptedOut s i) : OptedOut s' i := by
  unfold OptedOut at h ⊢
  cases he with
  | register j qx qy hcall hid hnew hkey =>
    have hij : i ≠ j := by
      intro heq
      rw [heq, hnew] at h
      exact Bool.false_ne_true h.1
    simpa [registered, storeMethod, update_of_ne hij] using h
  | addMethod j f authorization hcall hverify hcan => simpa using h
  | addMethodByEoa j f hcall heoa hcan => simpa using h
  | removeMethod j id' authorization hcall hlive hmember hcount hkind hverify => simpa using h
  | disableRestore j hcall hexists henabled heoa =>
    rw [restoreDisabled_identities]
    by_cases hij : i = j
    · simp [hij, hexists]
    · rwa [update_of_ne hij]
  | initiateRestore j f hcall hcan => exact h
  | restoreAddMethod j f hcall hdelay hinit hcan => simpa [clearPending] using h
  | cancelRestore j authorization hcall hactive hverify => exact h
  | executeRestore j hcall hready hcan => simpa [clearPending] using h
  | configure owner recoveryOperator restoreDelay hcall howner => exact h

-- The calls of the restore path that can add a method to the identity, now or later.
def RestoreCall (tx : Tx Call) (identityId : Bytes32) : Prop :=
  tx.call = .executeRestore identityId ∨
    ∃ f, tx.call = .initiateRestore identityId f ∨ tx.call = .restoreAddMethod identityId f

theorem Effect.restoreEnabled (he : Effect env s tx s') (hrestore : RestoreCall tx i) :
    (s.identities i).restoreEnabled = true := by
  unfold RestoreCall at hrestore
  cases he with
  | initiateRestore j f hcall hcan =>
    have hj : j = i := by rcases hcall with hcall | ⟨hcall, -⟩ <;> simp_all
    exact hj ▸ hcan.enabled
  | restoreAddMethod j f hcall hdelay hinit hcan =>
    have hj : j = i := by simp_all
    exact hj ▸ hinit.enabled
  | executeRestore j hcall hready hcan =>
    have hj : j = i := by simp_all
    exact hj ▸ hready.enabled
  | configure owner recoveryOperator restoreDelay hcall howner =>
    rcases hcall with hcall | hcall | hcall | hcall <;> simp [hcall] at hrestore
  | register j qx qy hcall hid hnew hkey => simp [hcall] at hrestore
  | addMethod j f authorization hcall hverify hcan => simp [hcall] at hrestore
  | addMethodByEoa j f hcall heoa hcan => simp [hcall] at hrestore
  | removeMethod j id' authorization hcall hlive hmember hcount hkind hverify =>
    simp [hcall] at hrestore
  | disableRestore j hcall hexists henabled heoa => simp [hcall] at hrestore
  | cancelRestore j authorization hcall hactive hverify => simp [hcall] at hrestore

/-! ## Histories -/

-- `ti` starts a restore of `f` in state `s`: the operator's call, with the restore allowed.
structure Initiates (s : State) (ti : Tx Call) (identityId : Bytes32) (f : MethodFields) :
    Prop where
  call : ti.call = .initiateRestore identityId f ∨ ti.call = .restoreAddMethod identityId f
  operator : ti.sender = s.recoveryOperator ∧ s.recoveryOperator ≠ 0
  enabled : (s.identities identityId).restoreEnabled = true

-- How the step `tx` after `pre` added the method `id`; `clock` reads the time of an initiation.
inductive Origin (clock : Uint256 → Nat) (env : Env) (s₀ : State) (pre : List (Tx Call))
    (tx : Tx Call) (identityId id : Bytes32) : Prop
  | registered (qx qy : Bytes32) (hcall : tx.call = .register identityId qx qy)
      (hid : id = computeMethodId env.crypto identityId (passkeyFields qx qy))
      (hnew : ((run (step env) s₀ pre).identities identityId).exists_ = false)
  | authorized (f : MethodFields) (authorization : Bytes) (signer : Bytes32)
      (hcall : tx.call = .addMethod identityId f authorization)
      (hid : id = computeMethodId env.crypto identityId f)
      (hlive : Live (run (step env) s₀ pre) identityId signer)
      (hverified : VerifiedUnder env (run (step env) s₀ pre) (hashAddMethod env identityId f)
        authorization identityId signer)
  | byEoa (f : MethodFields) (signer : Bytes32)
      (hcall : tx.call = .addMethodByEoa identityId f)
      (hid : id = computeMethodId env.crypto identityId f)
      (hlive : Live (run (step env) s₀ pre) identityId signer)
      (hkind : ((run (step env) s₀ pre).methods signer).kind = METHOD_EOA)
      (heoa : ((run (step env) s₀ pre).methods signer).eoa = tx.sender)
  -- `restoreAddMethod` with no delay initiates and completes at once.
  | restoredAtOnce (f : MethodFields) (hcall : tx.call = .restoreAddMethod identityId f)
      (hid : id = computeMethodId env.crypto identityId f)
      (hinit : Initiates (run (step env) s₀ pre) tx identityId f)
      (hdelay : (run (step env) s₀ pre).restoreDelay = 0)
  -- The record that `ti` wrote stands unchanged until `tx` executes it.
  | restored (f : MethodFields) (before mid : List (Tx Call)) (ti : Tx Call) (s₁ : State)
      (hcall : tx.call = .executeRestore identityId)
      (hid : id = computeMethodId env.crypto identityId f)
      (hpre : pre = before ++ ti :: mid)
      (hstep : step env (run (step env) s₀ before) ti = .ok s₁)
      (hinit : Initiates (run (step env) s₀ before) ti identityId f)
      (hpending : ∀ later, later <+: mid →
        ((run (step env) s₁ later).pendingRestores identityId).active = true ∧
          (run (step env) s₁ later).pendingRestores identityId = s₁.pendingRestores identityId)
      (hdelay : clock ti.timestamp + (run (step env) s₀ before).restoreDelay.toNat ≤
        tx.timestamp.toNat)
      (henabled : ((run (step env) s₀ pre).identities identityId).restoreEnabled = true)

-- Every live method of every identity has an origin in the run, and has been live since.
def Provenance (clock : Uint256 → Nat) (env : Env) (s₀ : State) (txs : List (Tx Call)) : Prop :=
  ∀ identityId id, Live (run (step env) s₀ txs) identityId id →
    ∃ pre tx s₁ post, txs = pre ++ tx :: post ∧
      ¬Live (run (step env) s₀ pre) identityId id ∧
      step env (run (step env) s₀ pre) tx = .ok s₁ ∧
      Origin clock env s₀ pre tx identityId id ∧
      ∀ mid, mid <+: post → Live (run (step env) s₁ mid) identityId id

-- Once an identity has opted out it stays so, and its restore calls revert from then on.
def OptOutIsFinal (env : Env) (s₀ : State) (txs : List (Tx Call)) : Prop :=
  ∀ identityId pre post, txs = pre ++ post → OptedOut (run (step env) s₀ pre) identityId →
    OptedOut (run (step env) s₀ txs) identityId ∧
      ∀ tx s', RestoreCall tx identityId → step env (run (step env) s₀ txs) tx ≠ .ok s'

-- Seconds as `_initiateRestore` counts them: `uint64(block.timestamp)`.
def uint64Clock (timestamp : Uint256) : Nat := (uint64 timestamp).toNat

theorem OptedOut.run (h : OptedOut s i) (txs : List (Tx Call)) :
    OptedOut (Lib.Runs.run (step env) s txs) i :=
  run_invariant (I := fun s => OptedOut s i)
    (fun _ _ _ hs hstep => (step_effect hstep).optedOut hs) h txs

theorem optOut_final (env : Env) (s₀ : State) (txs : List (Tx Call)) : OptOutIsFinal env s₀ txs := by
  intro i pre post htxs hout
  have hend : OptedOut (run (step env) s₀ txs) i := by
    rw [htxs, run_append]
    exact hout.run post
  refine ⟨hend, ?_⟩
  intro tx s' hrestore hstep
  have henabled := (step_effect hstep).restoreEnabled hrestore
  rw [hend.2] at henabled
  exact Bool.false_ne_true henabled

-- A sender who passes the EOA check is the address of a live EOA method of this very identity.
theorem Sound.live_of_isIdentityEoa {inputs : List Bytes} (h : Sound env inputs s)
    (hcf : env.crypto.CollisionFree inputs) {who : Address}
    (hin : methodIdPreimage i (eoaFields who) ∈ inputs)
    (heoa : isIdentityEoa env s i who = true) :
    Live s i (computeMethodId env.crypto i (eoaFields who)) ∧
      (s.methods (computeMethodId env.crypto i (eoaFields who))).kind = METHOD_EOA ∧
      (s.methods (computeMethodId env.crypto i (eoaFields who))).eoa = who := by
  unfold isIdentityEoa at heoa
  split at heoa
  · exact absurd heoa Bool.false_ne_true
  · simp only [Bool.and_eq_true, beq_iff_eq] at heoa
    rcases heoa with ⟨⟨hlive, hkind⟩, hwho⟩
    have hpre := hcf _ hin _ (h.registry.hashed _ hlive) (h.registry.sits _ hlive)
    exact ⟨⟨hlive, (methodIdPreimage_inj.mp hpre).1.symm⟩, hkind, hwho⟩

theorem Sound.ne_zero_of_exists {inputs : List Bytes} (h : Sound env inputs s)
    (hexists : (s.identities i).exists_ = true) : i ≠ 0 := by
  intro hzero
  rw [hzero, h.registry.zero] at hexists
  exact Bool.false_ne_true hexists

/-- The record an `executeRestore` uses was written by one initiation of the run and has stood
unchanged since. -/
theorem restored_of_canExecute {s₀ : State} {pre : List (Tx Call)}
    (hidle : (s₀.pendingRestores i).active = false) (hcall : tx.call = .executeRestore i)
    (hready : CanExecute (run (step env) s₀ pre) tx i)
    (hid : id = computeMethodId env.crypto i
      ((run (step env) s₀ pre).pendingRestores i).toMethodFields) :
    Origin uint64Clock env s₀ pre tx i id := by
  let p := (run (step env) s₀ pre).pendingRestores i
  have hactive : p.active = true := hready.active
  have hstart : ¬s₀.pendingRestores i = p := by
    intro heq
    rw [heq, hactive] at hidle
    exact absurd hidle (by decide)
  rcases exists_rise (P := fun s : State => s.pendingRestores i = p) hstart (h := rfl) with
    ⟨before, ti, s₁, mid, hpre, hn, hstep, hs₁, hmid⟩
  rcases (step_effect hstep).pending hactive hn hs₁ with ⟨f, hticall, hcan, hp⟩
  have hfields : p.toMethodFields = f := by rw [hp]
  refine .restored f before mid ti s₁ hcall (hfields ▸ hid) hpre hstep
    ⟨hticall, ⟨hcan.sender, hcan.operator⟩, hcan.enabled⟩ ?_ ?_ hready.enabled
  · intro later hlater
    have hlater := hmid later hlater
    exact ⟨hlater ▸ hactive, hlater.trans hs₁.symm⟩
  · have hafter : p.executeAfter.toNat =
        (uint64 ti.timestamp).toNat + (run (step env) s₀ before).restoreDelay.toNat := by
      rw [hp, BitVec.toNat_add, Nat.mod_eq_of_lt hcan.noOverflow]
    have hready : p.executeAfter.toNat ≤ tx.timestamp.toNat := hready.ready
    rw [uint64Clock]
    omega

theorem Gain.origin {s₀ : State} {pre : List (Tx Call)} {inputs : List Bytes}
    (h : Gain env (run (step env) s₀ pre) tx i id)
    (hsound : Sound env inputs (run (step env) s₀ pre)) (hcf : env.crypto.CollisionFree inputs)
    (hin : ∀ p ∈ hashedBy tx, p ∈ inputs) (hidle : (s₀.pendingRestores i).active = false) :
    Origin uint64Clock env s₀ pre tx i id := by
  cases h with
  | register qx qy hcall hid hnew => exact .registered qx qy hcall hid hnew
  | addMethod f authorization hcall hid hexists hverify =>
    rcases (verify_eq_ok (hsound.ne_zero_of_exists hexists)).mp hverify with ⟨signer, hverified⟩
    have hlive : Live (run (step env) s₀ pre) i signer := by
      rcases hverified with ⟨inner, -, -, -, hlive, hmember, -⟩
      exact ⟨hlive, hmember⟩
    exact .authorized f authorization signer hcall hid hlive hverified
  | addMethodByEoa f hcall hid heoa =>
    have hmem := hin (methodIdPreimage i (eoaFields tx.sender)) (by simp [hashedBy, hcall])
    rcases hsound.live_of_isIdentityEoa hcf hmem heoa with ⟨hlive, hkind, hwho⟩
    exact .byEoa f _ hcall hid hlive hkind hwho
  | restoreAddMethod f hcall hid hdelay hinit =>
    exact .restoredAtOnce f hcall hid
      ⟨.inr hcall, ⟨hinit.sender, hinit.operator⟩, hinit.enabled⟩ hdelay
  | executeRestore hcall hid hready => exact restored_of_canExecute hidle hcall hready hid

/-- Every method of an identity has an origin, and an identity that opted out of restores stays
out, in every run of a deployed store. -/
theorem provenance_of_run (env : Env) (recoveryOperator initialOwner : Address) (s₀ : State)
    (hdeploy : deploy recoveryOperator initialOwner = .ok s₀) (txs : List (Tx Call))
    (hcf : env.crypto.CollisionFree (txs.flatMap hashedBy)) :
    Provenance uint64Clock env s₀ txs ∧ OptOutIsFinal env s₀ txs := by
  refine ⟨?_, optOut_final env s₀ txs⟩
  have hs₀ := deploy_eq_ok hdeploy
  intro i id hlive
  have hstart : ¬Live s₀ i id := by
    intro hlive₀
    rw [hs₀] at hlive₀
    exact Bool.false_ne_true hlive₀.1
  rcases exists_rise (P := fun s => Live s i id) hstart hlive with
    ⟨pre, tx, s₁, post, htxs, hn, hstep, hs₁, hmid⟩
  have hin : ∀ tx ∈ pre, ∀ p ∈ hashedBy tx, p ∈ txs.flatMap hashedBy := by
    intro tx htx p hp
    exact List.mem_flatMap.mpr ⟨tx, by simp [htxs, htx], hp⟩
  have hintx : ∀ p ∈ hashedBy tx, p ∈ txs.flatMap hashedBy := by
    intro p hp
    exact List.mem_flatMap.mpr ⟨tx, by simp [htxs], hp⟩
  have hsound := run_sound hdeploy hcf hin
  have hgain := (step_effect hstep).gain hn hs₁
  exact ⟨pre, tx, s₁, post, htxs, hn, hstep,
    hgain.origin hsound hcf hintx (by rw [hs₀]; rfl), hmid⟩

theorem provenance_of_toyRun :
    Live (run (step toyEnv) toyStore toyRun) 1
        (computeMethodId Crypto.toy 1 (passkeyFields 31 32)) ∧
      Provenance uint64Clock toyEnv toyStore toyRun ∧ OptOutIsFinal toyEnv toyStore toyRun :=
  ⟨by decide +kernel,
    provenance_of_run toyEnv 0x0BE0 0x0A11CE toyStore rfl toyRun (by decide +kernel)⟩

-- With a delay of 100 s, a restore initiated in a block of time 2^64 executes in the same block.
def lateRun : List (Tx Call) :=
  [⟨0xCA11, 100, .register 1 11 12⟩,
    ⟨0x0A11CE, 101, .setRestoreDelay 100⟩,
    ⟨0x0BE0, 2 ^ 64, .initiateRestore 1 (passkeyFields 31 32)⟩,
    ⟨0xCA11, 2 ^ 64, .executeRestore 1⟩]

/-- Read with the full `block.timestamp` at initiation, the delay is not always waited for. -/
theorem late_restore_undercuts_delay :
    deploy 0x0BE0 0x0A11CE = .ok toyStore ∧
      toyEnv.crypto.CollisionFree (lateRun.flatMap hashedBy) ∧
      ¬Provenance BitVec.toNat toyEnv toyStore lateRun := by
  refine ⟨rfl, by decide +kernel, ?_⟩
  intro h
  have hlive : Live (run (step toyEnv) toyStore lateRun) 1
      (computeMethodId Crypto.toy 1 (passkeyFields 31 32)) := by decide +kernel
  rcases h 1 _ hlive with ⟨pre, tx, s₁, post, htxs, hn, hstep, horigin, -⟩
  have htx : tx ∈ lateRun := by simp [htxs]
  simp only [lateRun, List.mem_cons, List.not_mem_nil, or_false] at htx
  cases horigin with
  | registered qx qy hcall hid hnew =>
    rcases htx with rfl | rfl | rfl | rfl <;> simp only [Call.register.injEq, reduceCtorEq] at hcall
    rcases hcall with ⟨-, rfl, rfl⟩
    exact absurd hid (by decide +kernel)
  | authorized f authorization signer hcall hid hlive hverified =>
    rcases htx with rfl | rfl | rfl | rfl <;> cases hcall
  | byEoa f signer hcall hid hlive hkind heoa =>
    rcases htx with rfl | rfl | rfl | rfl <;> cases hcall
  | restoredAtOnce f hcall hid hinit hdelay =>
    rcases htx with rfl | rfl | rfl | rfl <;> cases hcall
  | restored f before mid ti s₁ hcall hid hpre hstep hinit hpending hdelay henabled =>
    have htime : tx.timestamp = 2 ^ 64 := by
      rcases htx with rfl | rfl | rfl | rfl
      · cases hcall
      · cases hcall
      · cases hcall
      · rfl
    have hti : lateRun[before.length]? = some ti := by simp [htxs, hpre]
    have hbefore : before = lateRun.take before.length := by simp [htxs, hpre]
    have hcallti := hinit.call
    have hlt : before.length < 4 := (List.getElem?_eq_some_iff.mp hti).1
    have hcases : before.length = 0 ∨ before.length = 1 ∨ before.length = 2 ∨
        before.length = 3 := by
      omega
    -- Only the third transaction is an initiation, and the delay is 100 there.
    rcases hcases with hlen | hlen | hlen | hlen
    · rw [hlen] at hti
      cases hti
      simp at hcallti
    · rw [hlen] at hti
      cases hti
      simp at hcallti
    · rw [hlen] at hti hbefore
      cases hti
      rw [htime, hbefore] at hdelay
      exact absurd hdelay (by decide +kernel)
    · rw [hlen] at hti
      cases hti
      simp at hcallti

end OnchainInvoice.IdentityStore
