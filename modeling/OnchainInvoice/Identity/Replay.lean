import OnchainInvoice.Identity.Provenance

/-!
# Using an authorization twice

The signed hashes name the identity and the method, or the identity alone for a cancellation.  There
is no nonce, so an old blob stays valid for as long as the method that signed it is live.  What the
contract does give: an addition and a removal of one method alternate, and a cancellation can be
replayed exactly while its signer is live.
-/

namespace OnchainInvoice.IdentityStore

open Evm IdentityTypes Lib.Revert Lib.Runs Function

variable {env : Env} {s s' : State} {tx : Tx Call} {i id : Bytes32} {inputs : List Bytes}

/-! ## Losing a method -/

/-- A live method stays live unless `removeMethod` names it. -/
theorem Effect.loss (he : Effect env s tx s') (hsound : Sound env inputs s)
    (hcf : env.crypto.CollisionFree inputs) (hin : ∀ p ∈ hashedBy tx, p ∈ inputs)
    (hlive : Live s i id) (hn : ¬Live s' i id) :
    ∃ authorization, tx.call = .removeMethod i id authorization ∧
      verify env s (hashRemoveMethod env i id) authorization = .ok i := by
  -- Storing a method never overwrites a live one.
  have hkept : ∀ j f, (s.methods (computeMethodId env.crypto j f)).exists_ = false →
      Live (storeMethod s (computeMethodId env.crypto j f) j f) i id := by
    intro j f hfresh
    have hid : id ≠ computeMethodId env.crypto j f := by
      intro heq
      rw [← heq, hlive.1] at hfresh
      exact absurd hfresh (by decide)
    exact live_storeMethod.mpr (.inr ⟨hid, hlive⟩)
  cases he with
  | register j qx qy hcall hid hnew hkey =>
    have hmem := hin (methodIdPreimage j (passkeyFields qx qy)) (by simp [hashedBy, hcall])
    exact absurd (hkept j _ (hsound.registry.fresh_of_absent hcf hmem hnew)) hn
  | addMethod j f authorization hcall hverify hcan => exact absurd (hkept j f hcan.fresh) hn
  | addMethodByEoa j f hcall heoa hcan => exact absurd (hkept j f hcan.fresh) hn
  | removeMethod j id' authorization hcall hlive' hmember hcount hkind hverify =>
    have hid : id = id' := by
      by_contra hne
      exact hn (live_removed.mpr ⟨hne, hlive⟩)
    have hj : j = i := by rw [← hmember, ← hid, hlive.2]
    subst hid hj
    exact ⟨authorization, hcall, hverify⟩
  | disableRestore j hcall hexists henabled heoa => exact absurd (by simpa [Live] using hlive) hn
  | initiateRestore j f hcall hcan => exact absurd hlive hn
  | restoreAddMethod j f hcall hdelay hinit hcan => exact absurd (hkept j f hcan.fresh) hn
  | cancelRestore j authorization hcall hactive hverify => exact absurd hlive hn
  | executeRestore j hcall hready hcan => exact absurd (hkept j _ hcan.fresh) hn
  | configure owner recoveryOperator restoreDelay hcall howner => exact absurd hlive hn

theorem Effect.of_addMethod (he : Effect env s tx s') {f : MethodFields} {a : Bytes}
    (hcall : tx.call = .addMethod i f a) : CanAdd env s i f ∧ s' = added env s i f := by
  cases he with
  | addMethod j g b hcall' hverify hcan =>
    cases hcall.symm.trans hcall'
    exact ⟨hcan, rfl⟩
  | _ => simp_all

theorem Effect.of_removeMethod (he : Effect env s tx s') {a : Bytes}
    (hcall : tx.call = .removeMethod i id a) : Live s i id ∧ s' = removed s i id := by
  cases he with
  | removeMethod j id' b hcall' hlive hmember hcount hkind hverify =>
    cases hcall.symm.trans hcall'
    exact ⟨⟨hlive, hmember⟩, rfl⟩
  | _ => simp_all

/-! ## Additions and removals alternate -/

-- Within `mid`, after `pre`, the method was added by a signer, an EOA or a restore of its identity.
def Returned (env : Env) (s₀ : State) (pre mid : List (Tx Call)) (identityId id : Bytes32) : Prop :=
  ∃ before tx after, mid = before ++ tx :: after ∧
    Succeeds (step env) (run (step env) s₀ (pre ++ before)) tx ∧
    ¬Live (run (step env) s₀ (pre ++ before)) identityId id ∧
    Origin uint64Clock env s₀ (pre ++ before) tx identityId id ∧
    ∀ qx qy, tx.call ≠ .register identityId qx qy

-- Within `mid`, after `pre`, `removeMethod` took the method away, authorized by a live method.
def Removed (env : Env) (s₀ : State) (pre mid : List (Tx Call)) (identityId id : Bytes32) : Prop :=
  ∃ before tx after authorization signer, mid = before ++ tx :: after ∧
    Succeeds (step env) (run (step env) s₀ (pre ++ before)) tx ∧
    tx.call = .removeMethod identityId id authorization ∧
    VerifiedUnder env (run (step env) s₀ (pre ++ before)) (hashRemoveMethod env identityId id)
      authorization identityId signer

/-- What the contract gives in place of single use. -/
structure Alternates (env : Env) (s₀ : State) (txs : List (Tx Call)) : Prop where
  -- Two additions of a method, with one blob or two, have a removal between them.
  addMethod : ∀ pre t₁ mid t₂ post i f a b, txs = pre ++ t₁ :: (mid ++ t₂ :: post) →
    t₁.call = .addMethod i f a → t₂.call = .addMethod i f b →
    Succeeds (step env) (run (step env) s₀ pre) t₁ →
    Succeeds (step env) (run (step env) s₀ (pre ++ t₁ :: mid)) t₂ →
    Removed env s₀ (pre ++ [t₁]) mid i (computeMethodId env.crypto i f)
  -- Two removals of a method, with one blob or two, have an addition between them.
  removeMethod : ∀ pre t₁ mid t₂ post i id a b, txs = pre ++ t₁ :: (mid ++ t₂ :: post) →
    t₁.call = .removeMethod i id a → t₂.call = .removeMethod i id b →
    Succeeds (step env) (run (step env) s₀ pre) t₁ →
    Succeeds (step env) (run (step env) s₀ (pre ++ t₁ :: mid)) t₂ →
    Returned env s₀ (pre ++ [t₁]) mid i id
  -- A removed method that is live later has come back by one of the authorized routes.
  reappears : ∀ pre t₁ mid post i id a, txs = pre ++ t₁ :: (mid ++ post) →
    t₁.call = .removeMethod i id a → Succeeds (step env) (run (step env) s₀ pre) t₁ →
    Live (run (step env) s₀ (pre ++ t₁ :: mid)) i id → Returned env s₀ (pre ++ [t₁]) mid i id
  -- A live method that is gone later was removed by an authorization of a live method.
  disappears : ∀ pre mid post i id, txs = pre ++ (mid ++ post) →
    Live (run (step env) s₀ pre) i id → ¬Live (run (step env) s₀ (pre ++ mid)) i id →
    Removed env s₀ pre mid i id

section History

variable {recoveryOperator initialOwner : Address} {s₀ : State} {txs : List (Tx Call)}
  {pre mid post : List (Tx Call)}

-- Deployment and the hash assumption, shared by the facts about one run.
variable (hdeploy : deploy recoveryOperator initialOwner = .ok s₀)
  (hcf : env.crypto.CollisionFree (txs.flatMap hashedBy))

include hdeploy hcf

theorem sound_of_prefix (htxs : txs = pre ++ post) :
    Sound env (txs.flatMap hashedBy) (run (step env) s₀ pre) := by
  apply run_sound hdeploy hcf
  intro tx htx p hp
  exact List.mem_flatMap.mpr ⟨tx, by simp [htxs, htx], hp⟩

theorem removed_of_loss (htxs : txs = pre ++ (mid ++ post))
    (hlive : Live (run (step env) s₀ pre) i id)
    (hn : ¬Live (run (step env) s₀ (pre ++ mid)) i id) : Removed env s₀ pre mid i id := by
  rw [run_append] at hn
  rcases exists_rise (P := fun s => ¬Live s i id) (not_not.mpr hlive) hn with
    ⟨before, tx, s₁, after, hmid, hlive₁, hstep, hn₁, -⟩
  rw [← run_append] at hlive₁ hstep
  have hsound := sound_of_prefix hdeploy hcf
    (show txs = (pre ++ before) ++ (tx :: after ++ post) by simp [htxs, hmid])
  have hin : ∀ p ∈ hashedBy tx, p ∈ txs.flatMap hashedBy := by
    intro p hp
    exact List.mem_flatMap.mpr ⟨tx, by simp [htxs, hmid], hp⟩
  rcases (step_effect hstep).loss hsound hcf hin (not_not.mp hlive₁) hn₁ with
    ⟨authorization, hcall, hverify⟩
  have hi : i ≠ 0 := by
    have hexists := hsound.registry.exists_of_live (not_not.mp hlive₁).1
    rw [(not_not.mp hlive₁).2] at hexists
    exact hsound.ne_zero_of_exists hexists
  rcases (verify_eq_ok hi).mp hverify with ⟨signer, hverified⟩
  exact ⟨before, tx, after, authorization, signer, hmid, ⟨s₁, hstep⟩, hcall, hverified⟩

theorem returned_of_gain (htxs : txs = pre ++ (mid ++ post))
    (hexists : ((run (step env) s₀ pre).identities i).exists_ = true)
    (hn : ¬Live (run (step env) s₀ pre) i id)
    (hlive : Live (run (step env) s₀ (pre ++ mid)) i id) : Returned env s₀ pre mid i id := by
  rw [run_append] at hlive
  rcases exists_rise (P := fun s => Live s i id) hn hlive with
    ⟨before, tx, s₁, after, hmid, hn₁, hstep, hlive₁, -⟩
  -- The identity exists, so the step was no registration of it.
  have hexists₁ : ((run (step env) (run (step env) s₀ pre) before).identities i).exists_ = true :=
    run_invariant (I := fun s => (s.identities i).exists_ = true)
      (fun _ _ _ hs hok => (step_effect hok).keeps_exists hs) hexists before
  rw [← run_append] at hn₁ hstep hexists₁
  have hsound := sound_of_prefix hdeploy hcf
    (show txs = (pre ++ before) ++ (tx :: after ++ post) by simp [htxs, hmid])
  have hin : ∀ p ∈ hashedBy tx, p ∈ txs.flatMap hashedBy := by
    intro p hp
    exact List.mem_flatMap.mpr ⟨tx, by simp [htxs, hmid], hp⟩
  have hidle : (s₀.pendingRestores i).active = false := by
    rw [deploy_eq_ok hdeploy]
    rfl
  have hgain := (step_effect hstep).gain hn₁ hlive₁
  exact ⟨before, tx, after, hmid, ⟨s₁, hstep⟩, hn₁, hgain.origin hsound hcf hin hidle,
    hgain.not_register hexists₁⟩

-- A method that was removed and is live later has returned in between.
theorem returned_of_removal {t₁ : Tx Call} {a : Bytes} {s₁ : State}
    (htxs : txs = pre ++ t₁ :: (mid ++ post)) (hcall : t₁.call = .removeMethod i id a)
    (hok : step env (run (step env) s₀ pre) t₁ = .ok s₁)
    (hlive : Live (run (step env) s₀ (pre ++ t₁ :: mid)) i id) :
    Returned env s₀ (pre ++ [t₁]) mid i id := by
  have hmid : run (step env) s₀ (pre ++ [t₁]) = s₁ := by rw [run_concat, commit_of_ok hok]
  rcases (step_effect hok).of_removeMethod hcall with ⟨hlive₁, hs₁⟩
  have hexists : (s₁.identities i).exists_ = true := by
    have hsound := sound_of_prefix hdeploy hcf htxs
    have hbefore := hsound.registry.exists_of_live hlive₁.1
    rw [hlive₁.2] at hbefore
    exact (step_effect hok).keeps_exists hbefore
  have hgone : ¬Live s₁ i id := by
    rw [hs₁, live_removed]
    exact fun h => h.1 rfl
  rw [show pre ++ t₁ :: mid = pre ++ [t₁] ++ mid by simp] at hlive
  have htxs' : txs = (pre ++ [t₁]) ++ (mid ++ post) := by simp [htxs]
  exact returned_of_gain hdeploy hcf htxs' (hmid ▸ hexists) (hmid ▸ hgone) hlive

/-- An addition and a removal of a method alternate, and whatever comes back or goes was authorized
by a method live at that step, by an EOA of the identity, or by a restore. -/
theorem authorizations_alternate : Alternates env s₀ txs := by
  constructor
  case addMethod =>
    rintro pre t₁ mid t₂ post i f a b htxs hcall₁ hcall₂ ⟨s₁, hok₁⟩ ⟨s₂, hok₂⟩
    have hmid : run (step env) s₀ (pre ++ [t₁]) = s₁ := by rw [run_concat, commit_of_ok hok₁]
    have hend : run (step env) s₀ (pre ++ t₁ :: mid) = run (step env) s₀ (pre ++ [t₁] ++ mid) := by
      simp
    have hlive : Live s₁ i (computeMethodId env.crypto i f) := by
      rw [((step_effect hok₁).of_addMethod hcall₁).2]
      exact live_added.mpr (.inl ⟨rfl, rfl⟩)
    have hfresh := ((step_effect hok₂).of_addMethod hcall₂).1.fresh
    rw [hend] at hfresh
    have htxs' : txs = (pre ++ [t₁]) ++ (mid ++ t₂ :: post) := by simp [htxs]
    refine removed_of_loss hdeploy hcf htxs' (hmid ▸ hlive) ?_
    intro hlive₂
    rw [hlive₂.1] at hfresh
    exact absurd hfresh (by decide)
  case removeMethod =>
    rintro pre t₁ mid t₂ post i id a b htxs hcall₁ hcall₂ ⟨s₁, hok₁⟩ ⟨s₂, hok₂⟩
    have hlive₂ := ((step_effect hok₂).of_removeMethod hcall₂).1
    exact returned_of_removal hdeploy hcf htxs hcall₁ hok₁ hlive₂
  case reappears =>
    rintro pre t₁ mid post i id a htxs hcall₁ ⟨s₁, hok₁⟩ hlive
    exact returned_of_removal hdeploy hcf htxs hcall₁ hok₁ hlive
  case disappears =>
    intro pre mid post i id htxs hlive hn
    exact removed_of_loss hdeploy hcf htxs hlive hn

end History

-- The blob an addition or a removal carries.
def methodAuthorization (tx : Tx Call) : Option Bytes :=
  match tx.call with
  | .addMethod _ _ authorization => some authorization
  | .removeMethod _ _ authorization => some authorization
  | _ => none

def SingleUse (env : Env) (s₀ : State) (txs : List (Tx Call)) : Prop :=
  ∀ pre t₁ mid t₂ post blob, txs = pre ++ t₁ :: (mid ++ t₂ :: post) →
    methodAuthorization t₁ = some blob → methodAuthorization t₂ = some blob →
    Succeeds (step env) (run (step env) s₀ pre) t₁ →
    ¬Succeeds (step env) (run (step env) s₀ (pre ++ t₁ :: mid)) t₂

-- The passkey adds an EOA and removes it again.
def toyRegister : Tx Call := ⟨0xCA11, 100, .register 1 11 12⟩

def toyAddBlob : Bytes := passkeyBlob toyEnv 1 11 12 (hashAddMethod toyEnv 1 (eoaFields 0xE0A))

def toyAddEoa : Tx Call := ⟨0xCA11, 101, .addMethod 1 (eoaFields 0xE0A) toyAddBlob⟩

def toyRemoveEoa : Tx Call :=
  let id := computeMethodId Crypto.toy 1 (eoaFields 0xE0A)
  ⟨0xCA11, 102, .removeMethod 1 id (passkeyBlob toyEnv 1 11 12 (hashRemoveMethod toyEnv 1 id))⟩

-- The same two blobs once more.
def replayRun : List (Tx Call) := [toyRegister, toyAddEoa, toyRemoveEoa, toyAddEoa, toyRemoveEoa]

theorem authorizations_alternate_replayRun : Alternates toyEnv toyStore replayRun :=
  authorizations_alternate (show deploy 0x0BE0 0x0A11CE = .ok toyStore from rfl) (by decide +kernel)

/-- A blob can take effect twice: after the removal the old addition is accepted again. -/
theorem authorization_takes_effect_twice :
    deploy 0x0BE0 0x0A11CE = .ok toyStore ∧
      toyEnv.crypto.CollisionFree (replayRun.flatMap hashedBy) ∧
      ¬SingleUse toyEnv toyStore replayRun := by
  refine ⟨rfl, by decide +kernel, ?_⟩
  intro h
  have hfirst : Succeeds (step toyEnv) (run (step toyEnv) toyStore [toyRegister]) toyAddEoa := by
    decide +kernel
  have hsecond : Succeeds (step toyEnv) (run (step toyEnv) toyStore
      ([toyRegister] ++ toyAddEoa :: [toyRemoveEoa])) toyAddEoa := by
    decide +kernel
  exact h [toyRegister] toyAddEoa [toyRemoveEoa] toyAddEoa [toyRemoveEoa] toyAddBlob rfl rfl rfl
    hfirst hsecond

/-! ## Cancellations -/

-- The method whose signature a blob carries.
def blobMethod (blob : Bytes) : Bytes32 :=
  match decodeMethodBlob (blob.drop 4) with
  | some (_, _, id, _) => id
  | none => 0

theorem VerifiedUnder.blobMethod_eq {message : Bytes32} {blob : Bytes}
    (h : VerifiedUnder env s message blob i id) : blobMethod blob = id := by
  rcases h with ⟨inner, -, -, hdec, -⟩
  simp [blobMethod, hdec]

theorem VerifiedUnder.live {message : Bytes32} {blob : Bytes}
    (h : VerifiedUnder env s message blob i id) : Live s i id := by
  rcases h with ⟨inner, -, -, -, hlive, hmember, -⟩
  exact ⟨hlive, hmember⟩

theorem succeeds_cancelRestore {blob : Bytes} (hcall : tx.call = .cancelRestore i blob)
    (hi : i ≠ 0) : Succeeds (step env) s tx ↔
      (s.pendingRestores i).active = true ∧
        VerifiedUnder env s (hashCancelRestore env i) blob i (blobMethod blob) := by
  have hverify : verify env s (hashCancelRestore env i) blob = .ok i ↔
      VerifiedUnder env s (hashCancelRestore env i) blob i (blobMethod blob) := by
    rw [verify_eq_ok hi]
    apply Iff.intro
    · rintro ⟨id, h⟩
      exact h.blobMethod_eq ▸ h
    · intro h
      exact ⟨_, h⟩
  simp only [Succeeds, step, hcall, cancelRestore, bind_eq_ok, revertIf_eq_ok, pure_eq_ok,
    Bool.not_eq_false', bne_eq_false_iff_eq, exists_const, ← hverify]
  apply Iff.intro
  · rintro ⟨s', hactive, signer, hsigner, heq, hs'⟩
    rw [heq] at hsigner
    exact ⟨hactive, hsigner⟩
  · rintro ⟨hactive, hsigner⟩
    exact ⟨_, hactive, i, hsigner, rfl, rfl⟩

theorem Method.ext_fields {m₁ m₂ : Method} (hfields : m₁.toMethodFields = m₂.toMethodFields)
    (hident : m₁.identityId = m₂.identityId) (hexists : m₁.exists_ = m₂.exists_) : m₁ = m₂ := by
  cases m₁
  cases m₂
  cases hfields
  cases hident
  cases hexists
  rfl

-- A method id stands for the same method whenever it is live.
theorem Sound.same_method {s₁ s₂ : State} (h₁ : Sound env inputs s₁) (h₂ : Sound env inputs s₂)
    (hcf : env.crypto.CollisionFree inputs) (hlive₁ : Live s₁ i id) (hlive₂ : Live s₂ i id) :
    s₁.methods id = s₂.methods id := by
  have hid₁ := h₁.registry.sits id hlive₁.1
  have hid₂ := h₂.registry.sits id hlive₂.1
  have hpre := hcf _ (h₁.registry.hashed id hlive₁.1) _ (h₂.registry.hashed id hlive₂.1)
    (hid₁.symm.trans hid₂)
  have hfields := (methodIdPreimage_inj.mp hpre).2
  have hident : (s₁.methods id).identityId = (s₂.methods id).identityId :=
    hlive₁.2.trans hlive₂.2.symm
  have hexists : (s₁.methods id).exists_ = (s₂.methods id).exists_ :=
    hlive₁.1.trans hlive₂.1.symm
  exact Method.ext_fields hfields hident hexists

/-- A cancellation that was accepted once is accepted for every pending restore of the identity
while the method that signed it is live. -/
theorem Sound.cancel_replay {s₁ s₂ : State} (h₁ : Sound env inputs s₁) (h₂ : Sound env inputs s₂)
    (hcf : env.crypto.CollisionFree inputs) {t₁ t₂ : Tx Call} {blob : Bytes}
    (hcall₁ : t₁.call = .cancelRestore i blob) (hcall₂ : t₂.call = .cancelRestore i blob)
    (hok₁ : Succeeds (step env) s₁ t₁) : Succeeds (step env) s₂ t₂ ↔
      (s₂.pendingRestores i).active = true ∧ Live s₂ i (blobMethod blob) := by
  have hi : i ≠ 0 := by
    rcases hok₁ with ⟨s', hok⟩
    have hactive : (s₁.pendingRestores i).active = true := by
      simp only [step, hcall₁, cancelRestore, bind_eq_ok, revertIf_eq_ok, Bool.not_eq_false',
        exists_const] at hok
      exact hok.1
    exact h₁.ne_zero_of_exists (h₁.pending.exists_ i hactive)
  have hverified₁ := ((succeeds_cancelRestore hcall₁ hi).mp hok₁).2
  rw [succeeds_cancelRestore hcall₂ hi]
  apply Iff.intro
  · rintro ⟨hactive, hverified⟩
    exact ⟨hactive, hverified.live⟩
  · rintro ⟨hactive, hlive⟩
    refine ⟨hactive, ?_⟩
    -- The signature is checked against the stored method, which is the one of the first time.
    have hsame := h₁.same_method h₂ hcf hverified₁.live hlive
    unfold VerifiedUnder at hverified₁ ⊢
    rwa [hsame] at hverified₁

-- The blob of an accepted cancellation is never accepted again for the identity.
def CancelsOnlyOwn (env : Env) (s₀ : State) (txs : List (Tx Call)) : Prop :=
  ∀ pre t₁ mid t₂ post i blob, txs = pre ++ t₁ :: (mid ++ t₂ :: post) →
    t₁.call = .cancelRestore i blob → t₂.call = .cancelRestore i blob →
    Succeeds (step env) (run (step env) s₀ pre) t₁ →
    ¬Succeeds (step env) (run (step env) s₀ (pre ++ t₁ :: mid)) t₂

-- Whenever such a blob comes again while a restore is pending, its signer has been removed.
def SignersGone (env : Env) (s₀ : State) (txs : List (Tx Call)) : Prop :=
  ∀ pre t₁ mid t₂ post i blob, txs = pre ++ t₁ :: (mid ++ t₂ :: post) →
    t₁.call = .cancelRestore i blob → t₂.call = .cancelRestore i blob →
    Succeeds (step env) (run (step env) s₀ pre) t₁ →
    ((run (step env) s₀ (pre ++ t₁ :: mid)).pendingRestores i).active = true →
    ¬Live (run (step env) s₀ (pre ++ t₁ :: mid)) i (blobMethod blob)

/-- Cancellations cancel only their own restore in exactly the runs in which no signer of an
accepted cancellation is live when its blob is used on a later restore. -/
theorem cancelsOnlyOwn_iff_signersGone (env : Env) (recoveryOperator initialOwner : Address)
    (s₀ : State) (hdeploy : deploy recoveryOperator initialOwner = .ok s₀) (txs : List (Tx Call))
    (hcf : env.crypto.CollisionFree (txs.flatMap hashedBy)) :
    CancelsOnlyOwn env s₀ txs ↔ SignersGone env s₀ txs := by
  have hreplay : ∀ pre t₁ mid t₂ post i blob, txs = pre ++ t₁ :: (mid ++ t₂ :: post) →
      t₁.call = .cancelRestore i blob → t₂.call = .cancelRestore i blob →
      Succeeds (step env) (run (step env) s₀ pre) t₁ →
      (Succeeds (step env) (run (step env) s₀ (pre ++ t₁ :: mid)) t₂ ↔
        ((run (step env) s₀ (pre ++ t₁ :: mid)).pendingRestores i).active = true ∧
          Live (run (step env) s₀ (pre ++ t₁ :: mid)) i (blobMethod blob)) := by
    intro pre t₁ mid t₂ post i blob htxs hcall₁ hcall₂ hok₁
    have hsound₁ := sound_of_prefix hdeploy hcf htxs
    have hsound₂ := sound_of_prefix hdeploy hcf
      (show txs = (pre ++ t₁ :: mid) ++ t₂ :: post by simp [htxs])
    exact hsound₁.cancel_replay hsound₂ hcf hcall₁ hcall₂ hok₁
  apply Iff.intro
  · intro h pre t₁ mid t₂ post i blob htxs hcall₁ hcall₂ hok₁ hactive hlive
    apply h pre t₁ mid t₂ post i blob htxs hcall₁ hcall₂ hok₁
    exact (hreplay pre t₁ mid t₂ post i blob htxs hcall₁ hcall₂ hok₁).mpr ⟨hactive, hlive⟩
  · intro h pre t₁ mid t₂ post i blob htxs hcall₁ hcall₂ hok₁ hok₂
    rcases (hreplay pre t₁ mid t₂ post i blob htxs hcall₁ hcall₂ hok₁).mp hok₂ with
      ⟨hactive, hlive⟩
    exact h pre t₁ mid t₂ post i blob htxs hcall₁ hcall₂ hok₁ hactive hlive

def toyCancelBlob : Bytes := passkeyBlob toyEnv 1 11 12 (hashCancelRestore toyEnv 1)

def toyCancel : Tx Call := ⟨0xCA11, 104, .cancelRestore 1 toyCancelBlob⟩

-- The first restore is cancelled by the passkey, the second one by anybody with the old blob.
def toyRestore (qx qy : Bytes32) : Tx Call := ⟨0x0BE0, 103, .initiateRestore 1 (passkeyFields qx qy)⟩

def cancelRun : List (Tx Call) :=
  [toyRegister, toyRestore 31 32, toyCancel, toyRestore 41 42, toyCancel]

theorem cancelsOnlyOwn_iff_signersGone_cancelRun :
    CancelsOnlyOwn toyEnv toyStore cancelRun ↔ SignersGone toyEnv toyStore cancelRun :=
  cancelsOnlyOwn_iff_signersGone toyEnv 0x0BE0 0x0A11CE toyStore rfl cancelRun (by decide +kernel)

theorem old_cancellation_cancels_new_restore :
    deploy 0x0BE0 0x0A11CE = .ok toyStore ∧
      toyEnv.crypto.CollisionFree (cancelRun.flatMap hashedBy) ∧
      ¬CancelsOnlyOwn toyEnv toyStore cancelRun := by
  refine ⟨rfl, by decide +kernel, ?_⟩
  intro h
  have hfirst : Succeeds (step toyEnv)
      (run (step toyEnv) toyStore [toyRegister, toyRestore 31 32]) toyCancel := by
    decide +kernel
  have hsecond : Succeeds (step toyEnv) (run (step toyEnv) toyStore
      ([toyRegister, toyRestore 31 32] ++ toyCancel :: [toyRestore 41 42])) toyCancel := by
    decide +kernel
  exact h [toyRegister, toyRestore 31 32] toyCancel [toyRestore 41 42] toyCancel [] 1 toyCancelBlob
    rfl rfl rfl hfirst hsecond

end OnchainInvoice.IdentityStore
