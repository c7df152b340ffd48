import OnchainInvoice.Deployer.Effects

/-!
# What becomes of a job

A job that is put back has had nothing sent for it, and one that something was sent for is not put
back: what fails after that does not read like the refusal of an operator.
-/

namespace OnchainInvoice.WalletDeployer

open Evm IdentityTypes Lib.Awaits Lib.Handlers Lib.Revert Recovery Relation Server WalletLog
open IdentityRoutes (bytes32)

variable {env : Recovery.Env} {contract : IdentityStore.Env} {s₀ : IdentityStore.State}
  {cfg : Config} {script : Nat → Turn Other Info} {v v' : Waiting (World env contract s₀)}
  {job : Job} {α β : Type}

/-! ## Failures -/

/-- Only the refusal of an operator reads like one. -/
def TellsApart (script : Nat → Turn Other Info) : Prop :=
  ∀ n, namesOperator (script n).message = false ∧
    ∀ e, namesOperator ((script n).info.refusal e) = true → e = .notRecoveryOperator

/-- No failure reads like the refusal of an operator. -/
def Plain (x : Work env contract s₀ α) (v : Waiting (World env contract s₀)) : Prop :=
  ∀ message v', exec x v = (.error (.thrown message), v') → namesOperator message = false

theorem Plain.pure (a : α) : Plain (Pure.pure a : Work env contract s₀ α) v := by
  intro message v' h
  cases h

theorem Plain.throw {message : String} (h : namesOperator message = false) :
    Plain (MonadExcept.throw (.thrown message) : Work env contract s₀ α) v := by
  intro message' v' hrun
  cases hrun
  exact h

theorem Plain.bind {x : Work env contract s₀ α} {f : α → Work env contract s₀ β} (hx : Plain x v)
    (hf : ∀ a v', exec x v = (.ok a, v') → Plain (f a) v') : Plain (x >>= f) v := by
  intro message v' h
  cases hrun : exec x v with
  | mk answer v₁ =>
    cases answer with
    | ok a =>
      rw [exec_bind_ok hrun] at h
      exact hf a v₁ hrun message v' h
    | error e =>
      rw [exec_bind_error hrun] at h
      cases h
      exact hx message v' hrun

theorem plain_orThrow {message : String} (h : namesOperator message = false) (o : Option α) :
    Plain (orThrow message o : Work env contract s₀ α) v := by
  cases o with
  | none => exact Plain.throw h
  | some a => exact Plain.pure a

theorem plain_interact (happart : TellsApart script)
    {f : Turn Other Info → StateM (World env contract s₀) α} :
    Plain (interact (World.apply cfg) script f) v := by
  intro message v' h
  rw [exec_interact] at h
  cases hfate : (script v.turn).fate <;> rw [hfate] at h <;> cases h <;>
    exact (happart v.turn).1

theorem plain_request (happart : TellsApart script) {call : Info → Recovery.Call}
    {answer : RecoveryServer → Option α} :
    Plain (request cfg script call answer : Work env contract s₀ (Option α)) v :=
  (plain_interact happart).bind fun _ _ _ => Plain.pure _

theorem plain_rpc (happart : TellsApart script)
    {f : Turn Other Info → StateM (World env contract s₀) (Except String α)}
    (hf : ∀ n w message, (f (script n) w).1 = .error message → namesOperator message = false) :
    Plain (rpc cfg script f) v := by
  apply (plain_interact happart).bind
  intro answer v₁ hrun
  cases answer with
  | none => exact Plain.throw (by decide +kernel)
  | some answer =>
    cases answer with
    | ok a => exact Plain.pure a
    | error message =>
      obtain ⟨hanswer, -⟩ := interact_eq_some hrun
      exact Plain.throw (hf v.turn _ message (by rw [hanswer]))

theorem plain_view (happart : TellsApart script) {f : Turn Other Info → World env contract s₀ → α} :
    Plain (view cfg script f) v :=
  plain_rpc happart fun _ _ _ h => by cases h

theorem plain_wait (happart : TellsApart script) {n : Nat} :
    Plain (wait cfg script n : Work env contract s₀ String) v := by
  apply plain_rpc happart
  intro m w message h
  dsimp only at h
  split at h
  · cases h
  · cases h
    exact (happart m).1

theorem plain_trackRecoveryJob (happart : TellsApart script) {status : JobStatus}
    {txHash error : Option String} :
    Plain (trackRecoveryJob cfg script job status txHash error : Work env contract s₀ Unit) v :=
  (plain_request happart).bind fun _ _ _ => plain_orThrow (by decide +kernel) _

/-- Only who may start a restore is refused as an operator. -/
theorem executeRestore_ne_refused (s : IdentityStore.State) (timestamp : Uint256) (i : Bytes32) :
    IdentityStore.executeRestore contract s timestamp i ≠ .error .notRecoveryOperator := by
  have hcheck : ∀ {c : Bool} {e : Error}, e ≠ .notRecoveryOperator →
      revertIf c e ≠ .error .notRecoveryOperator := fun he h => he (revertIf_eq_error.mp h).2
  have hadd : ∀ a b : Uint8, checkedAdd Error.panic a b ≠ .error .notRecoveryOperator := by
    intro a b h
    unfold checkedAdd at h
    split at h <;> cases h
  have hfields : ∀ f, IdentityStore.assertMethodFields f ≠ .error .notRecoveryOperator := by
    intro f
    unfold IdentityStore.assertMethodFields IdentityStore.assertP256
    split
    · exact hcheck (by decide)
    · split
      · exact bind_ne_error (hcheck (by decide)) fun _ _ => hcheck (by decide)
      · simp
  have hmethod : ∀ s f,
      IdentityStore.addMethodInternal contract s i f ≠ .error .notRecoveryOperator := by
    intro s f
    unfold IdentityStore.addMethodInternal
    refine bind_ne_error (hcheck (by decide)) fun _ _ => ?_
    refine bind_ne_error (hcheck (by decide)) fun _ _ => ?_
    refine bind_ne_error (hfields f) fun _ _ => ?_
    refine bind_ne_error (hcheck (by decide)) fun _ _ => ?_
    refine bind_ne_error (hadd _ _) fun _ _ => ?_
    exact bind_ne_error (hadd _ _) fun _ _ => pure_ne_error
  unfold IdentityStore.executeRestore IdentityStore.executeRestoreInternal
  refine bind_ne_error (hcheck (by decide)) fun _ _ => ?_
  refine bind_ne_error (hcheck (by decide)) fun _ _ => ?_
  refine bind_ne_error (hcheck (by decide)) fun _ _ => ?_
  refine bind_ne_error (hcheck (by decide)) fun _ _ => ?_
  exact bind_ne_error (hmethod _ _) fun _ _ => pure_ne_error

theorem plain_sendExecute (happart : TellsApart script) {i : Bytes32} :
    Plain (send cfg script job (some (.executeRestore i)) : Work env contract s₀ Nat) v := by
  apply plain_rpc happart
  intro n w message h
  unfold sendTo at h
  split at h
  · next e hestimate =>
    cases h
    unfold estimate at hestimate
    by_contra hnamed
    rw [(happart n).2 e (by simpa using hnamed)] at hestimate
    exact executeRestore_ne_refused w.store _ i (map_eq_error.mp hestimate)
  · cases h

/-! ## Initiate -/

-- Nothing is started, and the job may be put back.
abbrev PutsBack (cfg : Config) (script : Nat → Turn Other Info) (job : Job) :
    Waiting (World env contract s₀) → Waiting (World env contract s₀) → Prop :=
  Reaches cfg script (fun _ => False) (· = job.id)

/-- The job may be put back, or its restore may be started, but not both. -/
def Becomes (cfg : Config) (script : Nat → Turn Other Info) (job : Job)
    (v v' : Waiting (World env contract s₀)) : Prop :=
  PutsBack cfg script job v v' ∨ Starts cfg script job v v'

theorem Becomes.after {v₁ : Waiting (World env contract s₀)} (h : Quiet cfg script v v₁)
    (hrest : Becomes cfg script job v₁ v') : Becomes cfg script job v v' := by
  rcases hrest with hback | hstarts
  · exact .inl ((Reaches.of_quiet h).trans hback)
  · exact .inr (hstarts.after h)

theorem becomes_bind {x : Work env contract s₀ α} {f : α → Work env contract s₀ β}
    (hx : Leads (Quiet cfg script) x v)
    (hf : ∀ a v', exec x v = (.ok a, v') → Leads (Becomes cfg script job) (f a) v') :
    Leads (Becomes cfg script job) (x >>= f) v := by
  unfold Leads
  cases hrun : exec x v with
  | mk answer v₁ =>
    have hquiet := hx.after hrun
    cases answer with
    | ok a =>
      rw [exec_bind_ok hrun]
      exact Becomes.after hquiet (hf a v₁ hrun)
    | error e =>
      rw [exec_bind_error hrun]
      exact .inl (.of_quiet hquiet)

/-- A failure to send a restore reads like a refusal only if it was not sent. -/
theorem sendRestore_error (happart : TellsApart script) {i : Bytes32} {f : MethodFields}
    {message : String} (h : exec (send cfg script job (some (.initiateRestore i f)) :
      Work env contract s₀ Nat) v = (.error (.thrown message), v')) :
    Quiet cfg script v v' ∨ namesOperator message = false := by
  have hwait : Quiet cfg script v (afterWait (World.apply cfg) script v) := reaches_afterWait v
  unfold send rpc at h
  cases hrun : exec (interact (World.apply cfg) script
      (sendTo cfg job (some (.initiateRestore i f)))) v with
  | mk answer v₁ =>
    cases answer with
    | error e =>
      rw [exec_bind_error hrun] at h
      cases h
      exact .inr (plain_interact happart message v' hrun)
    | ok answer =>
      rw [exec_bind_ok hrun] at h
      cases answer with
      | none =>
        cases h
        exact .inr (by decide +kernel)
      | some answer =>
        obtain ⟨hsent, hturn⟩ := interact_eq_some hrun
        cases answer with
        | ok n => cases h
        | error refusal =>
          cases h
          unfold sendTo at hsent
          split at hsent
          · obtain ⟨-, hsame⟩ := Prod.mk.inj hsent
            have hafter : v' = afterWait (World.apply cfg) script v := by
              cases v'
              exact congrArg₂ Waiting.mk hsame.symm hturn
            rw [hafter]
            exact .inl hwait
          · cases hsent

theorem startRestore_error (happart : TellsApart script) {identityId message : String}
    (h : exec (startRestore cfg script job identityId : Work env contract s₀ Unit) v =
      (.error (.thrown message), v')) :
    Quiet cfg script v v' ∨ namesOperator message = false := by
  unfold startRestore encoded at h
  cases hi : bytes32 identityId with
  | none =>
    rw [hi] at h
    cases h
    exact .inl .refl
  | some i =>
    rw [hi, exec_bind_ok (exec_orThrow_some _ i v)] at h
    cases hf : restoreFields job with
    | none =>
      rw [hf] at h
      cases h
      exact .inl .refl
    | some f =>
      rw [hf, exec_bind_ok (exec_orThrow_some _ f v)] at h
      cases hrun : exec (send cfg script job (some (.initiateRestore i f))) v with
      | mk answer v₁ =>
        cases answer with
        | error e =>
          rw [exec_bind_error hrun] at h
          cases h
          exact sendRestore_error happart hrun
        | ok n =>
          rw [exec_bind_ok hrun] at h
          right
          revert h
          refine Plain.bind (plain_wait happart) (fun hash v₂ _ => ?_) message v'
          refine (plain_view happart).bind fun delay v₃ _ => ?_
          split
          · refine (plain_sendExecute happart).bind fun _ v₄ _ => ?_
            exact (plain_wait happart).bind fun _ _ _ => plain_trackRecoveryJob happart
          · exact plain_trackRecoveryJob happart

/-- A restore that was started fails with nothing that reads like a refusal. -/
theorem initiateRestore_outcome (happart : TellsApart script) {identityId : String}
    (hready : Ready v.state job identityId) {answer : Except Failure Unit}
    (h : exec (initiateRestore cfg script job identityId) v = (answer, v')) :
    PutsBack cfg script job v v' ∨ Starts cfg script job v v' ∧
      ∀ message, answer = .error (.thrown message) → namesOperator message = false := by
  unfold initiateRestore at h
  have hview : Leads (Quiet cfg script) (view cfg script fun _ w => w.store.recoveryOperator) v :=
    leads_view
  cases hrun : exec (view cfg script fun _ w => w.store.recoveryOperator) v with
  | mk operator v₁ =>
    have hquiet := hview.after hrun
    cases operator with
    | error e =>
      rw [exec_bind_error hrun] at h
      cases h
      exact .inl (.of_quiet hquiet)
    | ok operator =>
      rw [exec_bind_ok hrun] at h
      split at h
      · have hawait : Leads (PutsBack cfg script job)
            (awaitOperator cfg script job : Work env contract s₀ Unit) v₁ :=
          leads_awaitOperator rfl
        exact .inl ((Reaches.of_quiet hquiet).trans (hawait.after h))
      · have hstart : Leads (Starts cfg script job)
            (startRestore cfg script job identityId : Work env contract s₀ Unit) v₁ :=
          starts_startRestore (hready.mono hquiet.calls)
        have hstarts := (hstart.after h).after hquiet
        cases answer with
        | ok u => exact .inr ⟨hstarts, fun _ heq => by cases heq⟩
        | error e =>
          cases e with
          | stopped => exact .inr ⟨hstarts, fun _ heq => by cases heq⟩
          | thrown message =>
            rcases startRestore_error happart h with hnothing | hplain
            · exact .inl (.of_quiet (hquiet.trans hnothing))
            · refine .inr ⟨hstarts, fun _ heq => ?_⟩
              cases heq
              exact hplain

theorem becomes_initiateForIdentity (happart : TellsApart script) {account : WalletAccount}
    {identityId : String} (hready : Ready v.state job identityId) :
    Leads (Becomes cfg script job)
      (initiateForIdentity cfg script job account identityId : Work env contract s₀ Unit) v := by
  unfold initiateForIdentity
  have hensure : Leads (Quiet cfg script)
      (ensureIdentityWalletDeployed cfg script job account : Work env contract s₀ Unit) v :=
    leads_ensureIdentityWalletDeployed
  apply becomes_bind hensure
  intro _ v₁ hensured
  have hready₁ := hready.mono (hensure.after hensured).calls
  split
  · exact .inl .refl
  · unfold Leads caught
    cases hrun : exec (initiateRestore cfg script job identityId) v₁ with
    | mk answer v₂ =>
      have houtcome := initiateRestore_outcome happart hready₁ hrun
      have hbecomes : Becomes cfg script job v₁ v₂ := houtcome.imp_right And.left
      cases answer with
      | ok u =>
        rw [exec_rescue_ok hrun]
        exact hbecomes
      | error e =>
        rw [exec_rescue_error hrun]
        cases e with
        | stopped => exact hbecomes
        | thrown message =>
          dsimp only
          split
          · next hnamed =>
            have hawait : Leads (PutsBack cfg script job)
                (awaitOperator cfg script job : Work env contract s₀ Unit) v₂ :=
              leads_awaitOperator rfl
            rcases houtcome with hback | ⟨-, hplain⟩
            · exact .inl (hback.trans hawait)
            · rw [hplain message rfl] at hnamed
              cases hnamed
          · exact hbecomes

/-! ## A job -/

theorem becomes_runInitiate (happart : TellsApart script) (hhanded : Handed v.state job)
    (hkind : job.kind = .initiate) :
    Leads (Becomes cfg script job) (runInitiate cfg script job : Work env contract s₀ Unit) v := by
  have howner : ∀ v, Leads (Becomes cfg script job)
      (initiateOwnerRecovery cfg script job : Work env contract s₀ Unit) v := fun v =>
    .inl (leads_initiateOwnerRecovery rfl)
  unfold runInitiate
  split
  · exact .inl .refl
  · apply becomes_bind leads_fetchWalletAccount
    intro account v₁ hfetched
    cases account with
    | none => exact howner v₁
    | some account =>
      dsimp only
      split
      · exact howner v₁
      · next identityId hidentity =>
        exact becomes_initiateForIdentity happart
          (ready_of_fetched hhanded hkind hfetched hidentity)

theorem becomes_runJob (happart : TellsApart script) (hhanded : Handed v.state job)
    {cancelWallets : List String} :
    Leads (Becomes cfg script job)
      (runJob cfg script cancelWallets job : Work env contract s₀ Unit) v := by
  unfold runJob
  split
  · next hkind => exact becomes_runInitiate happart hhanded hkind
  · exact .inl (leads_runCancel)
  · split
    · exact .inl (leads_trackRecoveryJob fun h => by cases h)
    · exact .inl (leads_runExecute rfl)

/-- What fails is reported, and nothing is put back by that. -/
theorem becomes_reported (happart : TellsApart script) (hhanded : Handed v.state job)
    (cancelWallets : List String) :
    Leads (Becomes cfg script job) (caught (runJob cfg script cancelWallets job) fun message =>
      trackRecoveryJob cfg script job .failed none (some (failed message)) :
        Work env contract s₀ Unit) v := by
  have hrunJob : Leads (Becomes cfg script job)
      (runJob cfg script cancelWallets job : Work env contract s₀ Unit) v :=
    becomes_runJob happart hhanded
  unfold Leads caught
  cases hrun : exec (runJob cfg script cancelWallets job) v with
  | mk answer v₁ =>
    have hbecomes := hrunJob.after hrun
    cases answer with
    | ok u =>
      rw [exec_rescue_ok hrun]
      exact hbecomes
    | error e =>
      rw [exec_rescue_error hrun]
      cases e with
      | stopped => exact hbecomes
      | thrown message =>
        have htrack : Leads (Quiet cfg script) (trackRecoveryJob cfg script job .failed none
            (some (failed message)) : Work env contract s₀ Unit) v₁ :=
          leads_trackRecoveryJob fun h => by cases h
        rcases hbecomes with hback | hstarts
        · exact .inl (hback.trans (Reaches.of_quiet htrack))
        · exact .inr (hstarts.before htrack)

end OnchainInvoice.WalletDeployer
