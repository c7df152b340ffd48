import OnchainInvoice.Deployer.Actions

/-!
# What the deployer does

Each function of the deployer, from its requests to the whole tick, does only what can happen.
-/

namespace OnchainInvoice.WalletDeployer

open Evm IdentityTypes Lib.Awaits Lib.Handlers Recovery Relation Server WalletLog
open IdentityRoutes (bytes32)

variable {env : Recovery.Env} {contract : IdentityStore.Env} {s₀ : IdentityStore.State}
  {cfg : Config} {script : Nat → Turn Other Info} {starts requeues : String → Prop}
  {v v' : Waiting (World env contract s₀)} {job : Job} {α : Type}

/-! ## Requests -/

theorem leads_asked {f : Turn Other Info → StateM (World env contract s₀) α}
    (hf : ∀ turn w, Reaches cfg script starts requeues ⟨w, v.turn + 1⟩ ⟨(f turn w).2, v.turn + 1⟩) :
    Leads (Reaches cfg script starts requeues) (interact (World.apply cfg) script f) v :=
  leads_interact (reaches_afterWait v) (hf _ _)

@[simp] theorem ask_snd (call : Recovery.Call) (answer : RecoveryServer → Option α)
    (w : World env contract s₀) : (ask call answer w).2 = w.serve call := by
  unfold ask
  dsimp only
  split <;> rfl

theorem leads_request {call : Info → Recovery.Call} {answer : RecoveryServer → Option α}
    (hcall : ∀ info, Asks requeues (call info)) :
    Leads (Reaches cfg script starts requeues)
      (request cfg script call answer : Work env contract s₀ (Option α)) v := by
  unfold request
  apply Leads.bind
  · apply leads_asked
    intro turn w
    rw [ask_snd]
    exact .single (.asks (hcall turn.info))
  · exact fun _ _ _ => Leads.pure _

/-- An answer is read off what the call leaves. -/
theorem request_eq_some {call : Info → Recovery.Call} {answer : RecoveryServer → Option α} {a : α}
    (h : exec (request cfg script call answer : Work env contract s₀ (Option α)) v =
      (.ok (some a), v')) : answer v'.state.server = some a := by
  unfold request at h
  obtain ⟨reply, v₁, hrun, hreturn⟩ := exec_bind_eq_ok h
  cases reply with
  | none => cases hreturn
  | some reply =>
    obtain ⟨hask, -⟩ := interact_eq_some hrun
    cases hreturn
    unfold ask at hask
    dsimp only at hask
    split at hask
    · rw [Prod.mk.injEq] at hask
      rw [← hask.2]
      exact hask.1
    · cases hask

theorem leads_read {f : Turn Other Info → World env contract s₀ → α} :
    Leads (Reaches cfg script starts requeues) (read cfg script f) v :=
  leads_asked fun _ _ => .refl

theorem leads_rpc {f : Turn Other Info → StateM (World env contract s₀) (Except String α)}
    (hf : ∀ turn w, Reaches cfg script starts requeues ⟨w, v.turn + 1⟩ ⟨(f turn w).2, v.turn + 1⟩) :
    Leads (Reaches cfg script starts requeues) (rpc cfg script f) v := by
  unfold rpc
  apply (leads_asked hf).bind
  intro answer v' _
  cases answer with
  | none => exact Leads.throw _
  | some answer =>
    cases answer with
    | ok a => exact Leads.pure _
    | error message => exact Leads.throw _

theorem leads_view {f : Turn Other Info → World env contract s₀ → α} :
    Leads (Reaches cfg script starts requeues) (view cfg script f) v :=
  leads_rpc fun _ _ => .refl

/-- What is read is read off the world that is left. -/
theorem read_eq_some {f : Turn Other Info → World env contract s₀ → α} {a : α}
    (h : exec (read cfg script f) v = (.ok (some a), v')) : ∃ turn, f turn v'.state = a := by
  obtain ⟨hread, -⟩ := interact_eq_some h
  rw [Prod.mk.injEq] at hread
  rw [← hread.2]
  exact ⟨script v.turn, hread.1⟩

/-! ## The server -/

theorem leads_fetchRecoveryJobs {status : JobStatus} :
    Leads (Reaches cfg script starts requeues)
      (fetchRecoveryJobs cfg script status : Work env contract s₀ (List Job)) v :=
  leads_read.bind fun _ _ _ => leads_orThrow _

theorem leads_fetchWalletAccount {address : String} :
    Leads (Reaches cfg script starts requeues)
      (fetchWalletAccount cfg script address : Work env contract s₀ (Option WalletAccount)) v := by
  apply (leads_orThrow _).bind
  exact fun _ _ _ => leads_read.bind fun _ _ _ => Leads.pure _

theorem fetchWalletAccount_eq_some {wallet : String} {account : WalletAccount}
    (h : exec (fetchWalletAccount cfg script wallet) v = (.ok (some account), v')) :
    ∃ address, env.getAddress wallet = some address ∧ Shown v'.state address account := by
  obtain ⟨address, v₁, haddress, hread⟩ := exec_bind_eq_ok h
  obtain ⟨hsome, rfl⟩ := orThrow_eq_ok haddress
  obtain ⟨found, v₂, hread, hreturn⟩ := exec_bind_eq_ok hread
  cases found with
  | none => cases hreturn
  | some found =>
    obtain ⟨turn, hfound⟩ := read_eq_some hread
    cases hreturn
    refine ⟨address, hsome, ?_⟩
    exact shown_of_found hfound

theorem leads_claimRecoveryJob :
    Leads (Reaches cfg script starts requeues)
      (claimRecoveryJob cfg script job : Work env contract s₀ Job) v :=
  (leads_request fun _ => .claim _ _).bind fun _ _ _ => leads_orThrow _

theorem claimRecoveryJob_eq_ok {claimed : Job}
    (h : exec (claimRecoveryJob cfg script job : Work env contract s₀ Job) v = (.ok claimed, v')) :
    v'.state.server.db.jobs.find? job.id = some claimed := by
  obtain ⟨answer, v₁, hrun, hthrow⟩ := exec_bind_eq_ok h
  obtain ⟨rfl, rfl⟩ := orThrow_eq_ok hthrow
  exact request_eq_some hrun

theorem leads_trackRecoveryJob {status : JobStatus} {txHash error : Option String}
    (h : status = .pending → requeues job.id) :
    Leads (Reaches cfg script starts requeues)
      (trackRecoveryJob cfg script job status txHash error : Work env contract s₀ Unit) v := by
  apply Leads.bind
  · exact leads_request fun info => .track _ _ fun hpending => h (Option.some.inj hpending)
  · exact fun _ _ _ => leads_orThrow _

theorem leads_fetchUndeployedAccounts :
    Leads (Reaches cfg script starts requeues)
      (fetchUndeployedAccounts cfg script : Work env contract s₀ (List WalletAccount)) v :=
  leads_read.bind fun _ _ _ => leads_orThrow _

theorem leads_markDeployed {address : String} :
    Leads (Reaches cfg script starts requeues)
      (markDeployed cfg script address : Work env contract s₀ Unit) v :=
  (leads_request fun _ => .deployed _ _ _).bind fun _ _ _ => leads_orThrow _

/-! ## The chain -/

theorem sendTo_snd (cfg : Config) (job : Job) (call : Option IdentityStore.Call)
    (turn : Turn Other Info) (w : World env contract s₀) :
    (sendTo cfg job call turn w).2 = w ∨
      (sendTo cfg job call turn w).2 = w.submit ⟨job.id, call, none⟩ := by
  unfold sendTo
  split
  · exact .inl rfl
  · exact .inr rfl

theorem leads_send {call : Option IdentityStore.Call}
    (h : ∀ called ∈ call, ∀ i f, ¬ Restoring called i f) :
    Leads (Reaches cfg script starts requeues)
      (send cfg script job call : Work env contract s₀ Nat) v := by
  apply leads_rpc
  intro turn w
  rcases sendTo_snd cfg job call turn w with heq | heq
  · rw [heq]
  · rw [heq]
    refine .single (.sends rfl ?_)
    rintro ⟨called, i, f, hcall, hrestoring⟩
    exact h called hcall i f hrestoring

theorem not_restoring_executeRestore {i : Bytes32} :
    ∀ called ∈ some (IdentityStore.Call.executeRestore i), ∀ j f, ¬ Restoring called j f := by
  intro called hcalled j f h
  cases hcalled
  rcases h with h | h <;> cases h

theorem not_restoring_none :
    ∀ called ∈ (none : Option IdentityStore.Call), ∀ j f, ¬ Restoring called j f :=
  fun _ h => by cases h

theorem leads_wait {n : Nat} :
    Leads (Reaches cfg script starts requeues)
      (wait cfg script n : Work env contract s₀ String) v := by
  apply leads_rpc
  intro turn w
  exact .refl

theorem leads_chainNow :
    Leads (Reaches cfg script starts requeues) (chainNow cfg script : Work env contract s₀ Nat) v :=
  leads_view

theorem leads_reverting :
    Leads (Reaches cfg script starts requeues)
      (reverting cfg script : Work env contract s₀ Unit) v :=
  leads_rpc fun _ _ => .refl

theorem leads_createAccount {address : String} :
    Leads (Reaches cfg script starts requeues)
      (createAccount cfg script job address : Work env contract s₀ Unit) v := by
  apply (leads_send not_restoring_none).bind
  exact fun _ _ _ => leads_wait.bind fun _ _ _ => leads_markDeployed

/-! ## Initiate -/

theorem leads_ensureIdentityWalletDeployed {account : WalletAccount} :
    Leads (Reaches cfg script starts requeues)
      (ensureIdentityWalletDeployed cfg script job account : Work env contract s₀ Unit) v := by
  unfold ensureIdentityWalletDeployed
  apply leads_view.bind
  intro deployed v₁ _
  split
  · exact Leads.pure _
  · apply leads_view.bind
    intro balance v₂ _
    split
    · exact Leads.pure _
    · exact leads_createAccount

theorem leads_awaitOperator (h : requeues job.id) :
    Leads (Reaches cfg script starts requeues)
      (awaitOperator cfg script job : Work env contract s₀ Unit) v :=
  leads_trackRecoveryJob fun _ => h

theorem leads_initiateOwnerRecovery (h : requeues job.id) :
    Leads (Reaches cfg script starts requeues)
      (initiateOwnerRecovery cfg script job : Work env contract s₀ Unit) v := by
  unfold initiateOwnerRecovery
  split
  · exact Leads.throw _
  · apply leads_view.bind
    intro deployed v₁ _
    split
    · exact leads_reverting
    · apply leads_fetchUndeployedAccounts.bind
      intro accounts v₂ _
      split
      · exact leads_trackRecoveryJob fun _ => h
      · apply leads_view.bind
        intro balance v₃ _
        split
        · exact leads_trackRecoveryJob fun _ => h
        · split
          · exact Leads.throw _
          · exact leads_createAccount.bind fun _ _ _ => leads_reverting

-- Nothing is started and nothing put back.
abbrev Quiet (cfg : Config) (script : Nat → Turn Other Info) :
    Waiting (World env contract s₀) → Waiting (World env contract s₀) → Prop :=
  Reaches cfg script (fun _ => False) (fun _ => False)

theorem Reaches.of_quiet (h : Quiet cfg script v v') : Reaches cfg script starts requeues v v' :=
  h.mono (fun _ hno => hno.elim) fun _ hno => hno.elim

/-- The restore of the job is started at most once, and nothing is put back. -/
inductive Starts (cfg : Config) (script : Nat → Turn Other Info) (job : Job)
    (v v' : Waiting (World env contract s₀)) : Prop
  | never (h : Quiet cfg script v v')
  | once {w : World env contract s₀} {turn : Nat} {i : Bytes32} {f : MethodFields}
      (hbefore : Quiet cfg script v ⟨w, turn⟩) (htargets : Targets w job i f)
      (hafter : Quiet cfg script
        ⟨w.submit ⟨job.id, some (.initiateRestore i f), none⟩, turn⟩ v')

theorem Starts.reaches (h : Starts cfg script job v v') (hstarts : starts job.id) :
    Reaches cfg script starts requeues v v' := by
  cases h with
  | never h => exact .of_quiet h
  | once hbefore htargets hafter =>
    exact (Reaches.of_quiet hbefore).trans
      (.head (.restores hstarts htargets) (Reaches.of_quiet hafter))

theorem Starts.after {v₁ : Waiting (World env contract s₀)} (h : Quiet cfg script v v₁)
    (hstarts : Starts cfg script job v₁ v') : Starts cfg script job v v' := by
  cases hstarts with
  | never h' => exact .never (h.trans h')
  | once hbefore htargets hafter => exact .once (h.trans hbefore) htargets hafter

theorem Starts.before {v₁ : Waiting (World env contract s₀)} (hstarts : Starts cfg script job v v₁)
    (h : Quiet cfg script v₁ v') : Starts cfg script job v v' := by
  cases hstarts with
  | never h' => exact .never (h'.trans h)
  | once hbefore htargets hafter => exact .once hbefore htargets (hafter.trans h)

theorem starts_send {identityId : String} {i : Bytes32} {f : MethodFields}
    (hready : Ready v.state job identityId) (hi : bytes32 identityId = some i)
    (hf : restoreFields job = some f) :
    Leads (Starts cfg script job)
      (send cfg script job (some (.initiateRestore i f)) : Work env contract s₀ Nat) v := by
  have hwait : Quiet cfg script v (afterWait (World.apply cfg) script v) := reaches_afterWait v
  have hsent : Starts cfg script job v
      ⟨(sendTo cfg job (some (.initiateRestore i f)) (script v.turn)
        (afterWait (World.apply cfg) script v).state).2, v.turn + 1⟩ := by
    rcases sendTo_snd cfg job (some (.initiateRestore i f)) (script v.turn)
      (afterWait (World.apply cfg) script v).state with heq | heq
    · rw [heq]
      exact .never hwait
    · rw [heq]
      exact .once hwait ⟨identityId, hready.mono hwait.calls, hi, hf⟩ .refl
  unfold Leads send rpc
  cases hrun : exec (interact (World.apply cfg) script
      (sendTo cfg job (some (.initiateRestore i f)))) v with
  | mk answer v₁ =>
    have hstart : Starts cfg script job v v₁ := by
      rw [exec_interact] at hrun
      dsimp only at hrun
      split at hrun <;> cases hrun <;> first | exact hsent | exact .never hwait
    cases answer with
    | error e =>
      rw [exec_bind_error hrun]
      exact hstart
    | ok answer =>
      rw [exec_bind_ok hrun]
      cases answer with
      | none => exact hstart
      | some answer => cases answer <;> exact hstart

theorem starts_startRestore {identityId : String} (hready : Ready v.state job identityId) :
    Leads (Starts cfg script job)
      (startRestore cfg script job identityId : Work env contract s₀ Unit) v := by
  unfold startRestore
  cases hi : bytes32 identityId with
  | none => exact .never .refl
  | some i =>
    cases hf : restoreFields job with
    | none => exact .never .refl
    | some f =>
      have hsend : Leads (Starts cfg script job)
          (send cfg script job (some (.initiateRestore i f)) : Work env contract s₀ Nat) v :=
        starts_send hready hi hf
      show Starts cfg script job v (exec _ v).2
      unfold encoded
      rw [exec_bind_ok (exec_orThrow_some _ i v), exec_bind_ok (exec_orThrow_some _ f v)]
      cases hrun : exec (send cfg script job (some (.initiateRestore i f))) v with
      | mk answer v₁ =>
        have hstart := hsend.after hrun
        cases answer with
        | error e =>
          rw [exec_bind_error hrun]
          exact hstart
        | ok n =>
          rw [exec_bind_ok hrun]
          refine hstart.before ?_
          apply leads_wait.bind
          intro hash v₂ _
          apply leads_view.bind
          intro delay v₃ _
          split
          · apply (leads_send not_restoring_executeRestore).bind
            intro n v₄ _
            apply leads_wait.bind
            exact fun _ _ _ => leads_trackRecoveryJob fun h => by cases h
          · exact leads_trackRecoveryJob fun h => by cases h

theorem leads_initiateRestore {identityId : String} (hstarts : starts job.id)
    (hrequeues : requeues job.id) (hready : Ready v.state job identityId) :
    Leads (Reaches cfg script starts requeues)
      (initiateRestore cfg script job identityId : Work env contract s₀ Unit) v := by
  unfold initiateRestore
  have hview : Leads (Quiet cfg script) (view cfg script fun _ w => w.store.recoveryOperator) v :=
    leads_view
  apply leads_view.bind
  intro operator v₁ hrun
  split
  · exact leads_awaitOperator hrequeues
  · exact (starts_startRestore (hready.mono (hview.after hrun).calls)).reaches hstarts

theorem ready_of_fetched {identityId : String} {account : WalletAccount}
    (hhanded : Handed v.state job) (hkind : job.kind = .initiate)
    (h : exec (fetchWalletAccount cfg script job.walletAddress) v = (.ok (some account), v'))
    (hidentity : present account.identityId = some identityId) :
    Ready v'.state job identityId := by
  have hleads : Leads (Quiet cfg script)
      (fetchWalletAccount cfg script job.walletAddress : Work env contract s₀ _) v :=
    leads_fetchWalletAccount
  obtain ⟨address, haddress, hshown⟩ := fetchWalletAccount_eq_some h
  refine ⟨hhanded.mono (hleads.after h).calls, hkind, address, account, haddress, hshown, ?_⟩
  exact (Option.filter_eq_some_iff.mp hidentity).1

theorem leads_initiateForIdentity {account : WalletAccount} {identityId : String}
    (hstarts : starts job.id) (hrequeues : requeues job.id) (hready : Ready v.state job identityId) :
    Leads (Reaches cfg script starts requeues)
      (initiateForIdentity cfg script job account identityId : Work env contract s₀ Unit) v := by
  unfold initiateForIdentity
  have hensure : Leads (Quiet cfg script)
      (ensureIdentityWalletDeployed cfg script job account : Work env contract s₀ Unit) v :=
    leads_ensureIdentityWalletDeployed
  apply leads_ensureIdentityWalletDeployed.bind
  intro _ v₁ hrun
  split
  · exact Leads.throw _
  · apply leads_caught
    · exact leads_initiateRestore hstarts hrequeues (hready.mono (hensure.after hrun).calls)
    · intro message v₂ _
      split
      · exact leads_awaitOperator hrequeues
      · exact Leads.throw _

theorem leads_runInitiate (hstarts : starts job.id) (hrequeues : requeues job.id)
    (hhanded : Handed v.state job) (hkind : job.kind = .initiate) :
    Leads (Reaches cfg script starts requeues)
      (runInitiate cfg script job : Work env contract s₀ Unit) v := by
  unfold runInitiate
  split
  · exact Leads.throw _
  · apply leads_fetchWalletAccount.bind
    intro account v₁ hfetched
    cases account with
    | none => exact leads_initiateOwnerRecovery hrequeues
    | some account =>
      dsimp only
      split
      · exact leads_initiateOwnerRecovery hrequeues
      · next identityId hidentity =>
        have hready := ready_of_fetched hhanded hkind hfetched hidentity
        exact leads_initiateForIdentity hstarts hrequeues hready

/-! ## Cancel and execute -/

theorem leads_identityStoreAddress :
    Leads (Reaches cfg script starts requeues)
      (identityStoreAddress cfg script job : Work env contract s₀ (Option String)) v := by
  apply leads_caught
  · apply (leads_orThrow _).bind
    intro _ v₁ _
    apply leads_view.bind
    intro store v₂ _
    split
    · exact Leads.pure _
    · exact (leads_orThrow _).bind fun _ _ _ => Leads.pure _
  · exact fun _ _ _ => Leads.pure _

theorem leads_reportIncluded {n : Nat} :
    Leads (Reaches cfg script starts requeues)
      (reportIncluded cfg script job n : Work env contract s₀ Unit) v :=
  leads_wait.bind fun _ _ _ => leads_trackRecoveryJob fun h => by cases h

theorem not_restoring_callAt {address : String} {i : Bytes32} {authorization : Bytes} :
    ∀ called ∈ callAt cfg address (.cancelRestore i authorization), ∀ j f,
      ¬ Restoring called j f := by
  intro called hcalled j f h
  unfold callAt at hcalled
  split at hcalled
  · cases hcalled
    rcases h with h | h <;> cases h
  · cases hcalled

theorem leads_runCancel :
    Leads (Reaches cfg script starts requeues)
      (runCancel cfg script job : Work env contract s₀ Unit) v := by
  unfold runCancel
  apply (leads_orThrow _).bind
  intro signature v₁ _
  apply leads_fetchWalletAccount.bind
  intro account v₂ _
  split
  · apply leads_identityStoreAddress.bind
    intro named v₃ _
    apply (leads_orThrow _).bind
    intro address v₄ _
    apply (leads_orThrow _).bind
    intro i v₅ _
    apply (leads_orThrow _).bind
    intro authorization v₆ _
    apply (leads_send not_restoring_callAt).bind
    exact fun _ _ _ => leads_reportIncluded
  · apply (leads_orThrow _).bind
    intro _ v₃ _
    apply (leads_send not_restoring_none).bind
    exact fun _ _ _ => leads_reportIncluded

theorem leads_runExecute (h : requeues job.id) :
    Leads (Reaches cfg script starts requeues)
      (runExecute cfg script job : Work env contract s₀ Unit) v := by
  unfold runExecute
  apply leads_fetchWalletAccount.bind
  intro account v₁ _
  split
  · exact Leads.throw _
  · split
    · apply (leads_orThrow _).bind
      intro i v₂ _
      apply leads_view.bind
      intro pending v₃ _
      split
      · exact leads_trackRecoveryJob fun _ => h
      · apply leads_chainNow.bind
        intro now v₄ _
        split
        · exact leads_trackRecoveryJob fun _ => h
        · apply (leads_send not_restoring_executeRestore).bind
          exact fun _ _ _ => leads_reportIncluded
    · apply (leads_orThrow _).bind
      intro _ v₂ _
      apply leads_view.bind
      intro pending v₃ _
      split
      · exact leads_trackRecoveryJob fun _ => h
      · apply leads_chainNow.bind
        intro now v₄ _
        split
        · exact leads_trackRecoveryJob fun _ => h
        · exact leads_reverting

theorem leads_queueExecute :
    Leads (Reaches cfg script starts requeues)
      (queueExecute cfg script job : Work env contract s₀ Unit) v := by
  unfold queueExecute
  apply leads_fetchWalletAccount.bind
  intro account v₁ _
  split
  · apply (leads_orThrow _).bind
    intro i v₂ _
    apply leads_view.bind
    intro pending v₃ _
    split
    · apply leads_chainNow.bind
      intro now v₄ _
      split
      · apply (leads_send not_restoring_executeRestore).bind
        exact fun _ _ _ => leads_wait.bind fun _ _ _ => Leads.pure _
      · exact Leads.pure _
    · exact Leads.pure _
  · apply (leads_orThrow _).bind
    exact fun _ _ _ => leads_view.bind fun _ _ _ => Leads.pure _

theorem leads_maybeQueueExecutes :
    Leads (Reaches cfg script starts requeues)
      (maybeQueueExecutes cfg script : Work env contract s₀ Unit) v := by
  apply leads_fetchRecoveryJobs.bind
  intro included v₁ _
  refine (Leads.foldlM (I := fun _ _ => True) (fun _ job s _ _ => ?_) trivial).1
  exact ⟨leads_caught leads_queueExecute fun _ _ _ => Leads.pure _, fun _ _ _ => trivial⟩

/-! ## A tick -/

theorem leads_runJob {cancelWallets : List String} (hstarts : starts job.id)
    (hrequeues : requeues job.id) (hhanded : Handed v.state job) :
    Leads (Reaches cfg script starts requeues)
      (runJob cfg script cancelWallets job : Work env contract s₀ Unit) v := by
  unfold runJob
  split
  · next hkind => exact leads_runInitiate hstarts hrequeues hhanded hkind
  · exact leads_runCancel
  · split
    · exact leads_trackRecoveryJob fun h => by cases h
    · exact leads_runExecute hrequeues

theorem caught_eq_some {x : Work env contract s₀ α} {a : α}
    (h : exec (caught (some <$> x) fun _ => return none) v = (.ok (some a), v')) :
    exec x v = (.ok a, v') := by
  unfold caught at h
  cases hrun : exec x v with
  | mk answer v₁ =>
    cases answer with
    | ok b =>
      have hmap : exec (some <$> x) v = (.ok (some b), v₁) := by rw [exec_map, hrun]; rfl
      rw [exec_rescue_ok hmap] at h
      cases h
      rfl
    | error e =>
      have hmap : exec (some <$> x) v = (.error e, v₁) := by rw [exec_map, hrun]; rfl
      rw [exec_rescue_error hmap] at h
      cases e <;> cases h

theorem Leads.map {R : Waiting (World env contract s₀) → Waiting (World env contract s₀) → Prop}
    {β : Type} {x : Work env contract s₀ α} {g : α → β} (h : Leads R x v) :
    Leads R (g <$> x) v := by
  unfold Leads at h ⊢
  rwa [exec_map]

theorem leads_processJob {cancelWallets : List String} (hstarts : starts job.id)
    (hrequeues : requeues job.id) :
    Leads (Reaches cfg script starts requeues)
      (processJob cfg script cancelWallets job : Work env contract s₀ Unit) v := by
  unfold processJob
  split
  · have hclaim : Leads (Reaches cfg script starts requeues)
        (caught (some <$> claimRecoveryJob cfg script job) fun _ => return none :
          Work env contract s₀ (Option Job)) v :=
      leads_caught (Leads.map leads_claimRecoveryJob) fun _ _ _ => Leads.pure _
    apply hclaim.bind
    intro answer v₁ hrun
    cases answer with
    | none => exact Leads.pure _
    | some claimed =>
      have hfound := claimRecoveryJob_eq_ok (caught_eq_some hrun)
      have hid : claimed.id = job.id := Lib.Tables.Table.key_of_find? hfound
      rw [← hid] at hstarts hrequeues
      apply leads_caught
      · exact leads_runJob hstarts hrequeues (handed_of_found hfound)
      · exact fun _ _ _ => leads_trackRecoveryJob fun h => by cases h
  · exact Leads.pure _

theorem leads_processJobs {cancelWallets : List String} {jobs : List Job}
    (h : ∀ job ∈ jobs, starts job.id ∧ requeues job.id) :
    Leads (Reaches cfg script starts requeues)
      (jobs.foldlM (fun _ job => processJob cfg script cancelWallets job) () :
        Work env contract s₀ Unit) v := by
  refine (Leads.foldlM (I := fun _ _ => True) (fun _ job s hjob _ => ?_) trivial).1
  exact ⟨leads_processJob (h job hjob).1 (h job hjob).2, fun _ _ _ => trivial⟩

theorem leads_tick (hstarts : ∀ id, starts id) (hrequeues : ∀ id, requeues id) :
    Leads (Reaches cfg script starts requeues) (tick cfg script : Work env contract s₀ Unit) v := by
  apply leads_caught
  · apply leads_fetchRecoveryJobs.bind
    intro listed v₁ _
    dsimp only
    split
    · apply (leads_processJobs fun job _ => ⟨hstarts job.id, hrequeues job.id⟩).bind
      exact fun _ _ _ => leads_maybeQueueExecutes
    · exact Leads.pure _
  · exact fun _ _ _ => Leads.pure _

theorem reaches_ticks (n : Nat) :
    Reaches cfg script (fun _ => True) (fun _ => True) ⟨World.start env contract s₀, 0⟩
      (ticks cfg script n) := by
  induction n with
  | zero => exact .refl
  | succ n ih => exact ih.trans (leads_tick (fun _ => trivial) fun _ => trivial)

end OnchainInvoice.WalletDeployer
