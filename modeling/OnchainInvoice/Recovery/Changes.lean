import OnchainInvoice.Recovery.Server

/-!
# What a step leaves in the database

Every handler ends in one of a few ways.  `Change` lists them with the checks that were passed, so
that a statement about all the routes is a case analysis that opens none of them.
-/

namespace OnchainInvoice.Recovery

open Lib.Revert Lib.Tables Server WalletLog

variable {env : Env} {db db' : RecoveryDb} {now : Time}

/-! ## The database -/

section Database

variable {id clientId walletAddress email challenge codeHash : String} {otpPurpose : OtpPurpose}

theorem consumeHosted_eq {purpose : HostedPurpose}
    (h : consumeHostedRecoveryChallenge db now id purpose = some (challenge, db')) :
    ∃ t, db' = { db with hostedChallenges := t } := by
  obtain ⟨consumed, -, heq⟩ := Option.map_eq_some_iff.mp h
  cases heq
  exact ⟨consumed.2, rfl⟩

theorem consumeWallet_eq {purpose : ClientPurpose}
    (h : consumeWalletChallenge db now id clientId purpose = some (challenge, db')) :
    ∃ t, db' = { db with walletChallenges := t } := by
  obtain ⟨consumed, -, heq⟩ := Option.map_eq_some_iff.mp h
  cases heq
  exact ⟨consumed.2, rfl⟩

theorem createOtp_eq
    (h : createWalletEmailOtp db now id walletAddress email otpPurpose codeHash = some db') :
    ∃ t, db' = { db with otps := t } := by
  obtain ⟨t, -, heq⟩ := Option.bind_eq_some_iff.mp h
  cases heq
  exact ⟨t, rfl⟩

theorem consumeOtp_eq : ∃ t, (consumeWalletEmailOtp db now walletAddress email otpPurpose codeHash).2 =
    { db with otps := t } := by
  unfold consumeWalletEmailOtp
  split
  · exact ⟨db.otps, rfl⟩
  · split
    · exact ⟨db.otps, rfl⟩
    · exact ⟨_, rfl⟩

theorem createJob_eq {input : NewJob} (h : createWalletRecoveryJob db now id input = some db') :
    ∃ t, db.jobs.insert (newJob now id input) = some t ∧ db' = { db with jobs := t } := by
  obtain ⟨t, ht, heq⟩ := Option.bind_eq_some_iff.mp h
  cases heq
  exact ⟨t, ht, rfl⟩

theorem createRequest_eq {input : NewRequest}
    (h : createWalletRecoveryRequest db now id input = some db') :
    ∃ t, db.requests.insert (newRequest now id input) = some t ∧ db' = { db with requests := t } := by
  obtain ⟨t, ht, heq⟩ := Option.bind_eq_some_iff.mp h
  cases heq
  exact ⟨t, ht, rfl⟩

theorem inserted_cases (row : Option RecoveryDb) (f : RecoveryDb → Reply) :
    (∃ e, inserted db row f = (.error e, db)) ∨ ∃ db', row = some db' ∧ inserted db row f = f db' := by
  cases row with
  | none => exact .inl ⟨_, rfl⟩
  | some db' => exact .inr ⟨db', rfl, rfl⟩

end Database

/-! ## Steps -/

/-- An owner's cancellation that has passed every check; `t` are the challenges that are left. -/
structure CancelProven (env : Env) (db : RecoveryDb) (requestId : String) (input : Input)
    (c : CancelChecked) (challenge : String)
    (t : Table (Challenge HostedPurpose) String Challenge.id) (a : Assertion) : Prop where
  checked : checkCancel env db requestId input = .ok c
  consumed : consumeHostedRecoveryChallenge db input.now c.challengeId .cancel =
    some (challenge, { db with hostedChallenges := t })
  assertion : input.assertion = some a
  verifies : Verifies env a (hosted env challenge c.ownerQx c.ownerQy)

/-- Where a client's cancellation comes from that is ready for its last check. -/
def CancelReady (env : Env) (s : RecoveryServer) (call : Call) (c : ClientCancel)
    (digest : Option String) (t : Table (Challenge ClientPurpose) String Challenge.id) : Prop :=
  (∃ n answer, call = .resume n answer ∧ s.pending[n]? = some (.cancelling c) ∧
    digest = answer.digest ∧ t = s.db.walletChallenges) ∨
  ∃ client wallet input, call = .cancelRecovery client wallet input ∧ env.rpcUrl = false ∧
    startClientCancel env s.db client wallet input =
      (.ok c, { s.db with walletChallenges := t }) ∧ digest = none

/-- A round over the wallets of a request that has passed its checks: at once for a key, and after
the chain was asked for an address. -/
inductive Round (env : Env) (s : RecoveryServer) (n : Nat) (answer : Answer) :
    Creation → String → Prop
  | passkey {c : Creation} {wallet : String} {rest : List String}
      (hpending : s.pending[n]? = some (.creating c)) (hwallets : c.wallets = wallet :: rest)
      (hskipped : skipped env s.db c wallet = false) (hkind : c.newEoa = none) :
    Round env s n answer { c with wallets := rest } wallet
  | looked {c : Creation} {wallet : String} (hpending : s.pending[n]? = some (.looking c wallet))
      (hnew : answer.existingOwner = false) :
    Round env s n answer c wallet

/-- What `call` can leave. -/
inductive Change (env : Env) (s : RecoveryServer) : Call → RecoveryDb → Prop
  | idle (call : Call) : Change env s call s.db
  | challenged (call : Call) (t) : Change env s call { s.db with hostedChallenges := t }
  | clientChallenged (call : Call) (t) : Change env s call { s.db with walletChallenges := t }
  | guarded (call : Call) (nonces sessions) :
    Change env s call { s.db with guardianNonces := nonces, guardianSessions := sessions }
  | codeTried (call : Call) (now walletAddress email purpose codeHash) :
    Change env s call (consumeWalletEmailOtp s.db now walletAddress email purpose codeHash).2
  | codeSent {input : Input} {restoreEnabled : Bool} {email : String} {db' : RecoveryDb}
      (hsent : createWalletEmailOtp s.db input.now input.otpId (emailLookupOtpWallet email) email
        .recover (env.hashOtpCode input.code) = some db') :
    Change env s (.startRecoveryEmailLookup input restoreEnabled) db'
  | attached {input : Input} {c : AttachChecked} {challenge : String} {t} {a : Assertion}
      {db' : RecoveryDb}
      (hcheck : checkAttach env s.db input = .ok c)
      (hconsumed : consumeHostedRecoveryChallenge s.db input.now c.challengeId .attach =
        some (challenge, { s.db with hostedChallenges := t }))
      (hassertion : input.assertion = some a)
      (hverifies : Verifies env a (hosted env challenge c.ownerQx c.ownerQy))
      (hleft : db' = { s.db with
          hostedChallenges := t
          wallets := (upsertWalletEmail s.db.wallets input.now c.walletAddress c.email none).1 } ∨
        createWalletEmailOtp { s.db with
          hostedChallenges := t
          wallets := (upsertWalletEmail s.db.wallets input.now c.walletAddress c.email none).1 }
          input.now input.otpId c.walletAddress c.email .attach (env.hashOtpCode input.code) =
            some db') :
    Change env s (.attachEmail input) db'
  | emailVerified {input : Input} {walletAddress email code : String}
      (hbody : str (input.body "code") = some code)
      (hcode : (consumeWalletEmailOtp s.db input.now walletAddress email .attach
        (env.hashOtpCode code)).1 = true) :
    Change env s (.verifyEmailOtp input)
      { (consumeWalletEmailOtp s.db input.now walletAddress email .attach (env.hashOtpCode code)).2 with
        wallets := (markWalletEmailVerified s.db.wallets input.now input.now walletAddress email).1 }
  | created {n : Nat} {answer : Answer} {c : Creation} {wallet : String} {row : NewRequest}
      {requests} {db' : RecoveryDb} (hround : Round env s n answer c wallet)
      (hrow : creationRow s.db c wallet = some row)
      (hinsert : s.db.requests.insert (newRequest answer.input.now answer.input.newId row) =
        some requests)
      (hleft : db' = { s.db with requests := requests } ∨
        createWalletEmailOtp { s.db with requests := requests } answer.input.now
          answer.input.otpId wallet row.email .recover (env.hashOtpCode answer.input.code) =
            some db') :
    Change env s (.resume n answer) db'
  | requestVerified {requestId : String} {input : Input} {request : Request} {code : String}
      (hfound : getWalletRecoveryRequest s.db requestId = some request)
      (hstatus : request.status = .awaitingEmail) (hbody : str (input.body "code") = some code)
      (hcode : (consumeWalletEmailOtp s.db input.now request.walletAddress request.email .recover
        (env.hashOtpCode code)).1 = true) :
    Change env s (.verifyRecoveryEmail requestId input)
      (updateWalletRecoveryRequest
        { (consumeWalletEmailOtp s.db input.now request.walletAddress request.email .recover
            (env.hashOtpCode code)).2 with
          wallets := (markWalletEmailVerified s.db.wallets input.now input.now
            request.walletAddress request.email).1 }
        request.id { status := some .awaitingGuardian, emailVerifiedAt := some input.now })
  | withdrawn {requestId : String} {input : Input} {c : CancelChecked} {challenge : String} {t}
      {a : Assertion}
      (hproven : CancelProven env s.db requestId input c challenge t a)
      (hstatus : c.request.status = .awaitingEmail ∨ c.request.status = .awaitingGuardian) :
    Change env s (.cancelRecoveryRequest requestId input)
      (updateWalletRecoveryRequest { s.db with hostedChallenges := t } c.request.id
        { status := some .cancelled })
  | stopped {requestId : String} {input : Input} {c : CancelChecked} {challenge : String} {t}
      {a : Assertion} {jobs}
      (hproven : CancelProven env s.db requestId input c challenge t a)
      (hstatus : c.request.status = .queued ∨ c.request.status = .onChain)
      (hjob : s.db.jobs.insert (newJob input.now input.newId (cancelJob c.request input.body a)) =
        some jobs) :
    Change env s (.cancelRecoveryRequest requestId input)
      (updateWalletRecoveryRequest { s.db with hostedChallenges := t, jobs := jobs } c.request.id
        { status := some .cancelled, jobId := some input.newId })
  | approved {n : Nat} {answer : Answer} {session : GuardianSession} {requestId : String}
      {request : Request} {jobs}
      (hpending : s.pending[n]? = some (.guarding session (.approve requestId)))
      (hcheck : checkApprove env s.db requestId (guardianCall session answer) = .ok request)
      (hjob : s.db.jobs.insert (newJob answer.input.now answer.input.newId (initiateJob request)) =
        some jobs)
      (haccepted : (step env s (.resume n answer)).1 = .ok ()) :
    Change env s (.resume n answer)
      (updateWalletRecoveryRequest { s.db with
          jobs := jobs
          wallets := (upsertWalletDevice s.db.wallets answer.input.now (recoveryDevice request)).1 }
        request.id {
          status := some .queued
          guardianAddress := some session.address
          guardianActedAt := some answer.input.now
          jobId := some answer.input.newId })
  | rejected {n : Nat} {answer : Answer} {session : GuardianSession} {requestId : String}
      {request : Request}
      (hpending : s.pending[n]? = some (.guarding session (.reject requestId)))
      (hcheck : checkReject env s.db requestId (guardianCall session answer) = .ok request) :
    Change env s (.resume n answer)
      (updateWalletRecoveryRequest s.db request.id {
        status := some .rejected
        guardianAddress := some session.address
        guardianActedAt := some answer.input.now })
  | devicePosted {body : Body} {now : Time} (device : WalletDevice) :
    Change env s (.postDevice body now)
      { s.db with wallets := (upsertWalletDevice s.db.wallets now device).1 }
  | deviceDeleted {wallet ownerQx ownerQy : String} {chainId : Option String} {now : Time}
      (walletAddress chainId' qx qy : String) :
    Change env s (.deleteDevice wallet ownerQx ownerQy chainId now)
      { s.db with wallets := (deleteWalletDevice s.db.wallets now walletAddress chainId' qx qy).1 }
  | recovered {input : Input} {onChainOwners : List Coords} {c : RecoverChecked} {challenge : String}
      {t}
      (hcheck : checkRecoverAccount env s.db input onChainOwners = .ok c)
      (hconsumed : consumeHostedRecoveryChallenge s.db input.now c.challengeId .record =
        some (challenge, { s.db with hostedChallenges := t })) :
    Change env s (.recoverWalletAccount input onChainOwners) { s.db with
      hostedChallenges := t
      wallets := recoveredWallets env { s.db with hostedChallenges := t } input onChainOwners c }
  | clientCreated {client : Client} {input : Input} {attestation : Option String} {email : String}
      {key : NewKey} {factoryAddress implementationAddress : String} {db₁ : RecoveryDb}
      (hcheck : checkCreateWallet input.body = .ok (email, key))
      (hproven : provenKey env s.db client input .create key = (.ok (), db₁))
      (hfactory : env.factoryAddress = some factoryAddress)
      (himplementation : env.implementationAddress = some implementationAddress) :
    Change env s (.createClientWallet client input attestation)
      (upsertWalletIdentity
        { db₁ with
          wallets := createdWallets env db₁ (createdAddress env factoryAddress implementationAddress key)
            key input attestation }
        client.id email (createdAddress env factoryAddress implementationAddress key))
  | clientInitiated {client : Client} {wallet : String} {input : Input} {identityVerified : Bool}
      {key : NewKey} {t} {jobs}
      (hcheck : checkInitiate s.db client wallet input.body identityVerified = .ok key)
      (hproven : provenKey env s.db client input .recover key =
        (.ok (), { s.db with walletChallenges := t }))
      (hleft : jobs = s.db.jobs ∨ s.db.jobs.insert (newJob input.now input.newId
        (clientInitiateJob env wallet key input.body)) = some jobs) :
    Change env s (.initiateRecovery client wallet input identityVerified) { s.db with
      walletChallenges := t
      wallets := (upsertWalletDevice s.db.wallets input.now
        (clientDevice env wallet key input.body)).1
      jobs := jobs }
  | clientCancelled {call : Call} {c : ClientCancel} {digest : Option String} {now : Time}
      {newId : String} {t} {jobs}
      (hready : CancelReady env s call c digest t)
      (hcheck : checkCancelAssertion env c digest = .ok ())
      (hjob : s.db.jobs.insert (newJob now newId (clientCancelJob c)) = some jobs) :
    Change env s call { s.db with walletChallenges := t, jobs := jobs }
  | signed {requestId : String} {call : OperatorCall} {seen : Option OperatorPayload} {body : Body}
      (id : String) (payload : OperatorPayload) :
    Change env s (.operatorSign requestId call seen body)
      (updateWalletRecoveryRequest s.db id { operatorPayload := some payload })
  | initiated {requestId : String} {call : OperatorCall} {session : String} {request : Request} {jobs}
      (hsession : call.session = some session)
      (hfound : getWalletRecoveryRequest s.db requestId = some request)
      (hjob : s.db.jobs.insert (newJob call.now call.newId (executeJob request)) = some jobs)
      (haccepted : (step env s (.operatorInitiated requestId call)).1 = .ok ()) :
    Change env s (.operatorInitiated requestId call)
      (updateWalletRecoveryRequest { s.db with jobs := jobs } request.id {
        status := some .onChain
        guardianAddress := some session
        guardianActedAt := some call.now
        jobId := some call.newId })
  | claimed {authorized : Bool} {input : ClaimJob} {now : Time} {db' : RecoveryDb}
      (hclaim : claimWalletRecoveryJob s.db now { input with leaseMs := env.leaseMs } = .ok db') :
    Change env s (.claimJob authorized input now) db'
  | tracked {authorized : Bool} {input : TrackJob} {now : Time} {db' : RecoveryDb}
      (htrack : trackWalletRecoveryJob s.db input = .ok db') (hstatus : input.status = none) :
    Change env s (.trackJob authorized input now) db'
  | synced {authorized : Bool} {input : TrackJob} {now : Time} {status : JobStatus}
      {db₁ : RecoveryDb}
      (htrack : trackWalletRecoveryJob s.db input = .ok db₁) (hstatus : input.status = some status) :
    Change env s (.trackJob authorized input now)
      (syncRequestFromJob env db₁ input.id status now)
  | elsewhere (write : WalletLog.Call) :
    Change env s (.elsewhere write)
      { s.db with wallets := (WalletLog.step s.db.wallets write).1 }

/-! ## Routes -/

section Routes

variable (env) (s : RecoveryServer)

theorem change_attachEmail (input : Input) :
    Change env s (.attachEmail input) (attachEmail env s.db input).2 := by
  unfold attachEmail
  split
  · exact .idle _
  next c hcheck =>
    split
    · exact .idle _
    next challenge db hconsumed =>
      obtain ⟨t, rfl⟩ := consumeHosted_eq hconsumed
      split
      · exact .challenged _ t
      next a hassertion =>
        split
        · exact .challenged _ t
        next hverifies =>
          refine .attached hcheck hconsumed hassertion hverifies ?_
          rcases inserted_cases (createWalletEmailOtp _ _ _ _ _ _ _) accept with ⟨e, heq⟩ | h
          · rw [heq]
            exact .inl rfl
          · obtain ⟨db', hsent, heq⟩ := h
            rw [heq]
            exact .inr hsent

theorem change_verifyEmailOtp (input : Input) :
    Change env s (.verifyEmailOtp input) (verifyEmailOtp env s.db input).2 := by
  unfold verifyEmailOtp
  split
  · exact .idle _
  · split
    · next walletAddress email code _ _ hbody =>
      dsimp only
      split
      · exact .codeTried ..
      next hok =>
        have hwallets : (consumeWalletEmailOtp s.db input.now walletAddress email .attach
            (env.hashOtpCode code)).2.wallets = s.db.wallets := by
          obtain ⟨t, heq⟩ := consumeOtp_eq
          rw [heq]
        rw [hwallets]
        exact .emailVerified hbody (by simpa using hok)
    · exact .idle _

theorem change_startRecoveryEmailLookup (input : Input) (restoreEnabled : Bool) :
    Change env s (.startRecoveryEmailLookup input restoreEnabled)
      (startRecoveryEmailLookup env s.db input restoreEnabled).2 := by
  unfold startRecoveryEmailLookup
  split
  · exact .idle _
  · split
    · exact .idle _
    next email _ =>
      split
      · exact .idle _
      · split
        · rcases inserted_cases (createWalletEmailOtp s.db input.now input.otpId
            (emailLookupOtpWallet email) email .recover (env.hashOtpCode input.code)) accept with
            ⟨e, heq⟩ | ⟨db', hsent, heq⟩
          · rw [heq]
            exact .idle _
          · rw [heq]
            exact .codeSent hsent
        · exact .idle _

theorem change_verifyRecoveryEmailLookup (input : Input) :
    Change env s (.verifyRecoveryEmailLookup input) (verifyRecoveryEmailLookup env s.db input).2 := by
  unfold verifyRecoveryEmailLookup
  split
  · dsimp only
    split <;> exact .codeTried ..
  · exact .idle _

theorem createHosted_eq {id challenge : String} {purpose : HostedPurpose}
    (h : createHostedRecoveryChallenge db now id challenge purpose = some db') :
    ∃ t, db' = { db with hostedChallenges := t } := by
  obtain ⟨t, -, heq⟩ := Option.bind_eq_some_iff.mp h
  cases heq
  exact ⟨t, rfl⟩

theorem change_recoveryChallenge (input : Input) :
    Change env s (.recoveryChallenge input) (recoveryChallenge s.db input).2 := by
  unfold recoveryChallenge
  split
  · exact .idle _
  next purpose _ =>
    rcases inserted_cases (createHostedRecoveryChallenge s.db input.now input.newId input.code
      purpose) accept with ⟨e, heq⟩ | ⟨db', hissued, heq⟩
    · rw [heq]
      exact .idle _
    · rw [heq]
      obtain ⟨t, rfl⟩ := createHosted_eq hissued
      exact .challenged _ t

theorem startCreation_eq (db : RecoveryDb) (input : Input) (sessionEmail : Option String)
    (wallets : List String) (restoreEnabled : Bool) :
    ∃ t, (startCreation env db input sessionEmail wallets restoreEnabled).2 =
      { db with hostedChallenges := t } := by
  unfold startCreation
  split
  · exact ⟨_, rfl⟩
  · dsimp only
    split
    · exact ⟨_, rfl⟩
    · split
      · exact ⟨_, rfl⟩
      next hconsumed =>
        obtain ⟨t, rfl⟩ := consumeHosted_eq hconsumed
        split <;> exact ⟨t, rfl⟩

theorem change_createRow {n : Nat} {c : Creation} {wallet : String} (existingOwner : Bool)
    {answer : Answer} (hround : existingOwner = false → Round env s n answer c wallet) :
    Change env s (.resume n answer) (createRow env s.db c wallet existingOwner answer.input).2 := by
  unfold createRow
  split
  · exact .idle _
  next hnew =>
    split
    · exact .idle _
    next row hrow =>
      rcases inserted_cases (createWalletRecoveryRequest s.db answer.input.now answer.input.newId
        row) _ with ⟨e, heq⟩ | ⟨db', hcreated, heq⟩
      · rw [heq]
        exact .idle _
      · rw [heq]
        obtain ⟨requests, hinsert, rfl⟩ := createRequest_eq hcreated
        refine .created (hround (by simpa using hnew)) hrow hinsert ?_
        dsimp only
        split
        · rcases inserted_cases (createWalletEmailOtp { s.db with requests := requests }
            answer.input.now answer.input.otpId wallet row.email .recover
            (env.hashOtpCode answer.input.code)) accept with ⟨e, heq⟩ | ⟨db', hsent, heq⟩
          · rw [heq]
            exact .inl rfl
          · rw [heq]
            exact .inr hsent
        · exact .inl rfl

theorem finishRound_db (pending : List Pending) (c : Creation) (wallet : String)
    (existingOwner : Bool) (answer : Answer) :
    (finishRound env db pending c wallet existingOwner answer).2.db =
      (createRow env db c wallet existingOwner answer.input).2 := by
  unfold finishRound
  split <;> next heq => rw [heq]

theorem change_finishClientCancel {call : Call} {c : ClientCancel} {digest : Option String} {t}
    (now : Time) (newId : String) (hready : CancelReady env s call c digest t) :
    Change env s call
      (finishClientCancel env { s.db with walletChallenges := t } c digest now newId).2 := by
  unfold finishClientCancel
  split
  · exact .clientChallenged _ t
  next hcheck =>
    rcases inserted_cases (createWalletRecoveryJob { s.db with walletChallenges := t } now newId
      (clientCancelJob c)) accept with ⟨e, heq⟩ | ⟨db', hcreated, heq⟩
    · rw [heq]
      exact .clientChallenged _ t
    · rw [heq]
      obtain ⟨jobs, hjob, rfl⟩ := createJob_eq hcreated
      exact .clientCancelled hready hcheck hjob

theorem change_approve {n : Nat} {answer : Answer} {session : GuardianSession} {requestId : String}
    (hpending : s.pending[n]? = some (.guarding session (.approve requestId)))
    (hstep : (approve env s.db requestId (guardianCall session answer)).1 = .ok () →
      (step env s (.resume n answer)).1 = .ok ()) :
    Change env s (.resume n answer)
      (approve env s.db requestId (guardianCall session answer)).2 := by
  revert hstep
  unfold approve
  split
  · exact fun _ => .idle _
  next request hcheck =>
    rcases inserted_cases (createWalletRecoveryJob s.db (guardianCall session answer).now
      (guardianCall session answer).newId (initiateJob request)) _ with
      ⟨e, heq⟩ | ⟨db', hcreated, heq⟩
    · rw [heq]
      exact fun _ => .idle _
    · rw [heq]
      intro hstep
      obtain ⟨jobs, hjob, rfl⟩ := createJob_eq hcreated
      exact .approved hpending hcheck hjob (hstep rfl)

theorem change_reject {n : Nat} {answer : Answer} {session : GuardianSession} {requestId : String}
    (hpending : s.pending[n]? = some (.guarding session (.reject requestId))) :
    Change env s (.resume n answer)
      (reject env s.db requestId (guardianCall session answer)).2 := by
  unfold reject
  split
  · exact .idle _
  next hcheck => exact .rejected hpending hcheck

theorem step_guarding {n : Nat} {answer : Answer} {session : GuardianSession}
    {action : GuardianAction} (hpending : s.pending[n]? = some (.guarding session action)) :
    (step env s (.resume n answer)).1 =
      (guardianAction env s.db action (guardianCall session answer)).1 := by
  show (resume env s n answer).1 = _
  unfold resume
  rw [hpending]
  rfl

theorem change_resume (n : Nat) (answer : Answer) :
    Change env s (.resume n answer) (resume env s n answer).2.db := by
  unfold resume
  split
  · exact .idle _
  next waiting hwaiting =>
    unfold resumed
    split
    next input sessionEmail wallets =>
      obtain ⟨t, heq⟩ := startCreation_eq env s.db { input with now := answer.input.now }
        sessionEmail wallets answer.restoreEnabled
      split
      all_goals
        next hstart =>
          rw [hstart] at heq
          simp only at heq
          rw [heq]
          exact .challenged _ t
    next c =>
      split
      · exact .idle _
      next wallet rest hwallets =>
        dsimp only
        split
        · exact .idle _
        next hskipped =>
          split
          · exact .idle _
          next hkind =>
            rw [finishRound_db]
            exact change_createRow env s false fun _ => .passkey hwaiting hwallets
              (by simpa using hskipped) (by simpa using hkind)
    · rw [finishRound_db]
      exact change_createRow env s answer.existingOwner (.looked hwaiting)
    next c =>
      exact change_finishClientCancel env s (t := s.db.walletChallenges) answer.input.now
        answer.input.newId (.inl ⟨n, answer, rfl, hwaiting, rfl, rfl⟩)
    next session action =>
      cases action with
      | approve requestId =>
        refine change_approve env s hwaiting fun h => ?_
        rw [step_guarding env s hwaiting]
        exact h
      | reject requestId => exact change_reject env s hwaiting

theorem change_verifyRecoveryEmail (requestId : String) (input : Input) :
    Change env s (.verifyRecoveryEmail requestId input)
      (verifyRecoveryEmail env s.db requestId input).2 := by
  unfold verifyRecoveryEmail
  split
  · exact .idle _
  · split
    · exact .idle _
    next request hfound =>
      split
      · exact .idle _
      next hstatus =>
        split
        · exact .idle _
        next code hbody =>
          dsimp only
          split
          · exact .codeTried ..
          next hok =>
            have hwallets : (consumeWalletEmailOtp s.db input.now request.walletAddress
                request.email .recover (env.hashOtpCode code)).2.wallets = s.db.wallets := by
              obtain ⟨t, heq⟩ := consumeOtp_eq
              rw [heq]
            rw [hwallets]
            exact .requestVerified hfound (not_not.mp hstatus) hbody (by simpa using hok)

theorem checkCancel_eq_ok {requestId : String} {input : Input} {c : CancelChecked}
    (h : checkCancel env db requestId input = .ok c) :
    getWalletRecoveryRequest db requestId = some c.request ∧ c.request.status.final = false ∧
      str (input.body "challengeId") = some c.challengeId ∧
      ∃ credentialId, str (input.body "credentialId") = some credentialId ∧
        cancelKey env db c.request input.body credentialId = some (c.ownerQx, c.ownerQy) := by
  simp only [checkCancel, bind_eq_ok, revertIf_eq_ok, orRevert_eq_ok, pure_eq_ok] at h
  obtain ⟨-, -, request, hfound, -, hfinal, challengeId, hchallenge, credentialId, hcredential, key,
    hkey, rfl⟩ := h
  exact ⟨hfound, hfinal, hchallenge, credentialId, hcredential, hkey⟩

theorem change_cancelRecoveryRequest (requestId : String) (input : Input) :
    Change env s (.cancelRecoveryRequest requestId input)
      (cancelRecoveryRequest env s.db requestId input).2 := by
  unfold cancelRecoveryRequest
  split
  · exact .idle _
  next c hcheck =>
    split
    · exact .idle _
    next challenge db hconsumed =>
      obtain ⟨t, rfl⟩ := consumeHosted_eq hconsumed
      split
      · exact .challenged _ t
      next a hassertion =>
        split
        · exact .challenged _ t
        next hverifies =>
          have hproven : CancelProven env s.db requestId input c challenge t a :=
            ⟨hcheck, hconsumed, hassertion, hverifies⟩
          have hfinal : c.request.status.final = false := (checkCancel_eq_ok env hcheck).2.1
          unfold cancelRequest
          split
          · next hstatus =>
            rcases inserted_cases (createWalletRecoveryJob { s.db with hostedChallenges := t }
              input.now input.newId (cancelJob c.request input.body a)) _ with
              ⟨e, heq⟩ | ⟨db', hcreated, heq⟩
            · rw [heq]
              exact .challenged _ t
            · rw [heq]
              obtain ⟨jobs, hjob, rfl⟩ := createJob_eq hcreated
              exact .stopped hproven hstatus.symm hjob
          next hstatus =>
            refine .withdrawn hproven ?_
            cases hs : c.request.status <;> simp_all [RequestStatus.final]

theorem createSession_eq {tokenHash address : String}
    (h : createGuardianSession db now tokenHash address = some db') :
    ∃ t, db' = { db with guardianSessions := t } := by
  obtain ⟨t, -, heq⟩ := Option.bind_eq_some_iff.mp h
  cases heq
  exact ⟨t, rfl⟩

theorem change_guardianNonce (address nonce : String) (guardian : Option String) (now : Time) :
    Change env s (.guardianNonce address nonce guardian now)
      (guardianNonce env s.db address nonce guardian now).2 := by
  unfold guardianNonce
  dsimp only
  split
  · exact .idle _
  · split
    · exact .idle _
    · exact .guarded _ _ s.db.guardianSessions

theorem change_guardianLogin (body : Body) (guardian : Option String) (token : String)
    (now : Time) :
    Change env s (.guardianLogin body guardian token now)
      (guardianLogin env s.db body guardian token now).2 := by
  unfold guardianLogin
  split
  · exact .idle _
  next call _ =>
    split
    · exact .idle _
    · dsimp only
      split
      · exact .guarded _ _ s.db.guardianSessions
      · split
        · exact .guarded _ _ s.db.guardianSessions
        · rcases inserted_cases (createGuardianSession
            (takeGuardianNonce s.db now call.address call.nonce).2 now (env.hashToken token)
            call.address) accept with ⟨e, heq⟩ | ⟨db', hcreated, heq⟩
          · rw [heq]
            exact .guarded _ _ s.db.guardianSessions
          · rw [heq]
            obtain ⟨t, rfl⟩ := createSession_eq hcreated
            exact .guarded _ _ t

theorem change_guardianRequest (token : Option String) (action : GuardianAction) (now : Time) :
    Change env s (.guardianRequest token action now)
      (guardianRequest env s token action now).2.db := by
  have hdb : ∀ tokenHash, ∃ t, (getGuardianSession s.db now tokenHash).2 =
      { s.db with guardianSessions := t } := by
    intro tokenHash
    unfold getGuardianSession
    split
    · exact ⟨_, rfl⟩
    · split <;> exact ⟨_, rfl⟩
  unfold guardianRequest
  split
  · exact .idle _
  next token _ =>
    obtain ⟨t, ht⟩ := hdb (env.hashToken token)
    split
    all_goals
      next hlookup =>
        rw [hlookup] at ht
        cases ht
        exact .guarded _ s.db.guardianNonces t

theorem change_postDevice (body : Body) (now : Time) :
    Change env s (.postDevice body now) (postDevice s.db body now).2 := by
  unfold postDevice
  split
  · exact .devicePosted _
  · exact .idle _

theorem change_deleteDevice (wallet ownerQx ownerQy : String) (chainId : Option String)
    (now : Time) :
    Change env s (.deleteDevice wallet ownerQx ownerQy chainId now)
      (deleteDevice s.db wallet ownerQx ownerQy chainId now).2 := by
  unfold deleteDevice
  dsimp only
  split
  · split
    · exact .idle _
    · exact .deviceDeleted _ _ _ _
  · exact .idle _

theorem change_recoverWalletAccount (input : Input) (onChainOwners : List Coords) :
    Change env s (.recoverWalletAccount input onChainOwners)
      (recoverWalletAccount env s.db input onChainOwners).2 := by
  unfold recoverWalletAccount
  split
  · exact .idle _
  next hcheck =>
    split
    · exact .idle _
    next hconsumed =>
      obtain ⟨t, rfl⟩ := consumeHosted_eq hconsumed
      exact .recovered hcheck hconsumed

theorem createClientChallenge_eq {id clientId challenge : String} {purpose : ClientPurpose}
    (h : createWalletChallenge db now id clientId challenge purpose = some db') :
    ∃ t, db' = { db with walletChallenges := t } := by
  obtain ⟨t, -, heq⟩ := Option.bind_eq_some_iff.mp h
  cases heq
  exact ⟨t, rfl⟩

theorem change_clientChallenge (client : Client) (input : Input) :
    Change env s (.clientChallenge client input) (clientChallenge s.db client input).2 := by
  unfold clientChallenge
  split
  · exact .idle _
  next purpose _ =>
    rcases inserted_cases (createWalletChallenge s.db input.now input.newId client.id input.code
      purpose) accept with ⟨e, heq⟩ | ⟨db', hissued, heq⟩
    · rw [heq]
      exact .idle _
    · rw [heq]
      obtain ⟨t, rfl⟩ := createClientChallenge_eq hissued
      exact .clientChallenged _ t

theorem provenKey_db (db : RecoveryDb) (client : Client) (input : Input) (purpose : ClientPurpose)
    (key : NewKey) :
    ∃ t, (provenKey env db client input purpose key).2 = { db with walletChallenges := t } := by
  unfold provenKey
  split
  · exact ⟨_, rfl⟩
  next hconsumed =>
    obtain ⟨t, rfl⟩ := consumeWallet_eq hconsumed
    split
    · exact ⟨t, rfl⟩
    · split <;> exact ⟨t, rfl⟩

theorem change_createClientWallet (client : Client) (input : Input) (attestation : Option String) :
    Change env s (.createClientWallet client input attestation)
      (createClientWallet env s.db client input attestation).2 := by
  unfold createClientWallet
  split
  · exact .idle _
  next email key hcheck =>
    obtain ⟨t, ht⟩ := provenKey_db env s.db client input .create key
    split
    · next hproven =>
      rw [hproven] at ht
      cases ht
      exact .clientChallenged _ t
    next db hproven =>
      split
      · next hfactory himplementation =>
        exact .clientCreated hcheck hproven hfactory himplementation
      · rw [hproven] at ht
        cases ht
        exact .clientChallenged _ t

theorem change_initiateRecovery (client : Client) (wallet : String) (input : Input)
    (identityVerified : Bool) :
    Change env s (.initiateRecovery client wallet input identityVerified)
      (initiateRecovery env s.db client wallet input identityVerified).2 := by
  unfold initiateRecovery
  split
  · exact .idle _
  next key hcheck =>
    obtain ⟨t, ht⟩ := provenKey_db env s.db client input .recover key
    split
    · next hproven =>
      rw [hproven] at ht
      cases ht
      exact .clientChallenged _ t
    next db hproven =>
      have hdb := ht
      rw [hproven] at hdb
      cases hdb
      dsimp only
      rcases inserted_cases (createWalletRecoveryJob { s.db with
        walletChallenges := t
        wallets := (upsertWalletDevice s.db.wallets input.now
          (clientDevice env wallet key input.body)).1 } input.now input.newId
        (clientInitiateJob env wallet key input.body)) accept with ⟨e, heq⟩ | ⟨db', hcreated, heq⟩
      · rw [heq]
        exact .clientInitiated hcheck hproven (.inl rfl)
      · rw [heq]
        obtain ⟨jobs, hjob, rfl⟩ := createJob_eq hcreated
        exact .clientInitiated hcheck hproven (.inr hjob)

theorem startClientCancel_db (db : RecoveryDb) (client : Client) (wallet : String) (input : Input) :
    ∃ t, (startClientCancel env db client wallet input).2 = { db with walletChallenges := t } := by
  unfold startClientCancel
  split
  · exact ⟨_, rfl⟩
  · split
    · exact ⟨_, rfl⟩
    next hconsumed =>
      obtain ⟨t, rfl⟩ := consumeWallet_eq hconsumed
      split <;> exact ⟨t, rfl⟩

theorem change_cancelRecovery (client : Client) (wallet : String) (input : Input) :
    Change env s (.cancelRecovery client wallet input)
      (cancelRecovery env s client wallet input).2.db := by
  obtain ⟨t, ht⟩ := startClientCancel_db env s.db client wallet input
  unfold cancelRecovery
  split
  · next hstart =>
    rw [hstart] at ht
    cases ht
    exact .clientChallenged _ t
  next c db hstart =>
    rw [hstart] at ht
    cases ht
    split
    · exact .clientChallenged _ t
    next hrpc =>
      exact change_finishClientCancel env s input.now input.newId
        (.inr ⟨client, wallet, input, rfl, by simpa using hrpc, hstart, rfl⟩)

theorem change_operatorSign (requestId : String) (call : OperatorCall)
    (seen : Option OperatorPayload) (body : Body) :
    Change env s (.operatorSign requestId call seen body)
      (operatorSign s.db requestId call seen body).2 := by
  unfold operatorSign
  split
  · exact .idle _
  · split
    · exact .idle _
    · split
      · exact .idle _
      · exact .signed _ _

theorem change_operatorInitiated (requestId : String) (call : OperatorCall) :
    Change env s (.operatorInitiated requestId call) (operatorInitiated s.db requestId call).2 := by
  have haccepted : (operatorInitiated s.db requestId call).1 = .ok () →
      (step env s (.operatorInitiated requestId call)).1 = .ok () := id
  revert haccepted
  unfold operatorInitiated
  split
  · exact fun _ => .idle _
  next session hsession =>
    split
    · exact fun _ => .idle _
    next request hfound =>
      split
      · exact fun _ => .idle _
      · rcases inserted_cases (createWalletRecoveryJob s.db call.now call.newId
          (executeJob request)) _ with ⟨e, heq⟩ | ⟨db', hcreated, heq⟩
        · rw [heq]
          exact fun _ => .idle _
        · rw [heq]
          intro haccepted
          obtain ⟨jobs, hjob, rfl⟩ := createJob_eq hcreated
          exact .initiated hsession hfound hjob (haccepted rfl)

theorem change_claimJob (authorized : Bool) (input : ClaimJob) (now : Time) :
    Change env s (.claimJob authorized input now) (claimJob env s.db authorized input now).2 := by
  unfold claimJob
  split
  · exact .idle _
  · split
    · exact .idle _
    next hclaim => exact .claimed hclaim

theorem change_trackJob (authorized : Bool) (input : TrackJob) (now : Time) :
    Change env s (.trackJob authorized input now) (trackJob env s.db authorized input now).2 := by
  unfold trackJob
  split
  · exact .idle _
  · split
    · exact .idle _
    next htrack =>
      split
      next hstatus => exact .tracked htrack hstatus
      next hstatus => exact .synced htrack hstatus

/-- Every step is one of the changes. -/
theorem change (call : Call) : Change env s call (next env s call).db := by
  cases call with
  | attachEmail input => exact change_attachEmail env s input
  | verifyEmailOtp input => exact change_verifyEmailOtp env s input
  | startRecoveryEmailLookup input restoreEnabled =>
    exact change_startRecoveryEmailLookup env s input restoreEnabled
  | verifyRecoveryEmailLookup input => exact change_verifyRecoveryEmailLookup env s input
  | recoveryChallenge input => exact change_recoveryChallenge env s input
  | createRecoveryRequest input sessionEmail latest walletAddresses =>
    show Change env s _ (createRecoveryRequest env s input sessionEmail latest walletAddresses).2.db
    unfold createRecoveryRequest
    split <;> exact .idle _
  | resume n answer => exact change_resume env s n answer
  | verifyRecoveryEmail requestId input => exact change_verifyRecoveryEmail env s requestId input
  | cancelRecoveryRequest requestId input => exact change_cancelRecoveryRequest env s requestId input
  | guardianNonce address nonce guardian now =>
    exact change_guardianNonce env s address nonce guardian now
  | guardianLogin body guardian token now => exact change_guardianLogin env s body guardian token now
  | guardianRequest token action now => exact change_guardianRequest env s token action now
  | postDevice body now => exact change_postDevice env s body now
  | deleteDevice wallet ownerQx ownerQy chainId now =>
    exact change_deleteDevice env s wallet ownerQx ownerQy chainId now
  | recoverWalletAccount input onChainOwners =>
    exact change_recoverWalletAccount env s input onChainOwners
  | clientChallenge client input => exact change_clientChallenge env s client input
  | createClientWallet client input attestation =>
    exact change_createClientWallet env s client input attestation
  | initiateRecovery client wallet input identityVerified =>
    exact change_initiateRecovery env s client wallet input identityVerified
  | cancelRecovery client wallet input => exact change_cancelRecovery env s client wallet input
  | operatorSign requestId call seen body =>
    exact change_operatorSign env s requestId call seen body
  | operatorInitiated requestId call => exact change_operatorInitiated env s requestId call
  | claimJob authorized input now => exact change_claimJob env s authorized input now
  | trackJob authorized input now => exact change_trackJob env s authorized input now
  | elsewhere write => exact .elsewhere write

end Routes

end OnchainInvoice.Recovery
