import OnchainInvoice.Recovery.Changes

/-!
# What a step does to one request

The ways the status and the job of a request change, and that a job keeps its kind.
-/

namespace OnchainInvoice.Recovery

open Lib.Revert Lib.Tables Server WalletLog

variable {env : Env} {s : RecoveryServer} {call : Call} {db db' : RecoveryDb} {id : String}
  {r : Request}

def RequestStatus.awaiting (status : RequestStatus) : Prop :=
  status = .awaitingEmail ∨ status = .awaitingGuardian

/-! ## Jobs -/

def jobKind (db : RecoveryDb) (jobId : String) : Option JobKind :=
  (db.jobs.find? jobId).map Job.kind

theorem jobKind_insert {job : Job} {jobs} (h : db.jobs.insert job = some jobs) {j : String} :
    (jobs.find? j).map Job.kind = if job.id = j then some job.kind else jobKind db j := by
  rw [Table.find?_insert h]
  split <;> rfl

theorem insert_free {job : Job} {jobs} (h : db.jobs.insert job = some jobs) :
    jobKind db job.id = none := by
  unfold jobKind
  rw [Table.find?_of_insert h, Option.map_none]

theorem inserted_job {job job' : Job} {jobs} {j : String} (hinsert : db.jobs.insert job = some jobs)
    (hnone : db.jobs.find? j = none) (hfound : jobs.find? j = some job') : job' = job := by
  rw [Table.find?_insert hinsert] at hfound
  split at hfound
  · exact (Option.some.inj hfound).symm
  · rw [hnone] at hfound
    cases hfound

theorem no_new_job {j : String} {job : Job} (hkind : ∀ j, jobKind db' j = jobKind db j)
    (hnone : db.jobs.find? j = none) (hfound : db'.jobs.find? j = some job) : False := by
  have h := hkind j
  rw [jobKind, jobKind, hnone, hfound] at h
  cases h

theorem jobKind_track {input : TrackJob} (h : trackWalletRecoveryJob db input = .ok db') :
    db'.requests = db.requests ∧ db'.wallets = db.wallets ∧ db'.otps = db.otps ∧
      ∀ j, jobKind db' j = jobKind db j := by
  unfold trackWalletRecoveryJob at h
  split at h
  · cases h
  · split at h
    · cases h
    · split at h
      · cases h
      · cases h
        refine ⟨rfl, rfl, rfl, fun j => ?_⟩
        unfold jobKind
        rw [Table.find?_modify]
        split
        · rw [Option.map_map]
          rfl
        · rfl

theorem jobKind_claim {input : ClaimJob} {now : Time} (h : claimWalletRecoveryJob db now input = .ok db') :
    db'.requests = db.requests ∧ db'.wallets = db.wallets ∧ db'.otps = db.otps ∧
      ∀ j, jobKind db' j = jobKind db j := by
  unfold claimWalletRecoveryJob at h
  split at h
  · cases h
  · cases h
    refine ⟨rfl, rfl, rfl, fun j => ?_⟩
    unfold jobKind
    rw [Table.find?_modify]
    split
    · rw [Option.map_map]
      rfl
    · rfl

/-! ## Requests -/

theorem find?_update {patch : RequestPatch} {k : String} (h : db.requests.find? id = some r) :
    (updateWalletRecoveryRequest db k patch).requests.find? id =
      some (if id = k then patched patch r else r) := by
  unfold updateWalletRecoveryRequest
  rw [Table.find?_modify]
  split <;> simp [h]

-- The status after the transaction of a job is included.
def includedStatus : JobKind → RequestStatus
  | .initiate => .onChain
  | .execute => .archived
  | .cancel => .cancelled

-- What no update touches.
def Request.core (r : Request) :=
  (r.id, r.walletAddress, r.email, r.newQx, r.newQy, r.credentialId, r.newOwnerKind, r.newEoa,
    r.chainId, r.createdAt)

/-- How `call` changes the request `id`. -/
inductive Moved (env : Env) (s : RecoveryServer) (call : Call) (db' : RecoveryDb) (id : String)
    (r r' : Request) : Prop
  | same (hstatus : r'.status = r.status) (hjob : r'.jobId = r.jobId)
  | verified (hbefore : r.status = .awaitingEmail) (hstatus : r'.status = .awaitingGuardian)
      (hjob : r'.jobId = r.jobId)
      (hcode : ∃ input code, call = .verifyRecoveryEmail id input ∧
        str (input.body "code") = some code ∧
        (consumeWalletEmailOtp s.db input.now r.walletAddress r.email .recover
          (env.hashOtpCode code)).1 = true)
  | approved (n : Nat) (answer : Answer) (session : GuardianSession) (hcall : call = .resume n answer)
      (hpending : s.pending[n]? = some (.guarding session (.approve id)))
      (haccepted : (step env s call).1 = .ok ())
      (hbefore : r.status = .awaitingGuardian) (hstatus : r'.status = .queued)
      (hjob : r'.jobId = some answer.input.newId)
      (hkind : jobKind db' answer.input.newId = some .initiate)
      (hfree : s.db.jobs.find? answer.input.newId = none)
  | rejected (hbefore : r.status.awaiting) (hstatus : r'.status = .rejected)
      (hjob : r'.jobId = r.jobId)
  | withdrawn (hbefore : r.status.awaiting) (hstatus : r'.status = .cancelled)
      (hjob : r'.jobId = r.jobId)
  | stopped (j : String) (hbefore : r.status = .queued ∨ r.status = .onChain)
      (hstatus : r'.status = .cancelled) (hjob : r'.jobId = some j)
      (hkind : jobKind db' j = some .cancel)
      (hcall : ∃ input, call = .cancelRecoveryRequest id input)
      (hfree : s.db.jobs.find? j = none)
  | initiated (c : OperatorCall) (hcall : call = .operatorInitiated id c)
      (haccepted : (step env s call).1 = .ok ()) (hstatus : r'.status = .onChain)
      (hjob : r'.jobId = some c.newId) (hkind : jobKind db' c.newId = some .execute)
      (hfree : s.db.jobs.find? c.newId = none)
  | synced (j : String) (kind : JobKind) (hbefore : r.jobId = some j)
      (hkind : jobKind s.db j = some kind) (hstatus : r'.status = includedStatus kind)
      (hjob : r'.jobId = some j)

theorem getRequestByJobId_eq {jobId : String} (h : getWalletRecoveryRequestByJobId db jobId = some r) :
    db.requests.find? r.id = some r ∧ r.jobId = some jobId := by
  have hmem : r ∈ db.requests.rows := List.mem_of_find?_eq_some h
  unfold getWalletRecoveryRequestByJobId at h
  have hjob := List.find?_some h
  exact ⟨Table.find?_of_mem hmem, of_decide_eq_true hjob⟩

theorem indexRestored_eq (env : Env) (db : RecoveryDb) (r : Request) (now : Time) :
    ∃ wallets, indexRestoredIdentityMethod env db r now = { db with wallets := wallets } := by
  unfold indexRestoredIdentityMethod
  split
  · exact ⟨_, rfl⟩
  · split
    · exact ⟨_, rfl⟩
    · exact ⟨_, rfl⟩
    · split <;> exact ⟨_, rfl⟩

/-- What the callback of a job leaves of a request. -/
theorem sync_moved {jobId : String} {status : JobStatus} {now : Time}
    (h : db.requests.find? id = some r) :
    ∃ r', (syncRequestFromJob env db jobId status now).requests.find? id = some r' ∧
      r'.core = r.core ∧ r'.jobId = r.jobId ∧ (r'.status = r.status ∨ ∃ kind, r.jobId = some jobId ∧
        jobKind db jobId = some kind ∧ r'.status = includedStatus kind) := by
  unfold syncRequestFromJob
  split
  · exact ⟨r, h, rfl, rfl, .inl rfl⟩
  next request hrequest =>
    obtain ⟨hfound, hjobId⟩ := getRequestByJobId_eq hrequest
    have hown : id = request.id → r.jobId = some jobId := by
      rintro rfl
      rw [Option.some.inj (h.symm.trans hfound), hjobId]
    split
    · exact ⟨r, h, rfl, rfl, .inl rfl⟩
    · split
      · next hkind =>
        refine ⟨_, find?_update h, by split <;> rfl, ?_⟩
        split
        · next heq => exact ⟨rfl, .inr ⟨.initiate, hown heq, hkind, rfl⟩⟩
        · exact ⟨rfl, .inl rfl⟩
      · next hkind =>
        obtain ⟨wallets, heq⟩ := indexRestored_eq env db request now
        dsimp only
        rw [heq]
        have hwallets : ({ db with wallets := wallets } : RecoveryDb).requests.find? id = some r := h
        refine ⟨_, find?_update (find?_update hwallets), by split <;> rfl, ?_⟩
        split
        · next heq =>
          exact ⟨rfl, .inr ⟨.execute, hown heq, hkind, rfl⟩⟩
        · exact ⟨rfl, .inl rfl⟩
      · next hkind =>
        refine ⟨_, find?_update h, by split <;> rfl, ?_⟩
        split
        · next heq => exact ⟨rfl, .inr ⟨.cancel, hown heq, hkind, rfl⟩⟩
        · exact ⟨rfl, .inl rfl⟩
      · exact ⟨r, h, rfl, rfl, .inl rfl⟩

theorem checkApprove_eq_ok {requestId : String} {c : GuardianCall}
    (h : checkApprove env db requestId c = .ok r) :
    getWalletRecoveryRequest db requestId = some r ∧ r.status = .awaitingGuardian := by
  simp only [checkApprove, bind_eq_ok, revertIf_eq_ok, orRevert_eq_ok, pure_eq_ok] at h
  obtain ⟨-, -, request, hfound, -, hstatus, -, -, -, -, rfl⟩ := h
  exact ⟨hfound, by simpa using hstatus⟩

theorem checkReject_eq_ok {requestId : String} {c : GuardianCall}
    (h : checkReject env db requestId c = .ok r) :
    getWalletRecoveryRequest db requestId = some r ∧ r.status.awaiting := by
  simp only [checkReject, bind_eq_ok, revertIf_eq_ok, orRevert_eq_ok, pure_eq_ok] at h
  obtain ⟨-, -, request, hfound, -, hstatus, rfl⟩ := h
  refine ⟨hfound, ?_⟩
  by_contra hno
  rw [RequestStatus.awaiting, not_or] at hno
  simp [hno.1, hno.2] at hstatus

theorem upsertWalletIdentity_requests {clientId email walletAddress : String} :
    (upsertWalletIdentity db clientId email walletAddress).requests = db.requests ∧
      (upsertWalletIdentity db clientId email walletAddress).jobs = db.jobs := by
  unfold upsertWalletIdentity
  dsimp only
  split <;> exact ⟨rfl, rfl⟩

theorem find?_insert_old {request : Request} {requests} (hinsert : db.requests.insert request = some requests)
    (h : db.requests.find? id = some r) : requests.find? id = some r := by
  rw [Table.find?_insert hinsert, if_neg]
  · exact h
  · rintro rfl
    rw [Table.find?_of_insert hinsert] at h
    cases h

/-- A step changes a request in one of the ways above. -/
theorem request_moved (h : Change env s call db') (hr : s.db.requests.find? id = some r) :
    ∃ r', db'.requests.find? id = some r' ∧ r'.core = r.core ∧ Moved env s call db' id r r' := by
  have hsame : db'.requests = s.db.requests → ∃ r', db'.requests.find? id = some r' ∧
      r'.core = r.core ∧ Moved env s call db' id r r' := by
    intro heq
    rw [heq]
    exact ⟨r, hr, rfl, .same rfl rfl⟩
  cases h with
  | idle => exact hsame rfl
  | challenged => exact hsame rfl
  | clientChallenged => exact hsame rfl
  | guarded => exact hsame rfl
  | codeTried =>
    obtain ⟨t, heq⟩ := consumeOtp_eq
    exact hsame (by rw [heq])
  | codeSent hsent =>
    obtain ⟨t, rfl⟩ := createOtp_eq hsent
    exact hsame rfl
  | attached _ _ _ _ hleft =>
    rcases hleft with rfl | hsent
    · exact hsame rfl
    · obtain ⟨t, rfl⟩ := createOtp_eq hsent
      exact hsame rfl
  | emailVerified =>
    refine hsame ?_
    obtain ⟨t, heq⟩ := consumeOtp_eq
    rw [heq]
  | created _ _ hinsert hleft =>
    refine ⟨r, ?_, rfl, .same rfl rfl⟩
    rcases hleft with rfl | hsent
    · exact find?_insert_old hinsert hr
    · obtain ⟨t, rfl⟩ := createOtp_eq hsent
      exact find?_insert_old hinsert hr
  | requestVerified hfound hstatus hbody hcode =>
    have hkept : ∀ db₁ : RecoveryDb, db₁.requests = s.db.requests →
        db₁.requests.find? id = some r := by
      intro db₁ heq
      rw [heq, hr]
    refine ⟨_, find?_update (hkept _ ?_), by split <;> rfl, ?_⟩
    · obtain ⟨t, heq⟩ := consumeOtp_eq
      rw [heq]
    · split
      · next heq =>
        cases (Table.key_of_find? hfound).symm.trans heq.symm
        cases hr.symm.trans hfound
        exact .verified hstatus rfl rfl ⟨_, _, rfl, hbody, hcode⟩
      · exact .same rfl rfl
  | withdrawn hproven hstatus =>
    obtain ⟨hfound, -⟩ := checkCancel_eq_ok env hproven.checked
    refine ⟨_, find?_update hr, by split <;> rfl, ?_⟩
    split
    · next heq =>
      cases (Table.key_of_find? hfound).symm.trans heq.symm
      cases hr.symm.trans hfound
      exact .withdrawn hstatus rfl rfl
    · exact .same rfl rfl
  | stopped hproven hstatus hjob =>
    obtain ⟨hfound, -⟩ := checkCancel_eq_ok env hproven.checked
    refine ⟨_, find?_update hr, by split <;> rfl, ?_⟩
    split
    · next heq =>
      cases (Table.key_of_find? hfound).symm.trans heq.symm
      cases hr.symm.trans hfound
      exact .stopped _ hstatus rfl rfl ((jobKind_insert hjob).trans (if_pos rfl)) ⟨_, rfl⟩
        (Table.find?_of_insert hjob)
    · exact .same rfl rfl
  | approved hpending hcheck hjob haccepted =>
    refine ⟨_, find?_update hr, by split <;> rfl, ?_⟩
    obtain ⟨hfound, hstatus⟩ := checkApprove_eq_ok hcheck
    split
    · next heq =>
      cases (Table.key_of_find? hfound).symm.trans heq.symm
      cases hr.symm.trans hfound
      exact .approved _ _ _ rfl hpending haccepted hstatus rfl rfl
        ((jobKind_insert hjob).trans (if_pos rfl)) (Table.find?_of_insert hjob)
    · exact .same rfl rfl
  | rejected _ hcheck =>
    refine ⟨_, find?_update hr, by split <;> rfl, ?_⟩
    obtain ⟨hfound, hstatus⟩ := checkReject_eq_ok hcheck
    split
    · next heq =>
      cases (Table.key_of_find? hfound).symm.trans heq.symm
      cases hr.symm.trans hfound
      exact .rejected hstatus rfl rfl
    · exact .same rfl rfl
  | devicePosted => exact hsame rfl
  | deviceDeleted => exact hsame rfl
  | recovered => exact hsame rfl
  | clientCreated _ hproven =>
    refine hsame ?_
    obtain ⟨t, ht⟩ := provenKey_db env s.db _ _ .create _
    rw [hproven] at ht
    cases ht
    exact upsertWalletIdentity_requests.1
  | clientInitiated => exact hsame rfl
  | clientCancelled => exact hsame rfl
  | signed k payload =>
    refine ⟨_, find?_update hr, by split <;> rfl, ?_⟩
    split <;> exact .same rfl rfl
  | initiated hsession hfound hjob haccepted =>
    refine ⟨_, find?_update hr, by split <;> rfl, ?_⟩
    split
    · next heq =>
      cases (Table.key_of_find? hfound).symm.trans heq.symm
      cases hr.symm.trans hfound
      exact .initiated _ rfl haccepted rfl rfl ((jobKind_insert hjob).trans (if_pos rfl))
        (Table.find?_of_insert hjob)
    · exact .same rfl rfl
  | claimed hclaim => exact hsame (jobKind_claim hclaim).1
  | tracked htrack => exact hsame (jobKind_track htrack).1
  | synced htrack =>
    obtain ⟨hrequests, -, -, hkind⟩ := jobKind_track htrack
    rw [← hrequests] at hr
    obtain ⟨r', hfound, hcore, hjob, hstatus | ⟨kind, hbefore, hk, hstatus⟩⟩ := sync_moved hr
    · exact ⟨r', hfound, hcore, .same hstatus hjob⟩
    · rw [hkind] at hk
      exact ⟨r', hfound, hcore, .synced _ kind hbefore hk hstatus (hjob.trans hbefore)⟩
  | elsewhere => exact hsame rfl

theorem find?_update_none {patch : RequestPatch} {k : String} (h : db.requests.find? id = none) :
    (updateWalletRecoveryRequest db k patch).requests.find? id = none := by
  unfold updateWalletRecoveryRequest
  rw [Table.find?_modify]
  split <;> simp [h]

theorem sync_none {jobId : String} {status : JobStatus} {now : Time}
    (h : db.requests.find? id = none) :
    (syncRequestFromJob env db jobId status now).requests.find? id = none := by
  unfold syncRequestFromJob
  split
  · exact h
  next request _ =>
    split
    · exact h
    · split
      · exact find?_update_none h
      · obtain ⟨wallets, heq⟩ := indexRestored_eq env db request now
        dsimp only
        rw [heq]
        exact find?_update_none (find?_update_none h)
      · exact find?_update_none h
      · exact h

/-- The callback of a job writes requests and methods only. -/
theorem sync_eq (env : Env) (db : RecoveryDb) (jobId : String) (status : JobStatus) (now : Time) :
    ∃ wallets requests, syncRequestFromJob env db jobId status now =
      { db with wallets := wallets, requests := requests } := by
  unfold syncRequestFromJob
  split
  · exact ⟨_, _, rfl⟩
  next request _ =>
    split
    · exact ⟨_, _, rfl⟩
    · split
      · exact ⟨_, _, rfl⟩
      · obtain ⟨wallets, heq⟩ := indexRestored_eq env db request now
        dsimp only
        rw [heq]
        exact ⟨_, _, rfl⟩
      · exact ⟨_, _, rfl⟩
      · exact ⟨_, _, rfl⟩

theorem sync_jobs {jobId : String} {status : JobStatus} {now : Time} :
    (syncRequestFromJob env db jobId status now).jobs = db.jobs := by
  obtain ⟨wallets, requests, heq⟩ := sync_eq env db jobId status now
  rw [heq]

theorem sync_otps {jobId : String} {status : JobStatus} {now : Time} :
    (syncRequestFromJob env db jobId status now).otps = db.otps := by
  obtain ⟨wallets, requests, heq⟩ := sync_eq env db jobId status now
  rw [heq]

theorem creationRow_awaiting {c : Creation} {wallet : String} {row : NewRequest}
    (h : creationRow db c wallet = some row) : row.status.awaiting := by
  unfold creationRow at h
  dsimp only at h
  split at h
  · cases h
  · cases h
    dsimp only
    split
    · exact .inl rfl
    · exact .inr rfl

/-- Where the request `id` comes from that `call` creates. -/
def CreatedBy (env : Env) (s : RecoveryServer) (call : Call) (id : String) (r' : Request) : Prop :=
  ∃ n answer c wallet row, call = .resume n answer ∧ Round env s n answer c wallet ∧
    creationRow s.db c wallet = some row ∧ id = answer.input.newId ∧
    r' = newRequest answer.input.now id row

theorem inserted_request {request r' : Request} {requests}
    (hinsert : db.requests.insert request = some requests)
    (hnone : db.requests.find? id = none) (hr' : requests.find? id = some r') :
    request.id = id ∧ r' = request := by
  rw [Table.find?_insert hinsert] at hr'
  split at hr'
  · next heq => exact ⟨heq, (Option.some.inj hr').symm⟩
  · rw [hnone] at hr'
    cases hr'

theorem createdBy_of_insert {n : Nat} {answer : Answer} {c : Creation} {wallet : String}
    {row : NewRequest} {requests} {r' : Request} (hround : Round env s n answer c wallet)
    (hrow : creationRow s.db c wallet = some row)
    (hinsert : s.db.requests.insert (newRequest answer.input.now answer.input.newId row) =
      some requests)
    (hnone : s.db.requests.find? id = none) (hr' : requests.find? id = some r') :
    CreatedBy env s (.resume n answer) id r' := by
  obtain ⟨rfl, rfl⟩ := inserted_request hinsert hnone hr'
  exact ⟨n, answer, c, wallet, row, rfl, hround, hrow, rfl, rfl⟩

/-- A request that is new after a step was created by it. -/
theorem request_created {r' : Request} (h : Change env s call db')
    (hnone : s.db.requests.find? id = none) (hr' : db'.requests.find? id = some r') :
    CreatedBy env s call id r' := by
  have hsame : db'.requests = s.db.requests → CreatedBy env s call id r' := by
    intro heq
    rw [heq, hnone] at hr'
    cases hr'
  have hupdate : ∀ db₁ k patch, db' = updateWalletRecoveryRequest db₁ k patch →
      db₁.requests = s.db.requests → CreatedBy env s call id r' := by
    intro db₁ k patch hdb heq
    rw [← heq] at hnone
    rw [hdb, find?_update_none hnone] at hr'
    cases hr'
  cases h with
  | idle => exact hsame rfl
  | challenged => exact hsame rfl
  | clientChallenged => exact hsame rfl
  | guarded => exact hsame rfl
  | codeTried =>
    obtain ⟨t, heq⟩ := consumeOtp_eq
    exact hsame (by rw [heq])
  | codeSent hsent =>
    obtain ⟨t, rfl⟩ := createOtp_eq hsent
    exact hsame rfl
  | attached _ _ _ _ hleft =>
    rcases hleft with rfl | hsent
    · exact hsame rfl
    · obtain ⟨t, rfl⟩ := createOtp_eq hsent
      exact hsame rfl
  | emailVerified =>
    refine hsame ?_
    obtain ⟨t, heq⟩ := consumeOtp_eq
    rw [heq]
  | created hround hrow hinsert hleft =>
    rcases hleft with rfl | hsent
    · exact createdBy_of_insert hround hrow hinsert hnone hr'
    · obtain ⟨t, rfl⟩ := createOtp_eq hsent
      exact createdBy_of_insert hround hrow hinsert hnone hr'
  | requestVerified =>
    refine hupdate _ _ _ rfl ?_
    obtain ⟨t, heq⟩ := consumeOtp_eq
    rw [heq]
  | withdrawn => exact hupdate _ _ _ rfl rfl
  | stopped => exact hupdate _ _ _ rfl rfl
  | approved => exact hupdate _ _ _ rfl rfl
  | rejected => exact hupdate _ _ _ rfl rfl
  | devicePosted => exact hsame rfl
  | deviceDeleted => exact hsame rfl
  | recovered => exact hsame rfl
  | clientCreated _ hproven =>
    refine hsame ?_
    obtain ⟨t, ht⟩ := provenKey_db env s.db _ _ .create _
    rw [hproven] at ht
    cases ht
    exact upsertWalletIdentity_requests.1
  | clientInitiated => exact hsame rfl
  | clientCancelled => exact hsame rfl
  | signed => exact hupdate _ _ _ rfl rfl
  | initiated => exact hupdate _ _ _ rfl rfl
  | claimed hclaim => exact hsame (jobKind_claim hclaim).1
  | tracked htrack => exact hsame (jobKind_track htrack).1
  | synced htrack =>
    rw [← (jobKind_track htrack).1] at hnone
    rw [sync_none hnone] at hr'
    cases hr'
  | elsewhere => exact hsame rfl

/-- It waits, and has no job. -/
theorem CreatedBy.waits {r' : Request} (h : CreatedBy env s call id r') :
    r'.status.awaiting ∧ r'.jobId = none := by
  obtain ⟨n, answer, c, wallet, row, -, -, hrow, -, rfl⟩ := h
  exact ⟨creationRow_awaiting hrow, rfl⟩

/-- Where the job comes from that is to initiate a recovery. -/
inductive Initiated (env : Env) (s : RecoveryServer) (db' : RecoveryDb) (job : Job) : Call → Prop
  | byClient {client : Client} {wallet : String} {input : Input} {identityVerified : Bool} :
    Initiated env s db' job (.initiateRecovery client wallet input identityVerified)
  | byGuardian {n : Nat} {answer : Answer} {session : GuardianSession} {request : Request}
      (hpending : s.pending[n]? = some (.guarding session (.approve request.id)))
      (hcheck : checkApprove env s.db request.id (guardianCall session answer) = .ok request)
      (hjob : job = newJob answer.input.now answer.input.newId (initiateJob request))
      (haccepted : (step env s (.resume n answer)).1 = .ok ())
      (hleft : ∃ r', db'.requests.find? request.id = some r' ∧ r'.jobId = some job.id) :
    Initiated env s db' job (.resume n answer)

/-- A step adds at most one job and no job changes its kind. -/
theorem jobs_cases (h : Change env s call db') :
    (∀ j, jobKind db' j = jobKind s.db j) ∨ ∃ job, s.db.jobs.insert job = some db'.jobs ∧
      (job.kind = .initiate → Initiated env s db' job call) := by
  have hsame : db'.jobs = s.db.jobs → ∀ j, jobKind db' j = jobKind s.db j := by
    intro heq j
    rw [jobKind, heq, jobKind]
  cases h with
  | idle => exact .inl (hsame rfl)
  | challenged => exact .inl (hsame rfl)
  | clientChallenged => exact .inl (hsame rfl)
  | guarded => exact .inl (hsame rfl)
  | codeTried =>
    obtain ⟨t, heq⟩ := consumeOtp_eq
    exact .inl (hsame (by rw [heq]))
  | codeSent hsent =>
    obtain ⟨t, rfl⟩ := createOtp_eq hsent
    exact .inl (hsame rfl)
  | attached _ _ _ _ hleft =>
    rcases hleft with rfl | hsent
    · exact .inl (hsame rfl)
    · obtain ⟨t, rfl⟩ := createOtp_eq hsent
      exact .inl (hsame rfl)
  | emailVerified =>
    refine .inl (hsame ?_)
    obtain ⟨t, heq⟩ := consumeOtp_eq
    rw [heq]
  | created _ _ _ hleft =>
    rcases hleft with rfl | hsent
    · exact .inl (hsame rfl)
    · obtain ⟨t, rfl⟩ := createOtp_eq hsent
      exact .inl (hsame rfl)
  | requestVerified =>
    refine .inl (hsame ?_)
    obtain ⟨t, heq⟩ := consumeOtp_eq
    rw [heq]
    rfl
  | withdrawn => exact .inl (hsame rfl)
  | stopped _ _ hjob => exact .inr ⟨_, hjob, by simp [newJob, cancelJob]⟩
  | approved hpending hcheck hjob haccepted =>
    have hfound := (checkApprove_eq_ok hcheck).1
    have hid := Table.key_of_find? hfound
    subst hid
    refine .inr ⟨_, hjob, fun _ => .byGuardian hpending hcheck rfl haccepted
      ⟨_, find?_update hfound, ?_⟩⟩
    rw [if_pos rfl]
    rfl
  | rejected => exact .inl (hsame rfl)
  | devicePosted => exact .inl (hsame rfl)
  | deviceDeleted => exact .inl (hsame rfl)
  | recovered => exact .inl (hsame rfl)
  | clientCreated _ hproven =>
    refine .inl (hsame ?_)
    obtain ⟨t, ht⟩ := provenKey_db env s.db _ _ .create _
    rw [hproven] at ht
    cases ht
    exact upsertWalletIdentity_requests.2
  | clientInitiated _ _ hleft =>
    rcases hleft with rfl | hjob
    · exact .inl (hsame rfl)
    · exact .inr ⟨_, hjob, fun _ => .byClient⟩
  | clientCancelled _ _ hjob => exact .inr ⟨_, hjob, by simp [newJob, clientCancelJob]⟩
  | signed => exact .inl (hsame rfl)
  | initiated _ _ hjob => exact .inr ⟨_, hjob, by simp [newJob, executeJob]⟩
  | claimed hclaim => exact .inl (jobKind_claim hclaim).2.2.2
  | tracked htrack => exact .inl (jobKind_track htrack).2.2.2
  | synced htrack =>
    refine .inl fun j => ?_
    rw [jobKind, sync_jobs]
    exact (jobKind_track htrack).2.2.2 j
  | elsewhere => exact .inl (hsame rfl)

theorem jobKind_kept (h : Change env s call db') {j : String} {kind : JobKind}
    (hk : jobKind s.db j = some kind) : jobKind db' j = some kind := by
  rcases jobs_cases h with hsame | ⟨job, hinsert, -⟩
  · rw [hsame, hk]
  · rw [jobKind, jobKind_insert hinsert, if_neg]
    · exact hk
    · rintro rfl
      rw [insert_free hinsert] at hk
      cases hk

end OnchainInvoice.Recovery
