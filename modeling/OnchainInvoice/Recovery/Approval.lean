import OnchainInvoice.Persist.WalletViews
import OnchainInvoice.Recovery.Codes
import OnchainInvoice.Recovery.LifeCycle
import OnchainInvoice.Recovery.Waiting

/-!
# The guardian's approval

An approval relies on what other routes established earlier in the run: who the guardian is, which
key signed, and whose mail was read.  The invariant keeps the history of each beside its row.
-/

namespace OnchainInvoice.Recovery

open Lib.Histories Lib.Revert Lib.Tables Server WalletLog

variable {env : Env} {s : RecoveryServer} {calls before : List Call} {call : Call} {id : String}
  {r r' : Request}

abbrev HappenedIn (env : Env) (A : RecoveryServer → Call → Prop) (calls : List Call) : Prop :=
  Happened (next env) RecoveryServer.empty A calls

/-! ## What an approval relies on -/

/-- A guardian's session lets in the request for `action` while it is live. -/
def LetIn (env : Env) (session : GuardianSession) (action : GuardianAction) (s : RecoveryServer)
    (call : Call) : Prop :=
  ∃ token now, call = .guardianRequest (some token) action now ∧
    s.db.guardianSessions.find? (env.hashToken token) = some session ∧ now ≤ session.expiresAt

/-- The handler that goes on as `c`, up to the wallets that are left, has used up a challenge for
recovery and verified an assertion over it under the key of `c`. -/
def ProvesKey (env : Env) (c : Creation) (s : RecoveryServer) (call : Call) : Prop :=
  ∃ n answer input sessionEmail wallets c₀ db₀ challengeId db₁ a,
    call = .resume n answer ∧ s.pending[n]? = some (.chosen input sessionEmail wallets) ∧
    startCreation env s.db { input with now := answer.input.now } sessionEmail wallets
      answer.restoreEnabled = (.ok c₀, db₀) ∧ c = { c₀ with wallets := c.wallets } ∧
    consumeHostedRecoveryChallenge s.db answer.input.now challengeId .recover =
      some (c.challenge, db₁) ∧
    input.assertion = some a ∧ Verifies env a (hosted env c.challenge c.ownerQx c.ownerQy)

/-- The round of `c` over the wallet creates the request `id`. -/
def Creates (env : Env) (id : String) (c : Creation) (wallet : String) (r : Request)
    (s : RecoveryServer) (call : Call) : Prop :=
  ∃ n answer row, call = .resume n answer ∧ Round env s n answer c wallet ∧
    creationRow s.db c wallet = some row ∧ id = answer.input.newId ∧
    r = newRequest answer.input.now id row

/-- The request was created by a handler that had proven the key `qx`, `qy`. -/
def KeyProven (env : Env) (id qx qy : String) : List Call → Prop :=
  Once fun before call => ∃ c wallet r, Creates env id c wallet r (runCalls env before) call ∧
    c.ownerQx = qx ∧ c.ownerQy = qy ∧ HappenedIn env (ProvesKey env c) before

def VerifiedEmail (db : RecoveryDb) (walletAddress email : String) : Prop :=
  ∃ record, getWalletEmail db walletAddress = some record ∧ record.verifiedAt.isSome ∧
    normalizeEmail record.email = email

/-- The request was created while its email was the wallet's verified one. -/
def VerifiedAtCreation (env : Env) (id walletAddress email : String) : List Call → Prop :=
  Once fun before call => (∃ c wallet r, Creates env id c wallet r (runCalls env before) call) ∧
    VerifiedEmail (runCalls env before).db walletAddress email

/-- The request was confirmed with a code that had been mailed to `email`. -/
def ConfirmedByMail (env : Env) (id email : String) : List Call → Prop :=
  Once fun before call => ∃ input code row, call = .verifyRecoveryEmail id input ∧
    str (input.body "code") = some code ∧ row ∈ (runCalls env before).db.otps.rows ∧
    row.email = email ∧ row.purpose = .recover ∧ row.consumedAt = none ∧
    row.codeHash = env.hashOtpCode code ∧
    HappenedIn env (fun s call => NewCode env s call row) before

def EmailVouched (env : Env) (id : String) (r : Request) (calls : List Call) : Prop :=
  r.email = "" ∨ VerifiedAtCreation env id r.walletAddress r.email calls ∨
    ConfirmedByMail env id r.email calls

/-! ## The gate -/

def CreatesJob (env : Env) (before : List Call) (call : Call) (job : Job) : Prop :=
  (runCalls env before).db.jobs.find? job.id = none ∧
    (next env (runCalls env before) call).db.jobs.find? job.id = some job

/-- A hosted route creates the job, which is to initiate a recovery. -/
def InitiatesHosted (env : Env) (job : Job) (before : List Call) (call : Call) : Prop :=
  CreatesJob env before call job ∧ job.kind = .initiate ∧
    ∀ client wallet input identityVerified,
      call ≠ .initiateRecovery client wallet input identityVerified

def BelongsTo (db : RecoveryDb) (j id : String) : Prop :=
  ∃ r, db.requests.find? id = some r ∧ r.jobId = some j

/-- What holds when the job to initiate the recovery that `r` asks for is created. -/
structure Gate (env : Env) (before : List Call) (call : Call) (job : Job) (id : String)
    (r : Request) : Prop where
  request : (runCalls env before).db.requests.find? id = some r
  awaiting : r.status = .awaitingGuardian
  target : job.walletAddress = lowerCase r.walletAddress ∧ job.chainId = r.chainId
  key : job.newQx = some r.newQx ∧ job.newQy = some r.newQy
  possession : KeyProven env id r.newQx r.newQy before
  guardian : ∃ n answer session, call = .resume n answer ∧
    (runCalls env before).pending[n]? = some (.guarding session (.approve id)) ∧
    HappenedIn env (LetIn env session (.approve id)) before ∧
    isGuardian env session.address answer.guardian
  email : EmailVouched env id r before
  belongs : ∀ id', BelongsTo (next env (runCalls env before) call).db job.id id' ↔ id' = id
  first : ¬ Once (fun before call => ∃ job, InitiatesHosted env job before call ∧
    BelongsTo (next env (runCalls env before) call).db job.id id) before

-- No two requests have the same job.
def JobsApart (db : RecoveryDb) : Prop :=
  ∀ j id id', BelongsTo db j id → BelongsTo db j id' → id = id'

/-! ## Jobs of requests -/

/-- The call that may give the request a new job. -/
def JobFor (s : RecoveryServer) (call : Call) (id : String) : Prop :=
  (∃ n answer session, call = .resume n answer ∧
    s.pending[n]? = some (.guarding session (.approve id))) ∨
  (∃ input, call = .cancelRecoveryRequest id input) ∨ ∃ c, call = .operatorInitiated id c

theorem jobFor_unique {id' : String} (h : JobFor s call id) (h' : JobFor s call id') : id = id' := by
  rcases h with ⟨n, answer, session, rfl, hpending⟩ | ⟨input, rfl⟩ | ⟨c, rfl⟩
  · rcases h' with ⟨n', answer', session', heq, hpending'⟩ | ⟨input', heq⟩ | ⟨c', heq⟩
    · cases heq
      cases hpending.symm.trans hpending'
      rfl
    · cases heq
    · cases heq
  · rcases h' with ⟨n', answer', session', heq, -⟩ | ⟨input', heq⟩ | ⟨c', heq⟩ <;> cases heq
    rfl
  · rcases h' with ⟨n', answer', session', heq, -⟩ | ⟨input', heq⟩ | ⟨c', heq⟩ <;> cases heq
    rfl

/-- A request keeps its job, or the step gives it one that was not there. -/
theorem job_moved {db' : RecoveryDb} (h : Moved env s call db' id r r') :
    r'.jobId = r.jobId ∨
      ∃ j, r'.jobId = some j ∧ s.db.jobs.find? j = none ∧ JobFor s call id := by
  cases h with
  | same _ hjob | verified _ _ hjob | rejected _ _ hjob | withdrawn _ _ hjob => exact .inl hjob
  | approved n answer session hcall hpending _ _ _ hjob _ hfree =>
    exact .inr ⟨_, hjob, hfree, .inl ⟨n, answer, session, hcall, hpending⟩⟩
  | stopped j _ _ hjob _ hcall hfree => exact .inr ⟨j, hjob, hfree, .inr (.inl hcall)⟩
  | initiated c hcall _ _ hjob _ hfree => exact .inr ⟨_, hjob, hfree, .inr (.inr ⟨c, hcall⟩)⟩
  | synced j kind hbefore _ _ hjob => exact .inl (hjob.trans hbefore.symm)

theorem belongs_next {j : String} (h : BelongsTo (next env s call).db j id) :
    BelongsTo s.db j id ∨ (s.db.jobs.find? j = none ∧ JobFor s call id) := by
  obtain ⟨r', hr', hjob⟩ := h
  cases hr : s.db.requests.find? id with
  | none =>
    rw [(request_created (change env s call) hr hr').waits.2] at hjob
    cases hjob
  | some r =>
    obtain ⟨r'', hfound, -, hmoved⟩ := request_moved (change env s call) hr
    cases hfound.symm.trans hr'
    rcases job_moved hmoved with hsame | ⟨j', hj', hfree, hfor⟩
    · exact .inl ⟨r, hr, hsame.symm.trans hjob⟩
    · cases hj'.symm.trans hjob
      exact .inr ⟨hfree, hfor⟩

theorem jobsApart (env : Env) (calls : List Call) : JobsApart (runCalls env calls).db := by
  refine run_invariant (I := fun _ (s : RecoveryServer) => JobsApart s.db) ?_ ?_ calls
  · rintro j id id' ⟨r, hr, -⟩
    cases hr
  · intro ts call hapart j id id' h h'
    have hthere : ∀ k, BelongsTo (runCalls env ts).db j k →
        (runCalls env ts).db.jobs.find? j ≠ none := by
      rintro k ⟨r, hr, hjob⟩ hnone
      refine ((lifeCycle env ts).tracked k r hr).job j hjob ?_
      rw [jobKind, hnone]
      rfl
    rcases belongs_next h with hold | ⟨hfree, hfor⟩
    · rcases belongs_next h' with hold' | ⟨hfree, -⟩
      · exact hapart j id id' hold hold'
      · exact absurd hfree (hthere id hold)
    · rcases belongs_next h' with hold' | ⟨-, hfor'⟩
      · exact absurd hfree (hthere id' hold')
      · exact jobFor_unique hfor hfor'

theorem jobsApart_next (env : Env) (before : List Call) (call : Call) :
    JobsApart (next env (runCalls env before) call).db := by
  have h := jobsApart env (before ++ [call])
  unfold runCalls at h
  rwa [run_concat] at h

/-! ## What the handlers have checked -/

theorem startCreation_eq_ok {db db₀ : RecoveryDb} {input : Input} {sessionEmail : Option String}
    {wallets : List String} {restoreEnabled : Bool} {c : Creation}
    (h : startCreation env db input sessionEmail wallets restoreEnabled = (.ok c, db₀))
    (hkind : c.ownerKind ≠ .eoa) :
    ∃ challengeId a, consumeHostedRecoveryChallenge db input.now challengeId .recover =
        some (c.challenge, db₀) ∧ input.assertion = some a ∧
      Verifies env a (hosted env c.challenge c.ownerQx c.ownerQy) := by
  unfold startCreation at h
  split at h
  · cases h
  · dsimp only at h
    split at h
    · cases h
    next challengeId _ =>
      split at h
      · cases h
      next challenge db₁ hconsumed =>
        split at h
        · cases h
        next qx qy credentialId newEoa howner =>
          cases h
          unfold newOwner at howner
          split at howner
          · next heoa => exact absurd heoa hkind
          · simp only [bind_eq_ok, orRevert_eq_ok, pure_eq_ok, Prod.mk.injEq] at howner
            obtain ⟨qx', -, qy', -, credentialId', -, a, hassertion, u, hverifies, rfl, rfl, -, -⟩ :=
              howner
            exact ⟨challengeId, a, hconsumed, hassertion, hverifies⟩

theorem ProvesKey.wallets {c : Creation} (h : ProvesKey env c s call) (wallets : List String) :
    ProvesKey env { c with wallets := wallets } s call := by
  obtain ⟨n, answer, input, sessionEmail, ws, c₀, db₀, challengeId, db₁, a, hcall, hpending, hstart,
    hc, hrest⟩ := h
  refine ⟨n, answer, input, sessionEmail, ws, c₀, db₀, challengeId, db₁, a, hcall, hpending, hstart,
    ?_, hrest⟩
  rw [hc]

-- A round over the wallets waits as `c`.
def Goes (s : RecoveryServer) (c : Creation) : Prop :=
  .creating c ∈ s.pending ∨ ∃ wallet, .looking c wallet ∈ s.pending

theorem Round.goes {n : Nat} {answer : Answer} {c : Creation} {wallet : String}
    (h : Round env s n answer c wallet) : ∃ wallets, Goes s { c with wallets := wallets } := by
  cases h with
  | @passkey c' _ _ hpending => exact ⟨c'.wallets, .inl (List.mem_of_getElem? hpending)⟩
  | looked hpending => exact ⟨c.wallets, .inr ⟨wallet, List.mem_of_getElem? hpending⟩⟩

/-! ## The invariant -/

structure Vouched (env : Env) (calls : List Call) (s : RecoveryServer) : Prop where
  keys : ∀ c, Goes s c → c.ownerKind ≠ .eoa → HappenedIn env (ProvesKey env c) calls
  guardians : ∀ session action, .guarding session action ∈ s.pending →
    HappenedIn env (LetIn env session action) calls
  codes : ∀ row ∈ s.db.otps.rows, HappenedIn env (fun s call => NewCode env s call row) calls
  proven : ∀ id r, s.db.requests.find? id = some r → r.newOwnerKind ≠ .eoa →
    KeyProven env id r.newQx r.newQy calls
  normal : ∀ id r, s.db.requests.find? id = some r → normalizeEmail r.email = r.email
  emails : ∀ id r, s.db.requests.find? id = some r → r.status = .awaitingGuardian →
    EmailVouched env id r calls

theorem vouched_empty : Vouched env [] RecoveryServer.empty := by
  refine ⟨fun c hc _ => ?_, fun _ _ h => ?_, fun _ h => ?_, fun id r h _ => ?_, fun id r h => ?_,
    fun id r h _ => ?_⟩
  · rcases hc with h | ⟨wallet, h⟩ <;> cases h
  · cases h
  · cases h
  · cases h
  · cases h
  · cases h

theorem Vouched.key_next (h : Vouched env calls (runCalls env calls)) {c : Creation}
    (hc : Goes (next env (runCalls env calls) call) c) (hkind : c.ownerKind ≠ .eoa) :
    HappenedIn env (ProvesKey env c) (calls ++ [call]) := by
  have hbefore : ∀ wallets, Goes (runCalls env calls) { c with wallets := wallets } →
      HappenedIn env (ProvesKey env c) (calls ++ [call]) := by
    intro wallets hgoes
    exact happened_concat.mpr (.inl (Once.mono (h.keys _ hgoes hkind) fun _ _ hp =>
      hp.wallets c.wallets))
  rcases hc with hp | ⟨wallet, hp⟩
  · rcases pending_next hp with hold | hspawned
    · exact hbefore c.wallets (.inl hold)
    · cases hspawned with
      | @started n answer input sessionEmail wallets c db' hpending hstart =>
        obtain ⟨challengeId, a, hconsumed, hassertion, hverifies⟩ := startCreation_eq_ok hstart hkind
        exact happened_concat.mpr (.inr ⟨n, answer, input, sessionEmail, wallets, c, db',
          challengeId, db', a, rfl, hpending, hstart, rfl, hconsumed, hassertion, hverifies⟩)
      | @continued n answer c' wallets hpending =>
        refine hbefore c'.wallets ?_
        rcases hpending with hcreating | ⟨wallet, hlooking⟩
        · exact .inl (List.mem_of_getElem? hcreating)
        · exact .inr ⟨wallet, List.mem_of_getElem? hlooking⟩
  · rcases pending_next hp with hold | hspawned
    · exact hbefore c.wallets (.inr ⟨wallet, hold⟩)
    · cases hspawned with
      | @asked n answer c' _ wallets hpending =>
        exact hbefore c'.wallets (.inl (List.mem_of_getElem? hpending))

theorem Vouched.guardian_next (h : Vouched env calls (runCalls env calls))
    {session : GuardianSession} {action : GuardianAction}
    (hp : .guarding session action ∈ (next env (runCalls env calls) call).pending) :
    HappenedIn env (LetIn env session action) (calls ++ [call]) := by
  rcases pending_next hp with hold | hspawned
  · exact happened_concat.mpr (.inl (h.guardians session action hold))
  · cases hspawned with
    | guarding hfound hlive => exact happened_concat.mpr (.inr ⟨_, _, rfl, hfound, hlive⟩)

theorem Vouched.code_next (h : Vouched env calls (runCalls env calls)) {row : EmailOtp}
    (hrow : row ∈ (next env (runCalls env calls) call).db.otps.rows) :
    HappenedIn env (fun s call => NewCode env s call row) (calls ++ [call]) := by
  rcases code_origin (change env (runCalls env calls) call) hrow with ⟨old, hold, hsame⟩ | hnew
  · exact happened_concat.mpr (.inl (Once.mono (h.codes old hold) fun _ _ hc => hc.congr hsame))
  · exact happened_concat.mpr (.inr hnew)

theorem creationRow_key {db : RecoveryDb} {c : Creation} {wallet : String} {row : NewRequest}
    (h : creationRow db c wallet = some row) :
    row.newQx = c.ownerQx ∧ row.newQy = c.ownerQy ∧ row.newOwnerKind = c.ownerKind := by
  unfold creationRow at h
  dsimp only at h
  split at h
  · cases h
  · cases h
    exact ⟨rfl, rfl, rfl⟩

/-- A request that waits for the guardian at once has no email, or the wallet's verified one. -/
theorem creationRow_email {db : RecoveryDb} {c : Creation} {wallet : String} {row : NewRequest}
    (h : creationRow db c wallet = some row) (hstatus : row.status = .awaitingGuardian) :
    row.email = "" ∨ VerifiedEmail db row.walletAddress (normalizeEmail row.email) := by
  have hverified : ∀ email, (getWalletEmail db wallet).any (fun record =>
      record.verifiedAt.isSome ∧ record.email = email) →
      VerifiedEmail db wallet (normalizeEmail email) := by
    intro email hany
    obtain ⟨record, hrecord, hthere⟩ := (Option.any_eq_true _ _).mp hany
    rw [decide_eq_true_eq] at hthere
    exact ⟨record, hrecord, hthere.1, by rw [hthere.2]⟩
  unfold creationRow at h
  dsimp only at h
  split at h
  · cases h
  next hsession =>
    cases h
    dsimp only at hstatus ⊢
    cases hemail : ((c.sessionEmail.or c.emailInput).or
      ((getWalletEmail db wallet).map WalletEmail.email)).filter (· ≠ "") with
    | none => exact .inl rfl
    | some email =>
      refine .inr (hverified email ?_)
      cases hs : c.sessionEmail with
      | none =>
        rw [hemail, hs] at hstatus
        simpa using hstatus
      | some sessionEmail =>
        rw [hs, Option.some_or, Option.some_or] at hemail
        obtain ⟨heq, -⟩ := Option.filter_eq_some_iff.mp hemail
        cases heq
        simpa [hs] using hsession

theorem Vouched.proven_next (h : Vouched env calls (runCalls env calls))
    (hr' : (next env (runCalls env calls) call).db.requests.find? id = some r')
    (hkind : r'.newOwnerKind ≠ .eoa) : KeyProven env id r'.newQx r'.newQy (calls ++ [call]) := by
  have hchange := change env (runCalls env calls) call
  cases hr : (runCalls env calls).db.requests.find? id with
  | some r =>
    obtain ⟨r'', hfound, hcore, -⟩ := request_moved hchange hr
    cases hfound.symm.trans hr'
    simp only [Request.core, Prod.mk.injEq] at hcore
    obtain ⟨-, -, -, hqx, hqy, -, hk, -⟩ := hcore
    rw [hqx, hqy]
    exact once_concat.mpr (.inl (h.proven id r hr (hk ▸ hkind)))
  | none =>
    obtain ⟨n, answer, c, wallet, row, rfl, hround, hrow, rfl, rfl⟩ := request_created hchange hr hr'
    obtain ⟨hqx, hqy, hk⟩ := creationRow_key hrow
    obtain ⟨wallets, hgoes⟩ := hround.goes
    refine once_concat.mpr (.inr ⟨c, wallet, _, ⟨n, answer, row, rfl, hround, hrow, rfl, rfl⟩,
      hqx.symm, hqy.symm, ?_⟩)
    exact Once.mono (h.keys _ hgoes (hk ▸ hkind)) fun _ _ hp => hp.wallets c.wallets

theorem Vouched.normal_next (h : Vouched env calls (runCalls env calls))
    (hr' : (next env (runCalls env calls) call).db.requests.find? id = some r') :
    normalizeEmail r'.email = r'.email := by
  have hchange := change env (runCalls env calls) call
  cases hr : (runCalls env calls).db.requests.find? id with
  | some r =>
    obtain ⟨r'', hfound, hcore, -⟩ := request_moved hchange hr
    cases hfound.symm.trans hr'
    simp only [Request.core, Prod.mk.injEq] at hcore
    rw [hcore.2.2.1]
    exact h.normal id r hr
  | none =>
    obtain ⟨n, answer, c, wallet, row, -, -, -, -, rfl⟩ := request_created hchange hr hr'
    exact normalizeEmail_normalizeEmail row.email

theorem EmailVouched.concat (h : EmailVouched env id r calls) :
    EmailVouched env id r (calls ++ [call]) := by
  rcases h with hempty | hverified | hconfirmed
  · exact .inl hempty
  · exact .inr (.inl (once_concat.mpr (.inl hverified)))
  · exact .inr (.inr (once_concat.mpr (.inl hconfirmed)))

theorem Vouched.email_next (h : Vouched env calls (runCalls env calls))
    (hr' : (next env (runCalls env calls) call).db.requests.find? id = some r')
    (hstatus' : r'.status = .awaitingGuardian) : EmailVouched env id r' (calls ++ [call]) := by
  have hchange := change env (runCalls env calls) call
  cases hr : (runCalls env calls).db.requests.find? id with
  | some r =>
    obtain ⟨r'', hfound, hcore, hmoved⟩ := request_moved hchange hr
    cases hfound.symm.trans hr'
    simp only [Request.core, Prod.mk.injEq] at hcore
    obtain ⟨-, hwallet, hemail, -⟩ := hcore
    unfold EmailVouched
    rw [hwallet, hemail]
    cases hmoved with
    | same hstatus => exact (h.emails id r hr (hstatus.symm.trans hstatus')).concat
    | verified _ _ _ hcode =>
      obtain ⟨input, code, hcall, hbody, hconsumed⟩ := hcode
      obtain ⟨row, hmem, -, hrow, hpurpose, hunused, hhash⟩ := consumeOtp_true hconsumed
      rw [h.normal id r hr] at hrow
      exact .inr (.inr (once_concat.mpr (.inr ⟨input, code, row, hcall, hbody, hmem, hrow,
        hpurpose, hunused, hhash, h.codes row hmem⟩)))
    | synced j kind _ _ hstatus =>
      rw [hstatus] at hstatus'
      cases kind <;> cases hstatus'
    | approved _ _ _ _ _ _ _ hstatus | rejected _ hstatus | withdrawn _ hstatus
    | stopped _ _ hstatus | initiated _ _ _ hstatus =>
      rw [hstatus] at hstatus'
      cases hstatus'
  | none =>
    obtain ⟨n, answer, c, wallet, row, rfl, hround, hrow, rfl, rfl⟩ := request_created hchange hr hr'
    rcases creationRow_email hrow hstatus' with hempty | hverified
    · refine .inl ?_
      show normalizeEmail row.email = ""
      rw [hempty]
      rfl
    · refine .inr (.inl (once_concat.mpr (.inr
        ⟨⟨c, wallet, _, n, answer, row, rfl, hround, hrow, rfl, rfl⟩, ?_⟩)))
      obtain ⟨record, hrecord, hthere⟩ := hverified
      refine ⟨record, ?_, hthere⟩
      show getWalletEmail _ (lowerCase row.walletAddress) = some record
      unfold getWalletEmail
      rw [lowerCase_lowerCase]
      exact hrecord

theorem vouched (env : Env) (calls : List Call) : Vouched env calls (runCalls env calls) :=
  run_invariant vouched_empty (fun _ _ h => ⟨fun _ => h.key_next, fun _ _ => h.guardian_next,
    fun _ => h.code_next, fun _ _ => h.proven_next, fun _ _ => h.normal_next,
    fun _ _ => h.email_next⟩) calls

/-! ## Every approval -/

theorem checkApprove_passed {db : RecoveryDb} {requestId : String} {c : GuardianCall}
    (h : checkApprove env db requestId c = .ok r) :
    isGuardian env c.session.address c.guardian ∧ r.newOwnerKind ≠ .eoa := by
  simp only [checkApprove, requireGuardian, bind_eq_ok, revertIf_eq_ok, orRevert_eq_ok,
    pure_eq_ok] at h
  obtain ⟨-, hguardian, request, -, -, -, -, -, -, hkind, rfl⟩ := h
  exact ⟨by simpa using hguardian, fun heoa => of_decide_eq_false hkind (.inl heoa)⟩

/-- A hosted route that creates a job to initiate a recovery is an approval that passes. -/
theorem initiatesHosted_eq {job : Job} (h : InitiatesHosted env job before call) :
    ∃ n answer session request, call = .resume n answer ∧
      (runCalls env before).pending[n]? = some (.guarding session (.approve request.id)) ∧
      checkApprove env (runCalls env before).db request.id (guardianCall session answer) =
        .ok request ∧
      job = newJob answer.input.now answer.input.newId (initiateJob request) ∧
      BelongsTo (next env (runCalls env before) call).db job.id request.id ∧
      Approves env request.id (runCalls env before) call := by
  obtain ⟨⟨hnone, hfound⟩, hkind, hhosted⟩ := h
  rcases jobs_cases (change env (runCalls env before) call) with hsame | ⟨job', hinsert, horigin⟩
  · exact (no_new_job hsame hnone hfound).elim
  · cases inserted_job hinsert hnone hfound
    cases horigin hkind with
    | byClient => exact absurd rfl (hhosted _ _ _ _)
    | @byGuardian n answer session request hpending hcheck hjob haccepted hleft =>
      exact ⟨n, answer, session, request, rfl, hpending, hcheck, hjob, hleft, haccepted,
        .inl ⟨n, answer, session, rfl, hpending⟩⟩

theorem gate_of_initiates {job : Job} (h : InitiatesHosted env job before call) :
    ∃ id r, Gate env before call job id r := by
  obtain ⟨n, answer, session, request, rfl, hpending, hcheck, rfl, hbelongs, -⟩ :=
    initiatesHosted_eq h
  obtain ⟨hfound, hstatus⟩ := checkApprove_eq_ok hcheck
  obtain ⟨hguardian, hkind⟩ := checkApprove_passed hcheck
  have hvouched := vouched env before
  refine ⟨request.id, request, hfound, hstatus, ⟨rfl, rfl⟩, ⟨rfl, rfl⟩,
    hvouched.proven _ _ hfound hkind, ⟨n, answer, session, rfl, hpending,
      hvouched.guardians _ _ (List.mem_of_getElem? hpending), hguardian⟩,
    hvouched.emails _ _ hfound hstatus, fun id' => ?_, ?_⟩
  · apply Iff.intro
    · intro hother
      exact jobsApart_next env before _ _ _ _ hother hbelongs
    · rintro rfl
      exact hbelongs
  · intro honce
    refine ((lifeCycle env before).tracked _ _ hfound).waiting (.inr hstatus) (honce.mono ?_)
    rintro pre t ⟨job, hinitiates, hbelongs'⟩
    obtain ⟨-, -, -, other, -, -, -, -, hother, happroves⟩ := initiatesHosted_eq hinitiates
    rwa [jobsApart_next env pre t _ _ _ hother hbelongs'] at happroves

/-- In every run each job to initiate a recovery that a hosted route creates passes the gate, and no
two requests ever share a job. -/
theorem approval_gate (env : Env) (calls : List Call) :
    Each (fun before call => ∀ job, InitiatesHosted env job before call →
      ∃ id r, Gate env before call job id r) calls ∧
    ∀ before, before <+: calls → JobsApart (runCalls env before).db := by
  exact ⟨fun _ _ _ _ h => gate_of_initiates h, fun before _ => jobsApart env before⟩

-- The guardian logs in and approves.
def approvingRun : List Call := requestedRun ++
  [.guardianNonce "0xg" "n" (some "0xg") 1,
    .guardianLogin (toyBody [("address", "0xg"), ("signature", "0xg"), ("message", "guardian n"),
      ("nonce", "n")]) (some "0xg") "token" 1,
    .guardianRequest (some "token") (.approve "request") 1]

theorem approval_gate_passed : ∃ job id r, InitiatesHosted toyEnv job approvingRun
    (.resume 0 (toyAnswer "job")) ∧ Gate toyEnv approvingRun (.resume 0 (toyAnswer "job")) job id r := by
  have hruns : (runCalls toyEnv approvingRun).db.jobs.find? "job" = none ∧
      jobKind (next toyEnv (runCalls toyEnv approvingRun) (.resume 0 (toyAnswer "job"))).db
        "job" = some .initiate := by
    decide +kernel
  obtain ⟨hnone, hafter⟩ := hruns
  obtain ⟨job, hjob, hkind⟩ := Option.map_eq_some_iff.mp hafter
  have hid : job.id = "job" := Table.key_of_find? hjob
  have hinitiates : InitiatesHosted toyEnv job approvingRun (.resume 0 (toyAnswer "job")) := by
    refine ⟨⟨?_, ?_⟩, hkind, by simp⟩
    · rw [hid]
      exact hnone
    · rw [hid]
      exact hjob
  obtain ⟨id, r, hgate⟩ := (approval_gate toyEnv _).1 approvingRun (.resume 0 (toyAnswer "job"))
    List.prefix_rfl job hinitiates
  exact ⟨job, id, r, hinitiates, hgate⟩

end OnchainInvoice.Recovery
