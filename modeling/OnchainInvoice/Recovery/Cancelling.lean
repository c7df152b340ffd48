import Mathlib.Tactic.IntervalCases
import OnchainInvoice.Persist.WalletViews
import OnchainInvoice.Recovery.Keys
import OnchainInvoice.Recovery.Waiting

/-!
# Who cancels a recovery

A user's cancellation has an effect only after an assertion by a key of the wallet, as long as the
key that the body names is one and stays one while the handler waits for the chain.  Neither route
compares the two.
-/

namespace OnchainInvoice.Recovery

open Lib.Histories Lib.Revert Lib.Tables Server WalletLog

variable {env : Env} {s : RecoveryServer} {call : Call} {db db' : RecoveryDb}

/-! ## The property -/

/-- The call carries an assertion by a registered key of the wallet, over a challenge that the
server issued to cancel or, for a client, over the one that the chain has for the pending owner. -/
inductive Authorised (env : Env) (s : RecoveryServer) (call : Call) (walletAddress : String) : Prop
  | hosted {requestId : String} {input : Input} {challengeId challenge qx qy : String} {t}
      {a : Assertion} (hcall : call = .cancelRecoveryRequest requestId input)
      (hconsumed : consumeHostedRecoveryChallenge s.db input.now challengeId .cancel =
        some (challenge, t))
      (hassertion : input.assertion = some a)
      (hverifies : Verifies env a (hosted env challenge qx qy))
      (hregistered : Registered s.db.wallets walletAddress qx qy)
  | client {c : ClientCancel} {digest : Option String} {t} {challenge qx qy : String}
      (hready : CancelReady env s call c digest t)
      (hchallenge : challenge = c.challenge ∨ digest = some challenge)
      (hverifies : Verifies env c.assertion ⟨challenge, c.client.rpId, c.client.origins, qx, qy⟩)
      (hregistered : Registered s.db.wallets walletAddress qx qy)

/-- The wallet whose recovery the call is to cancel. -/
def Cancels (env : Env) (s : RecoveryServer) (call : Call) (walletAddress : String) : Prop :=
  (∃ requestId input request, call = .cancelRecoveryRequest requestId input ∧
    getWalletRecoveryRequest s.db requestId = some request ∧
    request.walletAddress = walletAddress) ∨
  ∃ c digest t, CancelReady env s call c digest t ∧ lowerCase c.wallet = walletAddress

/-- What a step may do about cancellations: a request is cancelled by a user, and a job to cancel is
created, for an authorised call only; any other call to cancel leaves the requests and the jobs. -/
structure OnlyByOwnKey (env : Env) (s : RecoveryServer) (call : Call) (s' : RecoveryServer) :
    Prop where
  request : ∀ id r r', s.db.requests.find? id = some r → s'.db.requests.find? id = some r' →
    r.status ≠ .cancelled → r'.status = .cancelled →
    (∃ walletAddress, Cancels env s call walletAddress) → Authorised env s call r.walletAddress
  job : ∀ j job, s.db.jobs.find? j = none → s'.db.jobs.find? j = some job → job.kind = .cancel →
    Authorised env s call job.walletAddress
  otherwise : ∀ walletAddress, Cancels env s call walletAddress →
    ¬ Authorised env s call walletAddress →
    s'.db.requests = s.db.requests ∧ s'.db.jobs = s.db.jobs

/-! ## The condition -/

-- The key on record for a cancellation that leaves a coordinate out: that of the device with the
-- credential of the body, else that of the account.
def recordedKey (db : RecoveryDb) (walletAddress : String) (account : Option WalletAccount)
    (body : Body) : Option Coords :=
  let device := (str (body "credentialId")).bind fun credentialId =>
    getWalletDeviceByCredentialId db credentialId walletAddress
  (device.map fun device => (device.ownerQx, device.ownerQy)).or
    (account.map fun account => (account.ownerQx, account.ownerQy))

/-- The body names the key, or one coordinate of it where the other is the recorded one. -/
inductive Named (body : Body) (recorded : Option Coords) : String → String → Prop
  | both {qx qy : String} (hqx : normalizeHex32 (str (body "ownerQx")) = some qx)
      (hqy : normalizeHex32 (str (body "ownerQy")) = some qy) :
    Named body recorded qx qy
  | first {qx : String} {own : Coords} (hqx : normalizeHex32 (str (body "ownerQx")) = some qx)
      (hqy : normalizeHex32 (str (body "ownerQy")) = none) (hown : recorded = some own) :
    Named body recorded qx own.2
  | second {qy : String} {own : Coords} (hqx : normalizeHex32 (str (body "ownerQx")) = none)
      (hqy : normalizeHex32 (str (body "ownerQy")) = some qy) (hown : recorded = some own) :
    Named body recorded own.1 qy

/-- The body carries an assertion of the key over a challenge to cancel that is still good. -/
def SignsCancel (env : Env) (db : RecoveryDb) (input : Input) (qx qy : String) : Prop :=
  ∃ challengeId challenge db' a, str (input.body "challengeId") = some challengeId ∧
    consumeHostedRecoveryChallenge db input.now challengeId .cancel = some (challenge, db') ∧
    input.assertion = some a ∧ Verifies env a (hosted env challenge qx qy)

/-- The same for a client.  With a node the challenge may be the one for the pending owner. -/
def SignsClientCancel (env : Env) (db : RecoveryDb) (client : Client) (input : Input)
    (qx qy : String) : Prop :=
  ∃ challengeId challenge db' a expected, str (input.body "challengeId") = some challengeId ∧
    consumeWalletChallenge db input.now challengeId client.id .cancel = some (challenge, db') ∧
    input.assertion = some a ∧ (expected = challenge ∨ env.rpcUrl = true) ∧
    Verifies env a ⟨expected, client.rpId, client.origins, qx, qy⟩

-- The assertion of the cancellation is one of its key, over some challenge.
def ClientCancel.Signed (env : Env) (c : ClientCancel) : Prop :=
  ∃ expected, Verifies env c.assertion (c.options expected)

/-- The key that a cancellation names and signs with is registered, and what takes keys off the
records leaves those by which a cancellation waits for the chain. -/
def NamesOwnKey (env : Env) (s : RecoveryServer) : Call → Prop
  | .cancelRecoveryRequest requestId input => ∀ request qx qy,
    getWalletRecoveryRequest s.db requestId = some request → request.status.final = false →
    Named input.body (recordedKey s.db request.walletAddress
      (getWalletAccount s.db request.walletAddress) input.body) qx qy → qx ≠ "" → qy ≠ "" →
    SignsCancel env s.db input qx qy → Registered s.db.wallets request.walletAddress qx qy
  | .cancelRecovery client wallet input => clientOwnsWallet s.db client.id wallet = true →
    ∀ own qx qy, recordedKey s.db wallet none input.body = some own →
    Named input.body (some own) qx qy → SignsClientCancel env s.db client input qx qy →
    Registered s.db.wallets wallet qx qy
  | .deleteDevice wallet ownerQx ownerQy chainId now => ∀ c, .cancelling c ∈ s.pending →
    c.Signed env → Registered s.db.wallets c.wallet c.ownerQx c.ownerQy →
    Registered (deleteDevice s.db wallet ownerQx ownerQy chainId now).2.wallets c.wallet c.ownerQx
      c.ownerQy
  | .elsewhere write => ∀ c, .cancelling c ∈ s.pending → c.Signed env →
    Registered s.db.wallets c.wallet c.ownerQx c.ownerQy →
    Registered (WalletLog.step s.db.wallets write).1 c.wallet c.ownerQx c.ownerQy
  | _ => True

/-! ## Keys -/

theorem registered_lowerCase {wallets : WalletDb} {walletAddress qx qy : String} :
    Registered wallets (lowerCase walletAddress) qx qy ↔ Registered wallets walletAddress qx qy := by
  simp only [Registered, lowerCase_lowerCase]

theorem registered_of_device {device : WalletDevice} {walletAddress : String}
    (hmem : device ∈ db.wallets.devices.rows)
    (hwallet : device.walletAddress = lowerCase walletAddress) :
    Registered db.wallets walletAddress device.ownerQx device.ownerQy :=
  .inr (.inl ⟨device, hmem, hwallet, rfl, rfl⟩)

theorem getDeviceByCredentialId_eq {credentialId walletAddress : String} {device : WalletDevice}
    (h : getWalletDeviceByCredentialId db credentialId walletAddress = some device) :
    device ∈ db.wallets.devices.rows ∧ device.walletAddress = lowerCase walletAddress := by
  unfold getWalletDeviceByCredentialId at h
  dsimp only at h
  split at h
  · cases h
  · refine ⟨List.mem_of_find?_eq_some h, ?_⟩
    have hfound := List.find?_some h
    rw [decide_eq_true_eq] at hfound
    exact hfound.2

theorem registered_of_account {account : WalletAccount} {walletAddress : String}
    (h : getWalletAccount db walletAddress = some account) :
    Registered db.wallets walletAddress account.ownerQx account.ownerQy :=
  .inl ⟨account, h, rfl, rfl⟩

theorem recordedKey_registered {walletAddress : String} {account : Option WalletAccount}
    {body : Body} {own : Coords}
    (haccount : account = none ∨ account = getWalletAccount db walletAddress)
    (h : recordedKey db walletAddress account body = some own) :
    Registered db.wallets walletAddress own.1 own.2 := by
  unfold recordedKey at h
  rcases Option.or_eq_some_iff.mp h with hdevice | ⟨-, hown⟩
  · obtain ⟨device, hfound, rfl⟩ := Option.map_eq_some_iff.mp hdevice
    obtain ⟨credentialId, -, hfound⟩ := Option.bind_eq_some_iff.mp hfound
    obtain ⟨hmem, hwallet⟩ := getDeviceByCredentialId_eq hfound
    exact registered_of_device hmem hwallet
  · obtain ⟨a, ha, rfl⟩ := Option.map_eq_some_iff.mp hown
    rcases haccount with rfl | rfl
    · cases ha
    · exact registered_of_account ha

/-- A key whose coordinates are the body's, or else the recorded ones, is named or recorded. -/
theorem named_or_recorded {body : Body} {recorded : Option Coords} {qx qy : String}
    (hx : (normalizeHex32 (str (body "ownerQx"))).or (recorded.map Prod.fst) = some qx)
    (hy : (normalizeHex32 (str (body "ownerQy"))).or (recorded.map Prod.snd) = some qy) :
    Named body recorded qx qy ∨ recorded = some (qx, qy) := by
  rcases Option.or_eq_some_iff.mp hx with hqx | ⟨hqx, hownx⟩
  · rcases Option.or_eq_some_iff.mp hy with hqy | ⟨hqy, howny⟩
    · exact .inl (.both hqx hqy)
    · obtain ⟨own, hown, rfl⟩ := Option.map_eq_some_iff.mp howny
      exact .inl (.first hqx hqy hown)
  · obtain ⟨own, hown, rfl⟩ := Option.map_eq_some_iff.mp hownx
    rw [hown, Option.map_some] at hy
    rcases Option.or_eq_some_iff.mp hy with hqy | ⟨hqy, howny⟩
    · exact .inl (.second hqx hqy hown)
    · cases howny
      exact .inr hown

/-- The key of a cancellation is named by its body, or it is the recorded one. -/
theorem cancelKey_cases {request : Request} {body : Body} {credentialId : String}
    {key : Coords} (hcredential : str (body "credentialId") = some credentialId)
    (h : cancelKey env db request body credentialId = some key) :
    (Named body (recordedKey db request.walletAddress
        (getWalletAccount db request.walletAddress) body) key.1 key.2 ∨
      recordedKey db request.walletAddress (getWalletAccount db request.walletAddress) body =
        some key) ∧ key.1 ≠ "" ∧ key.2 ≠ "" := by
  unfold recordedKey
  rw [hcredential, Option.bind_some]
  unfold cancelKey at h
  dsimp only at h ⊢
  generalize getWalletDeviceByCredentialId db credentialId request.walletAddress = device at h ⊢
  generalize getWalletAccount db request.walletAddress = account at h ⊢
  obtain ⟨qx, hfx, h⟩ := Option.bind_eq_some_iff.mp h
  obtain ⟨qy, hfy, h⟩ := Option.bind_eq_some_iff.mp h
  cases h
  obtain ⟨hqx, hx⟩ := Option.filter_eq_some_iff.mp hfx
  obtain ⟨hqy, hy⟩ := Option.filter_eq_some_iff.mp hfy
  rw [decide_eq_true_eq] at hx hy
  refine ⟨?_, hx, hy⟩
  rw [Option.or_assoc] at hqx hqy
  cases hlisted : (listWalletDevices db request.walletAddress env.chainId).find? fun device =>
      normalizeHex32 (str (body "ownerQx")) = some device.ownerQx ∧
        normalizeHex32 (str (body "ownerQy")) = some device.ownerQy with
  | none =>
    rw [hlisted, Option.or_none] at hqx hqy
    apply named_or_recorded
    · rw [← hqx]
      cases device <;> cases account <;> rfl
    · rw [← hqy]
      cases device <;> cases account <;> rfl
  | some found =>
    have hnamed := List.find?_some hlisted
    rw [decide_eq_true_eq] at hnamed
    rw [hnamed.1, Option.some_or, Option.some.injEq] at hqx
    rw [hnamed.2, Option.some_or, Option.some.injEq] at hqy
    rw [← hqx, ← hqy]
    exact .inl (.both hnamed.1 hnamed.2)

/-! ## What a cancellation changes -/

theorem not_cancels {walletAddress : String} (hhosted : ∀ id input, call ≠ .cancelRecoveryRequest id input)
    (hclient : ∀ client wallet input, call ≠ .cancelRecovery client wallet input)
    (hresume : ∀ n answer c, call = .resume n answer → s.pending[n]? ≠ some (.cancelling c)) :
    ¬ Cancels env s call walletAddress := by
  rintro (⟨id, input, request, hcall, -⟩ | ⟨c, digest, t, hready, -⟩)
  · exact hhosted id input hcall
  · rcases hready with ⟨n, answer, hcall, hpending, -⟩ | ⟨client, wallet, input, hcall, -⟩
    · exact hresume n answer c hcall hpending
    · exact hclient client wallet input hcall

/-- The change adds no job to cancel, and is none of a call to cancel that has an effect. -/
def Spares (env : Env) (s : RecoveryServer) (call : Call) (db' : RecoveryDb) : Prop :=
  (∀ j job, s.db.jobs.find? j = none → db'.jobs.find? j = some job → job.kind ≠ .cancel) ∧
    ∀ walletAddress, Cancels env s call walletAddress →
      db'.requests = s.db.requests ∧ db'.jobs = s.db.jobs

theorem spares_of_eq (hrequests : db'.requests = s.db.requests) (hjobs : db'.jobs = s.db.jobs) :
    Spares env s call db' := by
  refine ⟨fun j job hnone hfound => ?_, fun _ _ => ⟨hrequests, hjobs⟩⟩
  rw [hjobs, hnone] at hfound
  cases hfound

theorem spares_of_not (hjobs : ∀ j job, s.db.jobs.find? j = none → db'.jobs.find? j = some job →
      job.kind ≠ .cancel)
    (hnot : ∀ walletAddress, ¬ Cancels env s call walletAddress) : Spares env s call db' :=
  ⟨hjobs, fun walletAddress hcancels => absurd hcancels (hnot walletAddress)⟩

theorem spares_of_jobs_eq (hjobs : db'.jobs = s.db.jobs)
    (hnot : ∀ walletAddress, ¬ Cancels env s call walletAddress) : Spares env s call db' := by
  refine spares_of_not (fun j job hnone hfound => ?_) hnot
  rw [hjobs, hnone] at hfound
  cases hfound

theorem spares_of_insert {job : Job} (hkind : job.kind ≠ .cancel)
    (hinsert : s.db.jobs.insert job = some db'.jobs)
    (hnot : ∀ walletAddress, ¬ Cancels env s call walletAddress) : Spares env s call db' := by
  refine spares_of_not (fun j job' hnone hfound => ?_) hnot
  rw [inserted_job hinsert hnone hfound]
  exact hkind

/-- A step cancels, or it spares the requests. -/
theorem cancel_cases (h : Change env s call db') :
    (∃ requestId input c challenge t a, call = .cancelRecoveryRequest requestId input ∧
      CancelProven env s.db requestId input c challenge t a ∧
      (∀ id r, s.db.requests.find? id = some r → id ≠ c.request.id →
        db'.requests.find? id = some r) ∧
      ∀ j job, s.db.jobs.find? j = none → db'.jobs.find? j = some job →
        job.walletAddress = lowerCase c.request.walletAddress) ∨
    (∃ c digest t, CancelReady env s call c digest t ∧ checkCancelAssertion env c digest = .ok () ∧
      db'.requests = s.db.requests ∧
      ∀ j job, s.db.jobs.find? j = none → db'.jobs.find? j = some job →
        job.walletAddress = lowerCase c.wallet) ∨
    Spares env s call db' := by
  cases h with
  | idle => exact .inr (.inr (spares_of_eq rfl rfl))
  | challenged => exact .inr (.inr (spares_of_eq rfl rfl))
  | clientChallenged => exact .inr (.inr (spares_of_eq rfl rfl))
  | guarded => exact .inr (.inr (spares_of_eq rfl rfl))
  | codeTried =>
    obtain ⟨t, heq⟩ := consumeOtp_eq
    exact .inr (.inr (spares_of_eq (by rw [heq]) (by rw [heq])))
  | codeSent hsent =>
    obtain ⟨t, rfl⟩ := createOtp_eq hsent
    exact .inr (.inr (spares_of_eq rfl rfl))
  | attached _ _ _ _ hleft =>
    rcases hleft with rfl | hsent
    · exact .inr (.inr (spares_of_eq rfl rfl))
    · obtain ⟨t, rfl⟩ := createOtp_eq hsent
      exact .inr (.inr (spares_of_eq rfl rfl))
  | emailVerified =>
    obtain ⟨t, heq⟩ := consumeOtp_eq
    exact .inr (.inr (spares_of_eq (by rw [heq]) (by rw [heq])))
  | created hround _ _ hleft =>
    refine .inr (.inr (spares_of_jobs_eq ?_ fun w => not_cancels (by simp) (by simp) ?_))
    · rcases hleft with rfl | hsent
      · rfl
      · obtain ⟨t, rfl⟩ := createOtp_eq hsent
        rfl
    · intro n answer c hcall hpending
      cases hcall
      cases hround with
      | passkey hcreating => simp [hpending] at hcreating
      | looked hlooking => simp [hpending] at hlooking
  | requestVerified =>
    refine .inr (.inr (spares_of_jobs_eq ?_ fun w => not_cancels (by simp) (by simp) (by simp)))
    obtain ⟨t, heq⟩ := consumeOtp_eq
    rw [heq]
    rfl
  | @withdrawn requestId input c challenge t a hproven =>
    refine .inl ⟨requestId, input, c, challenge, t, a, rfl, hproven, fun id r hr hne => ?_, ?_⟩
    · exact (find?_update hr).trans (congrArg some (if_neg hne))
    · intro j job hnone hfound
      rw [show s.db.jobs.find? j = some job from hfound] at hnone
      cases hnone
  | @stopped requestId input c challenge t a jobs hproven _ hjob =>
    refine .inl ⟨requestId, input, c, challenge, t, a, rfl, hproven, fun id r hr hne => ?_, ?_⟩
    · exact (find?_update hr).trans (congrArg some (if_neg hne))
    · intro j job hnone hfound
      rw [inserted_job hjob hnone hfound]
      rfl
  | approved hpending _ hjob =>
    refine .inr (.inr (spares_of_insert (by simp [newJob, initiateJob]) hjob fun w =>
      not_cancels (by simp) (by simp) ?_))
    intro n answer c hcall hcancelling
    cases hcall
    simp [hpending] at hcancelling
  | rejected hpending =>
    refine .inr (.inr (spares_of_jobs_eq rfl fun w => not_cancels (by simp) (by simp) ?_))
    intro n answer c hcall hcancelling
    cases hcall
    simp [hpending] at hcancelling
  | devicePosted => exact .inr (.inr (spares_of_eq rfl rfl))
  | deviceDeleted => exact .inr (.inr (spares_of_eq rfl rfl))
  | recovered => exact .inr (.inr (spares_of_eq rfl rfl))
  | clientCreated _ hproven =>
    obtain ⟨t, ht⟩ := provenKey_db env s.db _ _ .create _
    rw [hproven] at ht
    cases ht
    exact .inr (.inr (spares_of_eq upsertWalletIdentity_requests.1 upsertWalletIdentity_requests.2))
  | clientInitiated _ _ hleft =>
    rcases hleft with rfl | hjob
    · exact .inr (.inr (spares_of_eq rfl rfl))
    · exact .inr (.inr (spares_of_insert (by simp [newJob, clientInitiateJob]) hjob fun w =>
        not_cancels (by simp) (by simp) (by simp)))
  | clientCancelled hready hcheck hjob =>
    refine .inr (.inl ⟨_, _, _, hready, hcheck, rfl, fun j job hnone hfound => ?_⟩)
    rw [inserted_job hjob hnone hfound]
    rfl
  | signed =>
    exact .inr (.inr (spares_of_jobs_eq rfl fun w => not_cancels (by simp) (by simp) (by simp)))
  | initiated _ _ hjob =>
    exact .inr (.inr (spares_of_insert (by simp [newJob, executeJob]) hjob fun w =>
      not_cancels (by simp) (by simp) (by simp)))
  | claimed hclaim =>
    refine .inr (.inr (spares_of_not (fun j job hnone hfound => ?_) fun w =>
      not_cancels (by simp) (by simp) (by simp)))
    exact (no_new_job (jobKind_claim hclaim).2.2.2 hnone hfound).elim
  | tracked htrack =>
    refine .inr (.inr (spares_of_not (fun j job hnone hfound => ?_) fun w =>
      not_cancels (by simp) (by simp) (by simp)))
    exact (no_new_job (jobKind_track htrack).2.2.2 hnone hfound).elim
  | synced htrack =>
    refine .inr (.inr (spares_of_not (fun j job hnone hfound => ?_) fun w =>
      not_cancels (by simp) (by simp) (by simp)))
    rw [sync_jobs] at hfound
    exact (no_new_job (jobKind_track htrack).2.2.2 hnone hfound).elim
  | elsewhere => exact .inr (.inr (spares_of_eq rfl rfl))

/-! ## Every run -/

theorem authorised_of_proven {requestId : String} {input : Input} {c : CancelChecked}
    {challenge : String} {t} {a : Assertion}
    (hproven : CancelProven env s.db requestId input c challenge t a)
    (hnames : NamesOwnKey env s (.cancelRecoveryRequest requestId input)) :
    Authorised env s (.cancelRecoveryRequest requestId input) c.request.walletAddress := by
  refine .hosted rfl hproven.consumed hproven.assertion hproven.verifies ?_
  obtain ⟨hfound, hfinal, hchallenge, credentialId, hcredential, hcancel⟩ :=
    checkCancel_eq_ok env hproven.checked
  obtain ⟨hnamed | hrecorded, hx, hy⟩ := cancelKey_cases hcredential hcancel
  · exact hnames c.request _ _ hfound hfinal hnamed hx hy
      ⟨c.challengeId, challenge, _, a, hchallenge, hproven.consumed, hproven.assertion,
        hproven.verifies⟩
  · exact recordedKey_registered (.inr rfl) hrecorded

/-- A client's cancellation that signs starts with a registered key. -/
theorem registered_of_start {client : Client} {wallet : String} {input : Input} {c : ClientCancel}
    {expected : String} (hnames : NamesOwnKey env s (.cancelRecovery client wallet input))
    (h : startClientCancel env s.db client wallet input = (.ok c, db'))
    (hexpected : expected = c.challenge ∨ env.rpcUrl = true)
    (hverifies : Verifies env c.assertion (c.options expected)) :
    Registered s.db.wallets c.wallet c.ownerQx c.ownerQy := by
  unfold startClientCancel at h
  split at h
  · cases h
  next checked hchecked =>
    simp only [checkClientCancel, bind_eq_ok, revertIf_eq_ok, orRevert_eq_ok, pure_eq_ok] at hchecked
    obtain ⟨-, howns, challengeId, hchallengeId, credentialId, hcredential, device, hdevice, rfl⟩ :=
      hchecked
    split at h
    · cases h
    next challenge db'' hconsumed =>
      split at h
      · cases h
      next a hassertion =>
        cases h
        dsimp only at hexpected hverifies ⊢
        cases hfound : getWalletDeviceByCredentialId s.db credentialId wallet with
        | none =>
          -- Without the credential it is a device of the wallet that the body names.
          rw [hfound, Option.none_or] at hdevice
          have hkey := List.find?_some hdevice
          rw [decide_eq_true_eq] at hkey
          obtain ⟨hmem, hof⟩ := List.mem_filter.mp (List.mem_of_find?_eq_some hdevice)
          rw [decide_eq_true_eq] at hof
          rw [hkey.1, hkey.2]
          exact registered_of_device hmem hof.1
        | some found =>
          rw [hfound, Option.some_or, Option.some.injEq] at hdevice
          subst hdevice
          have hrecorded : recordedKey s.db wallet none input.body =
              some (found.ownerQx, found.ownerQy) := by
            unfold recordedKey
            rw [hcredential, Option.bind_some, hfound]
            rfl
          have hkey : Named input.body (some (found.ownerQx, found.ownerQy))
              ((normalizeHex32 (str (input.body "ownerQx"))).getD found.ownerQx)
              ((normalizeHex32 (str (input.body "ownerQy"))).getD found.ownerQy) ∨
              some (found.ownerQx, found.ownerQy) = some (_, _) :=
            named_or_recorded (by simp) (by simp)
          rcases hkey with hnamed | hsame
          · exact hnames (by simpa using howns) _ _ _ hrecorded hnamed ⟨challengeId, challenge, db', a, expected,
              hchallengeId, hconsumed, hassertion, hexpected, hverifies⟩
          · rw [← hrecorded] at hsame
            exact recordedKey_registered (.inl rfl) hsame

/-- The key by which a cancellation waits for the chain is registered. -/
def WaitingRegistered (env : Env) (s : RecoveryServer) : Prop :=
  ∀ c, .cancelling c ∈ s.pending → c.Signed env →
    Registered s.db.wallets c.wallet c.ownerQx c.ownerQy

theorem waitingRegistered_next (h : WaitingRegistered env s) (hnames : NamesOwnKey env s call) :
    WaitingRegistered env (next env s call) := by
  intro c hc hsigned
  rcases pending_next hc with hold | hnew
  · by_cases htakes : TakesKeys call
    · cases call with
      | deleteDevice | elsewhere => exact hnames c hold hsigned (h c hold hsigned)
      | _ => exact absurd htakes id
    · exact (keysStay_next htakes).registered (h c hold hsigned)
  · cases hnew with
    | cancelling hrpc hstart =>
      obtain ⟨expected, hverifies⟩ := hsigned
      exact (keysStay_next id).registered
        (registered_of_start hnames hstart (.inr hrpc) hverifies)

theorem verifies_of_check {c : ClientCancel} {digest : Option String}
    (h : checkCancelAssertion env c digest = .ok ()) :
    ∃ challenge, (challenge = c.challenge ∨ digest = some challenge) ∧
      Verifies env c.assertion ⟨challenge, c.client.rpId, c.client.origins, c.ownerQx, c.ownerQy⟩ := by
  unfold checkCancelAssertion at h
  split at h
  · next hverifies =>
    refine ⟨digest.getD c.challenge, ?_, hverifies⟩
    cases digest with
    | none => exact .inl rfl
    | some d => exact .inr rfl
  · split at h
    · exact ⟨c.challenge, .inl rfl, h⟩
    · cases h

theorem authorised_of_ready {c : ClientCancel} {digest : Option String} {t}
    (hwaiting : WaitingRegistered env s) (hnames : NamesOwnKey env s call)
    (hready : CancelReady env s call c digest t)
    (hcheck : checkCancelAssertion env c digest = .ok ()) :
    Authorised env s call (lowerCase c.wallet) := by
  obtain ⟨challenge, hchallenge, hverifies⟩ := verifies_of_check hcheck
  refine .client hready hchallenge hverifies (registered_lowerCase.mpr ?_)
  rcases hready with ⟨n, answer, rfl, hpending, rfl, -⟩ |
    ⟨client, wallet, input, rfl, -, hstart, rfl⟩
  · exact hwaiting c (List.mem_of_getElem? hpending) ⟨challenge, hverifies⟩
  · rcases hchallenge with rfl | hnone
    · exact registered_of_start hnames hstart (.inl rfl) hverifies
    · cases hnone

theorem authorised_lowerCase {walletAddress : String}
    (h : Authorised env s call walletAddress) : Authorised env s call (lowerCase walletAddress) := by
  cases h with
  | hosted hcall hconsumed hassertion hverifies hregistered =>
    exact .hosted hcall hconsumed hassertion hverifies (registered_lowerCase.mpr hregistered)
  | client hready hchallenge hverifies hregistered =>
    exact .client hready hchallenge hverifies (registered_lowerCase.mpr hregistered)

theorem ready_unique {c c' : ClientCancel} {digest digest' : Option String} {t t'}
    (h : CancelReady env s call c digest t) (h' : CancelReady env s call c' digest' t') : c = c' := by
  rcases h with ⟨n, answer, rfl, hpending, -⟩ | ⟨client, wallet, input, rfl, -, hstart, -⟩
  · rcases h' with ⟨n', answer', hcall, hpending', -⟩ | ⟨client, wallet, input, hcall, -⟩
    · cases hcall
      rw [hpending] at hpending'
      cases hpending'
      rfl
    · cases hcall
  · rcases h' with ⟨n', answer', hcall, -⟩ | ⟨client', wallet', input', hcall, -, hstart', -⟩
    · cases hcall
    · cases hcall
      rw [hstart] at hstart'
      cases hstart'
      rfl

theorem onlyByOwnKey_step (call : Call) (hwaiting : WaitingRegistered env s)
    (hnames : NamesOwnKey env s call) : OnlyByOwnKey env s call (next env s call) := by
  rcases cancel_cases (change env s call) with
    ⟨requestId, input, c, challenge, t, a, rfl, hproven, hothers, hjobs⟩ |
    ⟨c, digest, t, hready, hcheck, hrequests, hjobs⟩ | ⟨hjobs, hkept⟩
  · have hauthorised := authorised_of_proven hproven hnames
    have hfound := (checkCancel_eq_ok env hproven.checked).1
    refine ⟨fun id r r' hr hr' hbefore hafter _ => ?_, fun j job hnone hj _ => ?_,
      fun w hw hno => ?_⟩
    · by_cases hid : id = c.request.id
      · subst hid
        have hc : s.db.requests.find? c.request.id = some c.request := by
          rw [Table.key_of_find? hfound]
          exact hfound
        cases hr.symm.trans hc
        exact hauthorised
      · rw [hothers id r hr hid] at hr'
        cases hr'
        exact absurd hafter hbefore
    · rw [hjobs j job hnone hj]
      exact authorised_lowerCase hauthorised
    · rcases hw with ⟨requestId', input', request, hcall, hrequest, rfl⟩ | ⟨c', digest, t', hready, -⟩
      · cases hcall
        cases hfound.symm.trans hrequest
        exact absurd hauthorised hno
      · rcases hready with ⟨n, answer, hcall, -⟩ | ⟨client, wallet, input, hcall, -⟩ <;> cases hcall
  · have hauthorised := authorised_of_ready hwaiting hnames hready hcheck
    refine ⟨fun id r r' hr hr' hbefore hafter _ => ?_, fun j job hnone hj _ => ?_,
      fun w hw hno => ?_⟩
    · rw [hrequests] at hr'
      cases hr.symm.trans hr'
      exact absurd hafter hbefore
    · rw [hjobs j job hnone hj]
      exact hauthorised
    · rcases hw with ⟨requestId, input, request, rfl, -⟩ | ⟨c', digest', t', hready', rfl⟩
      · rcases hready with ⟨n, answer, hcall, -⟩ | ⟨client, wallet, input, hcall, -⟩ <;> cases hcall
      · cases ready_unique hready hready'
        exact absurd hauthorised hno
  · refine ⟨fun id r r' hr hr' hbefore hafter hcancels => ?_, fun j job hnone hj hkind => ?_,
      fun w hw _ => hkept w hw⟩
    · obtain ⟨w, hw⟩ := hcancels
      rw [(hkept w hw).1] at hr'
      cases hr.symm.trans hr'
      exact absurd hafter hbefore
    · exact absurd hkind (hjobs j job hnone hj)

/-- In a run whose cancellations are signed with no key but one of the wallet's, and in which none of
these is taken off the records meanwhile, only the wallet's keys cancel. -/
theorem cancelled_by_own_key (env : Env) (calls : List Call)
    (h : Each (fun before call => NamesOwnKey env (runCalls env before) call) calls) :
    Each (fun before call => OnlyByOwnKey env (runCalls env before) call
      (next env (runCalls env before) call)) calls := by
  refine h.of_invariant (I := fun before => WaitingRegistered env (runCalls env before)) ?_ ?_ ?_
  · exact fun _ hc => absurd hc List.not_mem_nil
  · intro before call hwaiting hnames
    unfold runCalls
    rw [run_concat]
    exact waitingRegistered_next hwaiting hnames
  · exact fun before call => onlyByOwnKey_step call

/-! ## A key from the body -/

def cancelChallenge : Call := .recoveryChallenge (toyInput [("purpose", "cancel")] "stop" "s" none)

-- The owner cancels with the account's credential.
def ownCancel : Call := .cancelRecoveryRequest "request"
  (toyInput [("challengeId", "stop"), ("credentialId", "cred")] "job" ""
    (some ⟨some "webauthn.get", some "s", some "https://shop", hex32 '1'⟩))

-- Anybody cancels with a key of their own.
def foreignCancel : Call := .cancelRecoveryRequest "request"
  (toyInput [("challengeId", "stop"), ("credentialId", "none"), ("ownerQx", hex32 '5'),
    ("ownerQy", hex32 '6')] "job" ""
    (some ⟨some "webauthn.get", some "s", some "https://shop", hex32 '5'⟩))

theorem cancelled_by_own_key_owner :
    Each (fun before call => OnlyByOwnKey toyEnv (runCalls toyEnv before) call
      (next toyEnv (runCalls toyEnv before) call)) (requestedRun ++ [cancelChallenge, ownCancel]) := by
  refine cancelled_by_own_key toyEnv _ (each_of_take fun n hn => ?_)
  have hlength : n < 8 := hn
  interval_cases n
  · exact fun c hc => absurd hc List.not_mem_nil
  · exact trivial
  · exact trivial
  · exact trivial
  · exact trivial
  · exact trivial
  · exact trivial
  · intro request qx qy _ _ hnamed
    cases hnamed with
    | both hqx | first hqx => cases hqx
    | second _ hqy => cases hqy

theorem signed_of_verifies {a : Assertion} {options : VerifyOptions}
    (h : Verifies env a options) : env.signed options.ownerQx options.ownerQy a = some true := by
  simp only [Verifies, verifyWebAuthnAssertion, bind_eq_ok, revertIf_eq_ok, orRevert_eq_ok] at h
  obtain ⟨-, -, -, -, -, -, -, -, -, -, ok, hsigned, hok⟩ := h
  rw [hsigned]
  simpa using hok

theorem foreign_key_cancels :
    ¬ Each (fun before call => OnlyByOwnKey toyEnv (runCalls toyEnv before) call
      (next toyEnv (runCalls toyEnv before) call))
      (requestedRun ++ [cancelChallenge] ++ [foreignCancel]) := by
  intro h
  have honly := (each_concat.mp h).2
  have hruns : ((runCalls toyEnv (requestedRun ++ [cancelChallenge])).db.requests.find?
        "request").map (fun r => (r.status, r.walletAddress)) = some (.awaitingGuardian, "0xw") ∧
      ((next toyEnv (runCalls toyEnv (requestedRun ++ [cancelChallenge]))
        foreignCancel).db.requests.find? "request").map Request.status = some .cancelled ∧
      (runCalls toyEnv (requestedRun ++ [cancelChallenge])).db.wallets.accounts.rows.map
        WalletAccount.ownerQx = [hex32 '1'] ∧
      (runCalls toyEnv (requestedRun ++ [cancelChallenge])).db.wallets.devices.rows = [] ∧
      (runCalls toyEnv (requestedRun ++ [cancelChallenge])).db.wallets.methods.rows = [] := by
    decide +kernel
  obtain ⟨hbefore, hafter, haccounts, hdevices, hmethods⟩ := hruns
  obtain ⟨r, hr, hrow⟩ := Option.map_eq_some_iff.mp hbefore
  obtain ⟨r', hr', hstatus⟩ := Option.map_eq_some_iff.mp hafter
  obtain ⟨hawaiting, hwallet⟩ := Prod.mk.inj hrow
  have hauthorised : Authorised toyEnv (runCalls toyEnv (requestedRun ++ [cancelChallenge]))
      foreignCancel r.walletAddress :=
    honly.request "request" r r' hr hr' (by simp [hawaiting]) hstatus
      ⟨r.walletAddress, .inl ⟨"request", _, r, rfl, hr, rfl⟩⟩
  cases hauthorised with
  | client hready =>
    rcases hready with ⟨n, answer, hcall, -⟩ | ⟨client, wallet, input, hcall, -⟩ <;> cases hcall
  | hosted hcall _ hassertion hverifies hregistered =>
    cases hcall
    cases hassertion
    -- A key that the assertion verifies under has the coordinate that it signed with.
    have hqx := of_decide_eq_true (Option.some.inj (signed_of_verifies hverifies))
    rcases hregistered with ⟨account, haccount, howner, -⟩ | ⟨device, hdevice, -⟩ | hmethod
    · have hmem : account.ownerQx ∈ (runCalls toyEnv
          (requestedRun ++ [cancelChallenge])).db.wallets.accounts.rows.map WalletAccount.ownerQx :=
        List.mem_map_of_mem (Table.mem_of_find? haccount)
      rw [haccounts, howner, List.mem_singleton] at hmem
      exact absurd (hqx.trans hmem) (by decide +kernel)
    · rw [hdevices] at hdevice
      cases hdevice
    · obtain ⟨account, -, method, hmem, -⟩ := hmethod
      rw [hmethods] at hmem
      cases hmem

end OnchainInvoice.Recovery
