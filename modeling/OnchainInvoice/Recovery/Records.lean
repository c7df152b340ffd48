import OnchainInvoice.Recovery.Approval
import OnchainInvoice.Recovery.Cancelling
import OnchainInvoice.Recovery.Restoring

/-!
# Emails and devices of a wallet

The verified email and the device records of a wallet change on the word of a key that controls it,
as long as the routes that do not ask for one are not used for anybody else's email or key.
-/

namespace OnchainInvoice.Recovery

open Lib.Histories Lib.Revert Lib.Tables Server WalletLog

variable {env : Env} {s : RecoveryServer} {before : List Call} {call : Call} {db db' : RecoveryDb}
  {w e : String} {now ts : Time}

abbrev DeviceKey := String × String × String × String

/-! ## Changes of the records -/

def VerifiedAs (db : RecoveryDb) (w e : String) : Prop :=
  ∃ record, db.wallets.emails.find? w = some record ∧ record.verifiedAt.isSome ∧ record.email = e

/-- The verified email of the wallet becomes `e`. -/
def BecomesVerified (env : Env) (before : List Call) (call : Call) (w e : String) : Prop :=
  VerifiedAs (next env (runCalls env before) call).db w e ∧ ¬ VerifiedAs (runCalls env before).db w e

def HasDevice (db : RecoveryDb) (k : DeviceKey) : Prop := ∃ d, db.wallets.devices.find? k = some d

/-- A device record is added or removed. -/
def DeviceChanges (env : Env) (before : List Call) (call : Call) (k : DeviceKey) : Prop :=
  ¬ (HasDevice (next env (runCalls env before) call).db k ↔ HasDevice (runCalls env before).db k)

/-! ## On whose word -/

/-- The owners that the chain has for a wallet when a step comes, `none` before it is deployed. -/
abbrev Owners := List Call → String → Option (List Coords)

/-- The key is on the records of the wallet, an owner of it on the chain or, before it is deployed,
the one that its address is derived from. -/
inductive Controls (env : Env) (owners : Option (List Coords)) (wallets : WalletDb)
    (w qx qy : String) : Prop
  | recorded (h : Registered wallets w qx qy)
  | onChain {keys : List Coords} {key : Coords} (hdeployed : owners = some keys) (hmem : key ∈ keys)
      (hsame : sameRecoverOwner key (qx, qy) = true)
  | derived (hdeployed : owners = none) (hderives : Derives env w (qx, qy))

/-- A key of the wallet signed a challenge to attach `e`, and the code was mailed there. -/
def AttachedByKey (env : Env) (w e code : String) : List Call → Prop :=
  Once fun before call => ∃ input c challenge db' a, call = .attachEmail input ∧
    checkAttach env (runCalls env before).db input = .ok c ∧ w = lowerCase c.walletAddress ∧
    e = normalizeEmail c.email ∧ env.hashOtpCode input.code = env.hashOtpCode code ∧
    consumeHostedRecoveryChallenge (runCalls env before).db input.now c.challengeId .attach =
      some (challenge, db') ∧
    input.assertion = some a ∧ Verifies env a (hosted env challenge c.ownerQx c.ownerQy) ∧
    Registered (runCalls env before).db.wallets w c.ownerQx c.ownerQy

/-- The code that was mailed comes back, or the email is confirmed for a request. -/
inductive EmailAuthorised (env : Env) (before : List Call) : Call → String → String → Prop
  | mailed {input : Input} {code w e : String} (hcode : str (input.body "code") = some code)
      (hattached : AttachedByKey env w e code before) :
    EmailAuthorised env before (.verifyEmailOtp input) w e
  | confirmed {requestId : String} {input : Input} {code w e : String}
      (hattached : AttachedByKey env w e code before) :
    EmailAuthorised env before (.verifyRecoveryEmail requestId input) w e

/-- The key signed a challenge that the client was given for the purpose. -/
def SignsClient (env : Env) (db : RecoveryDb) (client : Client) (input : Input)
    (purpose : ClientPurpose) (key : NewKey) : Prop :=
  ∃ challenge db' a, consumeWalletChallenge db input.now key.challengeId client.id purpose =
      some (challenge, db') ∧
    input.assertion = some a ∧
    Verifies env a ⟨challenge, client.rpId, client.origins, key.ownerQx, key.ownerQy⟩

/-- The key of a device record that is added has signed a challenge: for the request that the guardian
approves, for the client that creates or recovers the wallet, or for the record that is restored. -/
inductive DeviceSigned (env : Env) (before : List Call) : Call → DeviceKey → Prop
  | approved {n : Nat} {answer : Answer} {session : GuardianSession} {request : Request}
      (hpending : (runCalls env before).pending[n]? = some (.guarding session (.approve request.id)))
      (hcheck : checkApprove env (runCalls env before).db request.id (guardianCall session answer) =
        .ok request)
      (hproven : KeyProven env request.id request.newQx request.newQy before) :
    DeviceSigned env before (.resume n answer)
      (lowerCase request.walletAddress, request.chainId, request.newQx, request.newQy)
  | created {client : Client} {input : Input} {attestation : Option String} {email : String}
      {key : NewKey} {factoryAddress implementationAddress : String}
      (hcheck : checkCreateWallet input.body = .ok (email, key))
      (hfactory : env.factoryAddress = some factoryAddress)
      (himplementation : env.implementationAddress = some implementationAddress)
      (hsigns : SignsClient env (runCalls env before).db client input .create key) :
    DeviceSigned env before (.createClientWallet client input attestation)
      (createdAddress env factoryAddress implementationAddress key, env.chainId, key.ownerQx,
        key.ownerQy)
  | initiated {client : Client} {wallet : String} {input : Input} {identityVerified : Bool}
      {key : NewKey}
      (hcheck : checkInitiate (runCalls env before).db client wallet input.body identityVerified =
        .ok key)
      (hsigns : SignsClient env (runCalls env before).db client input .recover key) :
    DeviceSigned env before (.initiateRecovery client wallet input identityVerified)
      (lowerCase wallet, (str (input.body "chainId")).getD env.chainId, key.ownerQx, key.ownerQy)
  | recovered {input : Input} {onChainOwners : List Coords} {c : RecoverChecked} {chainId : String}
      (hcheck : checkRecoverAccount env (runCalls env before).db input onChainOwners = .ok c)
      (hsigns : SignsRecord env (runCalls env before).db input c.owner) :
    DeviceSigned env before (.recoverWalletAccount input onChainOwners)
      (lowerCase c.walletAddress, chainId, c.owner.1, c.owner.2)

/-- That key controls the wallet. -/
def DeviceAuthorised (env : Env) (owners : Owners) (before : List Call) (call : Call)
    (k : DeviceKey) : Prop :=
  DeviceSigned env before call k ∧
    Controls env (owners before k.1) (runCalls env before).db.wallets k.1 k.2.2.1 k.2.2.2

/-! ## The condition -/

-- The record of the device is there, or its key controls the wallet.
def Settled (env : Env) (owners : Owners) (before : List Call) (k : DeviceKey) : Prop :=
  HasDevice (runCalls env before).db k ∨
    Controls env (owners before k.1) (runCalls env before).db.wallets k.1 k.2.2.1 k.2.2.2

-- The code is one that was mailed for a request over the wallet and the email, and is unused.
def MailedTo (env : Env) (db : RecoveryDb) (w e code : String) : Prop :=
  ∃ row ∈ db.otps.rows, row.walletAddress = lowerCase w ∧ row.email = normalizeEmail e ∧
    row.purpose = .recover ∧ row.consumedAt = none ∧ row.codeHash = env.hashOtpCode code

-- What was read of the owners on the chain is right, and of a wallet that is deployed some were.
def ReadsOwners (owners : Option (List Coords)) (read : List Coords) : Prop :=
  match owners with
  | none => read = []
  | some keys => read ≠ [] ∧ read ⊆ keys

/-- The routes that ask no key of the wallet leave its emails and devices, or find there what they are
given.  The routes that are not here attach no email. -/
def AsksOwner (env : Env) (owners : Owners) (before : List Call) : Call → Prop
  | .postDevice body _ => ∀ w qx qy, (str (body "walletAddress")).map lowerCase = some w →
    normalizeHex32 (str (body "ownerQx")) = some qx →
    normalizeHex32 (str (body "ownerQy")) = some qy →
    HasDevice (runCalls env before).db
      (lowerCase w, (str (body "chainId")).getD DEFAULT_CHAIN, qx, qy)
  | .deleteDevice wallet ownerQx ownerQy chainId _ => ∀ qx qy, pathHex32 ownerQx = some qx →
    pathHex32 ownerQy = some qy → ¬ HasDevice (runCalls env before).db
      (lowerCase (Server.trim wallet), (chainId.map Server.trim).getD DEFAULT_CHAIN, qx, qy)
  | .verifyRecoveryEmail requestId input => ∀ request code,
    getWalletRecoveryRequest (runCalls env before).db requestId = some request →
    request.status = .awaitingEmail → str (input.body "code") = some code →
    MailedTo env (runCalls env before).db request.walletAddress request.email code →
    ∃ record, (runCalls env before).db.wallets.emails.find? (lowerCase request.walletAddress) =
      some record ∧ record.email = normalizeEmail request.email
  | .resume n answer => ∀ session requestId request,
    (runCalls env before).pending[n]? = some (.guarding session (.approve requestId)) →
    checkApprove env (runCalls env before).db requestId (guardianCall session answer) =
      .ok request →
    Settled env owners before
      (lowerCase request.walletAddress, request.chainId, request.newQx, request.newQy)
  | .createClientWallet client input _ => ∀ email key factoryAddress implementationAddress,
    checkCreateWallet input.body = .ok (email, key) → env.factoryAddress = some factoryAddress →
    env.implementationAddress = some implementationAddress →
    SignsClient env (runCalls env before).db client input .create key →
    Settled env owners before (createdAddress env factoryAddress implementationAddress key,
      env.chainId, key.ownerQx, key.ownerQy)
  | .initiateRecovery client wallet input identityVerified => ∀ key,
    checkInitiate (runCalls env before).db client wallet input.body identityVerified = .ok key →
    SignsClient env (runCalls env before).db client input .recover key →
    Settled env owners before
      (lowerCase wallet, (str (input.body "chainId")).getD env.chainId, key.ownerQx, key.ownerQy)
  | .recoverWalletAccount input onChainOwners => ∀ w,
    (str (input.body "walletAddress")).map lowerCase = some w →
    ReadsOwners (owners before w) onChainOwners
  | .elsewhere write => ∀ w e, write.operation ≠ .upsertWalletEmail w e none
  | _ => True

/-! ## Emails -/

theorem verifiedAs_mark {walletAddress email : String}
    (hemails : db'.wallets.emails =
      (markWalletEmailVerified db.wallets now ts walletAddress email).1.emails)
    (h : VerifiedAs db' w e) :
    VerifiedAs db w e ∨ (w = lowerCase walletAddress ∧ e = normalizeEmail email) := by
  obtain ⟨record, hrecord, hverified, rfl⟩ := h
  rw [hemails] at hrecord
  unfold markWalletEmailVerified at hrecord
  dsimp only at hrecord
  split at hrecord
  · unfold upsertWalletEmail at hrecord
    dsimp only at hrecord
    rw [Table.find?_upsert] at hrecord
    split at hrecord
    next hw =>
      refine .inr ⟨hw, ?_⟩
      cases hold : db.wallets.emails.find? w with
      | none =>
        rw [hold] at hrecord
        cases hrecord
        rfl
      | some old =>
        rw [hold] at hrecord
        cases hrecord
        rfl
    · exact .inl ⟨record, hrecord, hverified, rfl⟩
  · dsimp only at hrecord
    rw [Table.find?_modify] at hrecord
    split at hrecord
    next hw =>
      obtain ⟨old, -, rfl⟩ := Option.map_eq_some_iff.mp hrecord
      exact .inr ⟨hw, rfl⟩
    · exact .inl ⟨record, hrecord, hverified, rfl⟩

/-- An email that is attached is not verified by that. -/
theorem verifiedAs_attach {walletAddress email : String}
    (hemails : db'.wallets.emails = (upsertWalletEmail db.wallets now walletAddress email none).1.emails)
    (h : VerifiedAs db' w e) : VerifiedAs db w e := by
  obtain ⟨record, hrecord, hverified, rfl⟩ := h
  rw [hemails] at hrecord
  unfold upsertWalletEmail at hrecord
  dsimp only at hrecord
  rw [Table.find?_upsert] at hrecord
  split at hrecord
  · cases hold : db.wallets.emails.find? w with
    | none =>
      rw [hold] at hrecord
      cases hrecord
      cases hverified
    | some old =>
      rw [hold, Option.map_some, Option.getD_some, Option.some.injEq] at hrecord
      subst hrecord
      simp only [Option.isSome_none, Bool.false_eq_true, if_false] at hverified
      split at hverified
      · cases hverified
      next hsame => exact ⟨old, hold, hverified, (not_not.mp hsame).symm⟩
  · exact ⟨record, hrecord, hverified, rfl⟩

theorem verifiedAs_congr (h : VerifiedAs db' w e) (hemails : db'.wallets.emails = db.wallets.emails) :
    VerifiedAs db w e := by
  obtain ⟨record, hrecord, hverified, he⟩ := h
  rw [hemails] at hrecord
  exact ⟨record, hrecord, hverified, he⟩

theorem markDeployed_emails {wallets : WalletDb} (address chainId : String) :
    (markWalletDeployed wallets now address chainId).1.emails = wallets.emails := by
  unfold markWalletDeployed
  split
  · rfl
  · split <;> rfl

theorem insertMethod_records (wallets : WalletDb) (now ts : Time) (method : IdentityMethod) :
    (insertIdentityMethod wallets now ts method).1.emails = wallets.emails ∧
    (insertIdentityMethod wallets now ts method).1.devices = wallets.devices := by
  unfold insertIdentityMethod
  exact ⟨rfl, rfl⟩

theorem indexRestored_records {r : Request} :
    (indexRestoredIdentityMethod env db r now).wallets.emails = db.wallets.emails ∧
    (indexRestoredIdentityMethod env db r now).wallets.devices = db.wallets.devices := by
  unfold indexRestoredIdentityMethod
  split
  · exact ⟨rfl, rfl⟩
  · split
    · exact ⟨rfl, rfl⟩
    · exact insertMethod_records db.wallets now now _
    · split
      · exact ⟨rfl, rfl⟩
      · exact insertMethod_records db.wallets now now _

/-- The callback of a job leaves emails and devices. -/
theorem sync_records {jobId : String} {status : JobStatus} :
    (syncRequestFromJob env db jobId status now).wallets.emails = db.wallets.emails ∧
    (syncRequestFromJob env db jobId status now).wallets.devices = db.wallets.devices := by
  unfold syncRequestFromJob
  split
  · exact ⟨rfl, rfl⟩
  · split
    · exact ⟨rfl, rfl⟩
    · split
      · exact ⟨rfl, rfl⟩
      · exact indexRestored_records
      · exact ⟨rfl, rfl⟩
      · exact ⟨rfl, rfl⟩

theorem recovered_emails {input : Input} {onChainOwners : List Coords} {c : RecoverChecked} :
    (recoveredWallets env db input onChainOwners c).emails = db.wallets.emails := by
  unfold recoveredWallets
  dsimp only
  split
  · exact markDeployed_emails _ _
  · rfl


/-- How a step leaves the emails. -/
inductive EmailChange (env : Env) (s : RecoveryServer) : Call → RecoveryDb → Prop
  | same {call : Call} {db' : RecoveryDb} (hemails : db'.wallets.emails = s.db.wallets.emails) :
    EmailChange env s call db'
  | attached {input : Input} {c : AttachChecked} {challenge : String} {t} {a : Assertion}
      {db' : RecoveryDb} (hcheck : checkAttach env s.db input = .ok c)
      (hconsumed : consumeHostedRecoveryChallenge s.db input.now c.challengeId .attach =
        some (challenge, { s.db with hostedChallenges := t }))
      (hassertion : input.assertion = some a)
      (hverifies : Verifies env a (hosted env challenge c.ownerQx c.ownerQy))
      (hemails : db'.wallets.emails =
        (upsertWalletEmail s.db.wallets input.now c.walletAddress c.email none).1.emails) :
    EmailChange env s (.attachEmail input) db'
  | mailed {input : Input} {walletAddress email code : String} {db' : RecoveryDb}
      (hbody : str (input.body "code") = some code)
      (hcode : (consumeWalletEmailOtp s.db input.now walletAddress email .attach
        (env.hashOtpCode code)).1 = true)
      (hemails : db'.wallets.emails =
        (markWalletEmailVerified s.db.wallets input.now input.now walletAddress email).1.emails) :
    EmailChange env s (.verifyEmailOtp input) db'
  | confirmed {requestId : String} {input : Input} {request : Request} {code : String}
      {db' : RecoveryDb} (hfound : getWalletRecoveryRequest s.db requestId = some request)
      (hstatus : request.status = .awaitingEmail) (hbody : str (input.body "code") = some code)
      (hcode : (consumeWalletEmailOtp s.db input.now request.walletAddress request.email .recover
        (env.hashOtpCode code)).1 = true)
      (hemails : db'.wallets.emails = (markWalletEmailVerified s.db.wallets input.now input.now
        request.walletAddress request.email).1.emails) :
    EmailChange env s (.verifyRecoveryEmail requestId input) db'
  | elsewhere (write : WalletLog.Call) :
    EmailChange env s (.elsewhere write)
      { s.db with wallets := (WalletLog.step s.db.wallets write).1 }

theorem emailChange (h : Change env s call db') : EmailChange env s call db' := by
  cases h with
  | idle | challenged | clientChallenged | guarded | withdrawn | stopped | approved | rejected
  | devicePosted | deviceDeleted | clientInitiated | clientCancelled | signed | initiated =>
    exact .same rfl
  | codeTried =>
    obtain ⟨t, heq⟩ := consumeOtp_eq
    exact .same (by rw [heq])
  | codeSent hsent =>
    obtain ⟨t, rfl⟩ := createOtp_eq hsent
    exact .same rfl
  | attached hcheck hconsumed hassertion hverifies hleft =>
    refine .attached hcheck hconsumed hassertion hverifies ?_
    rcases hleft with rfl | hsent
    · rfl
    · obtain ⟨t, rfl⟩ := createOtp_eq hsent
      rfl
  | emailVerified hbody hcode => exact .mailed hbody hcode rfl
  | requestVerified hfound hstatus hbody hcode => exact .confirmed hfound hstatus hbody hcode rfl
  | created _ _ _ hleft =>
    rcases hleft with rfl | hsent
    · exact .same rfl
    · obtain ⟨t, rfl⟩ := createOtp_eq hsent
      exact .same rfl
  | recovered => exact .same recovered_emails
  | clientCreated _ hproven =>
    obtain ⟨t, ht⟩ := provenKey_db env s.db _ _ .create _
    rw [hproven] at ht
    cases ht
    exact .same (by rw [upsertWalletIdentity_wallets]; rfl)
  | claimed hclaim => exact .same (by rw [(jobKind_claim hclaim).2.1])
  | tracked htrack => exact .same (by rw [(jobKind_track htrack).2.1])
  | synced htrack => exact .same (by rw [sync_records.1, (jobKind_track htrack).2.1])
  | elsewhere write => exact .elsewhere write

/-! ## Steps -/

/-- Whoever attaches an email is a key of the wallet. -/
theorem checkAttach_registered {input : Input} {c : AttachChecked}
    (h : checkAttach env db input = .ok c) :
    Registered db.wallets c.walletAddress c.ownerQx c.ownerQy := by
  simp only [checkAttach, bind_eq_ok, revertIf_eq_ok, orRevert_eq_ok, pure_eq_ok] at h
  obtain ⟨-, -, wallet, -, email, -, challengeId, -, qx, -, qy, -, -, -, account, haccount, -,
    hown, rfl⟩ := h
  rw [Bool.decide_and, Bool.and_eq_false_iff] at hown
  rcases hown with hdevice | howner
  · rw [decide_eq_false_iff_not, Bool.not_eq_true', Bool.not_eq_false, List.any_eq_true] at hdevice
    obtain ⟨device, hdevice, hkey⟩ := hdevice
    rw [decide_eq_true_eq] at hkey
    obtain ⟨hmem, hof⟩ := List.mem_filter.mp hdevice
    rw [decide_eq_true_eq] at hof
    obtain ⟨rfl, rfl⟩ := hkey
    exact registered_of_device hmem hof.1
  · rw [decide_eq_false_iff_not, Bool.not_eq_true', Bool.not_eq_false, decide_eq_true_eq] at howner
    obtain ⟨rfl, rfl⟩ := howner
    exact .inl ⟨account, haccount, rfl, rfl⟩

/-- A code for `e` that is accepted to attach it comes from a key of the wallet. -/
theorem attachedByKey_of_code {walletAddress email code : String}
    (h : (consumeWalletEmailOtp (runCalls env before).db now walletAddress email .attach
      (env.hashOtpCode code)).1 = true) :
    AttachedByKey env (lowerCase walletAddress) (normalizeEmail email) code before := by
  obtain ⟨row, hmem, hwallet, hemail, hpurpose, -, hcode⟩ := consumeOtp_true h
  refine Once.mono ((vouched env before).codes row hmem) fun pre t hnew => ?_
  cases hnew with
  | recover _ _ hp => cases hp.symm.trans hpurpose
  | lookup hp => cases hp.symm.trans hpurpose
  | @attach input c challenge db' a _ hcheck hconsumed hassertion hverifies _ hw he hc =>
    refine ⟨input, c, challenge, db', a, rfl, hcheck, hwallet.symm.trans hw, hemail.symm.trans he,
      hc.symm.trans hcode, hconsumed, hassertion, hverifies, ?_⟩
    rw [hwallet.symm.trans hw]
    exact registered_lowerCase.mpr (checkAttach_registered hcheck)

/-- Every email on record that is not verified was attached by a key of the wallet. -/
def EmailsAttached (env : Env) (before : List Call) : Prop :=
  ∀ w record, (runCalls env before).db.wallets.emails.find? w = some record →
    record.verifiedAt = none → ∃ code, AttachedByKey env w record.email code before

-- No email is left unverified under an address that was not so before.
def LeavesUnverified (db db' : RecoveryDb) : Prop :=
  ∀ w record, db'.wallets.emails.find? w = some record → record.verifiedAt = none →
    db.wallets.emails.find? w = some record

theorem leavesUnverified_of_eq (h : db'.wallets.emails = db.wallets.emails) :
    LeavesUnverified db db' := fun _ _ hrecord _ => h ▸ hrecord

theorem leavesUnverified_mark (walletAddress email : String)
    (h : db'.wallets.emails =
      (markWalletEmailVerified db.wallets now ts walletAddress email).1.emails) :
    LeavesUnverified db db' := by
  intro w record hrecord hunverified
  rw [h] at hrecord
  unfold markWalletEmailVerified at hrecord
  dsimp only at hrecord
  split at hrecord
  next hnone =>
    unfold upsertWalletEmail at hrecord
    dsimp only at hrecord
    rw [Table.find?_upsert] at hrecord
    split at hrecord
    next hw =>
      dsimp only at hw
      rw [hw, hnone] at hrecord
      cases hrecord
      cases hunverified
    · exact hrecord
  · dsimp only at hrecord
    rw [Table.find?_modify] at hrecord
    split at hrecord
    · obtain ⟨old, -, rfl⟩ := Option.map_eq_some_iff.mp hrecord
      cases hunverified
    · exact hrecord

/-- What is written elsewhere attaches no email. -/
theorem leavesUnverified_elsewhere {write : WalletLog.Call}
    (hwrite : ∀ w e, write.operation ≠ .upsertWalletEmail w e none) :
    LeavesUnverified db { db with wallets := (WalletLog.step db.wallets write).1 } := by
  unfold WalletLog.step
  cases hoperation : write.operation with
  | upsertIdentity input =>
    apply leavesUnverified_of_eq
    dsimp only
    unfold upsertIdentity
    dsimp only
    split <;> rfl
  | deleteIdentityMethod =>
    apply leavesUnverified_of_eq
    dsimp only
    unfold deleteIdentityMethod
    split <;> rfl
  | setWalletAccountLabel =>
    apply leavesUnverified_of_eq
    dsimp only
    unfold setWalletAccountLabel
    dsimp only
    split <;> rfl
  | markWalletDeployed => exact leavesUnverified_of_eq (markDeployed_emails _ _)
  | markWalletEmailVerified walletAddress email => exact leavesUnverified_mark walletAddress email rfl
  | upsertWalletEmail walletAddress email verifiedAt =>
    cases verifiedAt with
    | none => exact absurd hoperation (hwrite walletAddress email)
    | some verifiedAt =>
      intro w record hrecord hunverified
      dsimp only at hrecord
      unfold upsertWalletEmail at hrecord
      dsimp only at hrecord
      rw [Table.find?_upsert] at hrecord
      split at hrecord
      · cases hold : db.wallets.emails.find? w with
        | none =>
          rw [hold] at hrecord
          cases hrecord
          cases hunverified
        | some old =>
          rw [hold] at hrecord
          cases hrecord
          cases hunverified
      · exact hrecord
  | _ => exact leavesUnverified_of_eq rfl

/-- An email that is attached is attached by a key of the wallet. -/
theorem attachedByKey_of_attach {input : Input} {c : AttachChecked} {challenge : String} {t}
    {a : Assertion} (hcheck : checkAttach env (runCalls env before).db input = .ok c)
    (hconsumed : consumeHostedRecoveryChallenge (runCalls env before).db input.now c.challengeId
      .attach = some (challenge, { (runCalls env before).db with hostedChallenges := t }))
    (hassertion : input.assertion = some a)
    (hverifies : Verifies env a (hosted env challenge c.ownerQx c.ownerQy)) :
    AttachedByKey env (lowerCase c.walletAddress) (normalizeEmail c.email) input.code
      (before ++ [.attachEmail input]) :=
  once_concat.mpr (.inr ⟨input, c, challenge, _, a, rfl, hcheck, rfl, rfl, rfl, hconsumed,
    hassertion, hverifies, registered_lowerCase.mpr (checkAttach_registered hcheck)⟩)

theorem unverified_attach {walletAddress email : String} {record : WalletEmail}
    (hemails : db'.wallets.emails = (upsertWalletEmail db.wallets now walletAddress email none).1.emails)
    (hrecord : db'.wallets.emails.find? w = some record) :
    (w = lowerCase walletAddress ∧ record.email = normalizeEmail email) ∨
      db.wallets.emails.find? w = some record := by
  rw [hemails] at hrecord
  unfold upsertWalletEmail at hrecord
  dsimp only at hrecord
  rw [Table.find?_upsert] at hrecord
  split at hrecord
  next hw =>
    refine .inl ⟨hw, ?_⟩
    cases hold : db.wallets.emails.find? w with
    | none =>
      rw [hold] at hrecord
      cases hrecord
      rfl
    | some old =>
      rw [hold] at hrecord
      cases hrecord
      rfl
  · exact .inr hrecord

theorem emailsAttached_concat {owners : Owners} (h : EmailsAttached env before)
    (hasks : AsksOwner env owners before call) : EmailsAttached env (before ++ [call]) := by
  have hchange := emailChange (change env (runCalls env before) call)
  unfold EmailsAttached
  rw [show runCalls env (before ++ [call]) = next env (runCalls env before) call from run_concat ..]
  generalize (next env (runCalls env before) call).db = db' at hchange ⊢
  intro w record hrecord hunverified
  have hold : (runCalls env before).db.wallets.emails.find? w = some record →
      ∃ code, AttachedByKey env w record.email code (before ++ [call]) := by
    intro hrecord
    obtain ⟨code, hattached⟩ := h w record hrecord hunverified
    exact ⟨code, once_concat.mpr (.inl hattached)⟩
  cases hchange with
  | same hemails => exact hold (leavesUnverified_of_eq hemails w record hrecord hunverified)
  | attached hcheck hconsumed hassertion hverifies hemails =>
    rcases unverified_attach hemails hrecord with ⟨rfl, hemail⟩ | hrecord
    · rw [hemail]
      exact ⟨_, attachedByKey_of_attach hcheck hconsumed hassertion hverifies⟩
    · exact hold hrecord
  | mailed _ _ hemails | confirmed _ _ _ _ hemails =>
    exact hold (leavesUnverified_mark _ _ hemails w record hrecord hunverified)
  | elsewhere write => exact hold (leavesUnverified_elsewhere hasks w record hrecord hunverified)

/-- A step verifies no email but one that a key of the wallet attached. -/
theorem email_authorised {owners : Owners} (hattached : EmailsAttached env before)
    (hasks : AsksOwner env owners before call) (hhere : ∀ write, call ≠ .elsewhere write)
    (h : BecomesVerified env before call w e) : EmailAuthorised env before call w e := by
  obtain ⟨hafter, hbefore⟩ := h
  have hchange := emailChange (change env (runCalls env before) call)
  generalize hdb : (next env (runCalls env before) call).db = db' at hafter hchange
  cases hchange with
  | same hemails => exact absurd (verifiedAs_congr hafter hemails) hbefore
  | attached _ _ _ _ hemails => exact absurd (verifiedAs_attach hemails hafter) hbefore
  | mailed hbody hcode hemails =>
    obtain ⟨rfl, rfl⟩ := (verifiedAs_mark hemails hafter).resolve_left hbefore
    exact .mailed hbody (attachedByKey_of_code hcode)
  | confirmed hfound hstatus hbody hcode hemails =>
    obtain ⟨rfl, rfl⟩ := (verifiedAs_mark hemails hafter).resolve_left hbefore
    obtain ⟨record, hrecord, hemail⟩ := hasks _ _ hfound hstatus hbody (consumeOtp_true hcode)
    have hunverified : record.verifiedAt = none := by
      by_contra hverified
      exact hbefore ⟨record, hrecord, Option.isSome_iff_ne_none.mpr hverified, hemail⟩
    obtain ⟨code', hby⟩ := hattached _ record hrecord hunverified
    rw [hemail] at hby
    exact .confirmed hby
  | elsewhere write => exact absurd rfl (hhere write)

/-! ## Devices -/

theorem hasDevice_upsert (now : Time) {wallets : WalletDb} {device : WalletDevice} {k : DeviceKey}
    (hwallets : db'.wallets = (upsertWalletDevice wallets now device).1)
    (hdevices : wallets.devices = db.wallets.devices) :
    HasDevice db' k ↔ HasDevice db k ∨
      k = (lowerCase device.walletAddress, device.chainId, device.ownerQx, device.ownerQy) := by
  have hfind : (upsertWalletDevice wallets now device).1.devices.find? k =
      if k = (lowerCase device.walletAddress, device.chainId, device.ownerQx, device.ownerQy) then
        (upsertWalletDevice wallets now device).1.devices.find? k
      else wallets.devices.find? k := by
    split
    · rfl
    next hne => exact Table.find?_upsert.trans (if_neg hne)
  unfold HasDevice
  rw [hwallets]
  by_cases hk : k = (lowerCase device.walletAddress, device.chainId, device.ownerQx, device.ownerQy)
  · refine iff_of_true ?_ (.inr hk)
    exact ⟨_, Table.find?_upsert.trans (if_pos hk)⟩
  · rw [hfind, if_neg hk, hdevices]
    exact ⟨.inl, fun h => h.resolve_right hk⟩

theorem signsClient_of_proven {client : Client} {input : Input} {purpose : ClientPurpose}
    {key : NewKey} (h : provenKey env db client input purpose key = (.ok (), db')) :
    SignsClient env db client input purpose key := by
  unfold provenKey at h
  split at h
  · cases h
  next challenge t hconsumed =>
    split at h
    · cases h
    next a hassertion =>
      split at h
      · cases h
      next hverifies => exact ⟨challenge, t, a, hconsumed, hassertion, hverifies⟩

/-- A device that is posted where it is on record changes no record. -/
theorem hasDevice_posted {owners : Owners} {body : Body} {k : DeviceKey}
    (hasks : AsksOwner env owners before (.postDevice body now)) :
    HasDevice (next env (runCalls env before) (.postDevice body now)).db k ↔
      HasDevice (runCalls env before).db k := by
  change HasDevice (postDevice (runCalls env before).db body now).2 k ↔ _
  unfold postDevice
  split
  next walletAddress qx qy hwallet hqx hqy =>
    refine (hasDevice_upsert now rfl rfl).trans ⟨?_, .inl⟩
    rintro (hk | rfl)
    · exact hk
    · exact hasks walletAddress qx qy hwallet hqx hqy
  · exact Iff.rfl

/-- A device that is deleted where it is not on record changes no record. -/
theorem hasDevice_deleted {owners : Owners} {wallet ownerQx ownerQy : String}
    {chainId : Option String} {k : DeviceKey}
    (hasks : AsksOwner env owners before (.deleteDevice wallet ownerQx ownerQy chainId now)) :
    HasDevice (next env (runCalls env before) (.deleteDevice wallet ownerQx ownerQy chainId now)).db k ↔
      HasDevice (runCalls env before).db k := by
  change HasDevice (deleteDevice (runCalls env before).db wallet ownerQx ownerQy chainId now).2 k ↔ _
  unfold deleteDevice
  dsimp only
  split
  next qx qy hqx hqy =>
    split
    · exact Iff.rfl
    · have habsent := hasks qx qy hqx hqy
      unfold HasDevice at habsent ⊢
      show (∃ d, ((runCalls env before).db.wallets.devices.delete _).find? k = some d) ↔ _
      rw [Table.find?_delete, lowerCase_lowerCase]
      refine exists_congr fun d => Option.filter_eq_some_iff.trans (and_iff_left_of_imp ?_)
      -- The row that is deleted would have the key that is not on record.
      intro hd
      rw [Bool.not_eq_true', decide_eq_false_iff_not]
      intro hkey
      rw [Table.key_of_find? hd] at hkey
      exact habsent ⟨d, hkey ▸ hd⟩
  · exact Iff.rfl

theorem createdAddress_lower {factoryAddress implementationAddress : String} {key : NewKey} :
    lowerCase (createdAddress env factoryAddress implementationAddress key) =
      createdAddress env factoryAddress implementationAddress key :=
  lowerCase_lowerCase _

/-- The key that a record is restored to controls the wallet. -/
theorem controls_of_recovered {owners : Owners} {input : Input} {onChainOwners : List Coords}
    {c : RecoverChecked} {wallets : WalletDb}
    (hasks : AsksOwner env owners before (.recoverWalletAccount input onChainOwners))
    (hcheck : checkRecoverAccount env db input onChainOwners = .ok c) :
    Controls env (owners before (lowerCase c.walletAddress)) wallets (lowerCase c.walletAddress)
      c.owner.1 c.owner.2 := by
  obtain ⟨a, db', f, i, hw, -, -, -, -, hf, hi, hmatch⟩ := checkRecover_eq_ok.mp hcheck
  obtain ⟨hwallet, -⟩ := Option.filter_eq_some_iff.mp hw
  have hlower : lowerCase c.walletAddress = c.walletAddress := by
    obtain ⟨walletAddress, -, hlower⟩ := Option.map_eq_some_iff.mp hwallet
    rw [← hlower, lowerCase_lowerCase]
  have hreads := hasks c.walletAddress hwallet
  have hpassed := List.find?_some hmatch
  rw [decide_eq_true_eq] at hpassed
  rw [hlower]
  unfold ReadsOwners at hreads
  split at hreads
  next hnone =>
    subst hreads
    have hderives := hpassed.2
    simp only [ne_eq, not_true_eq_false, if_false, decide_eq_true_eq] at hderives
    exact .derived hnone ⟨f, i, hf, hi, hderives⟩
  next keys hkeys =>
    have hany := hpassed.2
    rw [if_pos hreads.1, List.any_eq_true] at hany
    obtain ⟨key, hmem, hsame⟩ := hany
    exact .onChain hkeys (hreads.2 hmem) hsame

/-- A step removes no device and adds none but one whose key has signed and controls the wallet. -/
theorem device_authorised {owners : Owners} {k : DeviceKey}
    (hasks : AsksOwner env owners before call) (hhere : ∀ write, call ≠ .elsewhere write)
    (h : DeviceChanges env before call k) : DeviceAuthorised env owners before call k := by
  unfold DeviceChanges at h
  have hchange := change env (runCalls env before) call
  have hsame : ∀ {db' : RecoveryDb}, ¬ (HasDevice db' k ↔ HasDevice (runCalls env before).db k) →
      db'.wallets.devices = (runCalls env before).db.wallets.devices →
      DeviceAuthorised env owners before call k := by
    intro db' hdb' hdevices
    refine absurd ?_ hdb'
    unfold HasDevice
    rw [hdevices]
  -- A device that is written is new, or nothing has changed.
  have hnew : ∀ {db' : RecoveryDb} {k' : DeviceKey},
      ¬ (HasDevice db' k ↔ HasDevice (runCalls env before).db k) →
      (HasDevice db' k ↔ HasDevice (runCalls env before).db k ∨ k = k') →
      k = k' ∧ ¬ HasDevice (runCalls env before).db k := by
    intro db' k' hdb' hiff
    by_cases hk : k = k'
    · refine ⟨hk, fun hthere => hdb' ?_⟩
      exact iff_of_true (hiff.mpr (.inl hthere)) hthere
    · exact absurd (hiff.trans ⟨fun h => h.resolve_right hk, .inl⟩) hdb'
  generalize hdb : (next env (runCalls env before) call).db = db' at h hchange
  cases hchange with
  | idle | challenged | clientChallenged | guarded | withdrawn | stopped | rejected
  | clientCancelled | signed | initiated => exact hsame h rfl
  | codeTried =>
    obtain ⟨t, heq⟩ := consumeOtp_eq
    exact hsame h (by rw [heq])
  | codeSent hsent =>
    obtain ⟨t, rfl⟩ := createOtp_eq hsent
    exact hsame h rfl
  | attached _ _ _ _ hleft =>
    rcases hleft with rfl | hsent
    · exact hsame h rfl
    · obtain ⟨t, rfl⟩ := createOtp_eq hsent
      exact hsame h rfl
  | emailVerified | requestVerified =>
    refine hsame h ?_
    dsimp only [updateWalletRecoveryRequest]
    unfold markWalletEmailVerified
    dsimp only
    split <;> rfl
  | created _ _ _ hleft =>
    rcases hleft with rfl | hsent
    · exact hsame h rfl
    · obtain ⟨t, rfl⟩ := createOtp_eq hsent
      exact hsame h rfl
  | devicePosted =>
    rw [← hdb] at h
    exact absurd (hasDevice_posted hasks) h
  | deviceDeleted =>
    rw [← hdb] at h
    exact absurd (hasDevice_deleted hasks) h
  | elsewhere write => exact absurd rfl (hhere write)
  | @approved n answer _ _ _ _ hpending hcheck =>
    obtain ⟨hfound, -⟩ := checkApprove_eq_ok hcheck
    have hid := Table.key_of_find? hfound
    subst hid
    obtain ⟨rfl, habsent⟩ := hnew h (hasDevice_upsert answer.input.now rfl rfl)
    refine ⟨.approved hpending hcheck
      ((vouched env before).proven _ _ hfound (checkApprove_passed hcheck).2), ?_⟩
    exact (hasks _ _ _ hpending hcheck).resolve_left habsent
  | @recovered input _ _ _ _ hcheck =>
    obtain ⟨wallets₁, salt, device, heq, haddress, hchain, hqx, hqy, hdevices, -⟩ :=
      @recoveredWallets_eq env _ _ _ _
    obtain ⟨rfl, -⟩ := hnew h (hasDevice_upsert input.now heq hdevices)
    rw [haddress, hqx, hqy]
    exact ⟨.recovered hcheck (signs_of_checked hcheck), controls_of_recovered hasks hcheck⟩
  | @clientCreated _ input _ _ _ _ _ _ hcheck hproven hfactory himplementation =>
    obtain ⟨t, ht⟩ := provenKey_db env (runCalls env before).db _ _ .create _
    have hsigns := signsClient_of_proven hproven
    rw [hproven] at ht
    cases ht
    obtain ⟨rfl, habsent⟩ := hnew h (hasDevice_upsert input.now upsertWalletIdentity_wallets rfl)
    dsimp only at habsent ⊢
    rw [createdAddress_lower] at habsent ⊢
    exact ⟨.created hcheck hfactory himplementation hsigns,
      (hasks _ _ _ _ hcheck hfactory himplementation hsigns).resolve_left habsent⟩
  | @clientInitiated _ _ input _ _ _ _ hcheck hproven =>
    have hsigns := signsClient_of_proven hproven
    obtain ⟨rfl, habsent⟩ := hnew h (hasDevice_upsert input.now rfl rfl)
    exact ⟨.initiated hcheck hsigns, (hasks _ hcheck hsigns).resolve_left habsent⟩
  | claimed hclaim => exact hsame h (by rw [(jobKind_claim hclaim).2.1])
  | tracked htrack => exact hsame h (by rw [(jobKind_track htrack).2.1])
  | synced htrack => exact hsame h (by rw [sync_records.2, (jobKind_track htrack).2.1])

/-- In a run whose routes leave what is not the asking owner's, an email is verified and a device is
added on the word of a key that controls the wallet, and no device is removed. -/
theorem records_authorised (env : Env) (owners : Owners) (calls : List Call)
    (h : Each (AsksOwner env owners) calls) :
    Each (fun before call => (∀ write, call ≠ .elsewhere write) →
      (∀ w e, BecomesVerified env before call w e → EmailAuthorised env before call w e) ∧
      ∀ k, DeviceChanges env before call k → DeviceAuthorised env owners before call k) calls := by
  refine h.of_invariant (I := EmailsAttached env) ?_ ?_ ?_
  · exact fun _ _ hrecord => nomatch hrecord
  · exact fun before call => emailsAttached_concat
  · intro before call hattached hasks hhere
    exact ⟨fun _ _ => email_authorised hattached hasks hhere,
      fun _ => device_authorised hasks hhere⟩

-- The owner attaches an email.
def attachingRun : List Call :=
  [.elsewhere ⟨.upsertWalletAccount ⟨"0xw", "salt", hex32 '1', hex32 '2', some "cred", none,
      none, none⟩, 1, 1⟩,
    .recoveryChallenge (toyInput [("purpose", "attach")] "challenge" "c" none),
    .attachEmail (toyInput [("walletAddress", "0xw"), ("email", "own@shop"),
      ("challengeId", "challenge"), ("ownerQx", hex32 '1'), ("ownerQy", hex32 '2')] "" "1234"
      (some ⟨some "webauthn.get", some "c", some "https://shop", hex32 '1'⟩))]

def returnedCode : Call := .verifyEmailOtp
  (toyInput [("walletAddress", "0xw"), ("email", "own@shop"), ("code", "1234")] "" "" none)

theorem records_authorised_attached :
    BecomesVerified toyEnv attachingRun returnedCode "0xw" "own@shop" ∧
      EmailAuthorised toyEnv attachingRun returnedCode "0xw" "own@shop" := by
  have hruns : (((next toyEnv (runCalls toyEnv attachingRun) returnedCode).db.wallets.emails.find?
        "0xw").map fun record => (record.verifiedAt.isSome, record.email)) =
        some (true, "own@shop") ∧
      ((runCalls toyEnv attachingRun).db.wallets.emails.find? "0xw").all fun record =>
        record.verifiedAt.isNone := by
    decide +kernel
  obtain ⟨hafter, hunverified⟩ := hruns
  obtain ⟨record, hrecord, heq⟩ := Option.map_eq_some_iff.mp hafter
  have hbecomes : BecomesVerified toyEnv attachingRun returnedCode "0xw" "own@shop" := by
    refine ⟨⟨record, hrecord, congrArg Prod.fst heq, congrArg Prod.snd heq⟩, ?_⟩
    rintro ⟨old, hold, hverified, -⟩
    rw [hold, Option.all_some, Option.isNone_iff_eq_none] at hunverified
    rw [hunverified] at hverified
    cases hverified
  have hasks : Each (AsksOwner toyEnv fun _ _ => none) (attachingRun ++ [returnedCode]) := by
    refine each_of_take fun n hn => ?_
    have hlength : n < 4 := hn
    interval_cases n
    · exact fun w e hoperation => by cases hoperation
    · exact trivial
    · exact trivial
    · exact trivial
  exact ⟨hbecomes, ((records_authorised toyEnv _ _ hasks) attachingRun returnedCode List.prefix_rfl
    (by simp [returnedCode])).1 "0xw" "own@shop" hbecomes⟩

/-! ## A requester's email -/

def Call.input : Call → Option Input
  | .attachEmail input | .verifyEmailOtp input | .startRecoveryEmailLookup input _
  | .verifyRecoveryEmailLookup input | .recoveryChallenge input | .createRecoveryRequest input _ _ _
  | .verifyRecoveryEmail _ input | .cancelRecoveryRequest _ input | .recoverWalletAccount input _
  | .clientChallenge _ input | .createClientWallet _ input _ | .initiateRecovery _ _ input _
  | .cancelRecovery _ _ input => some input
  | .resume _ answer => some answer.input
  | _ => none

/-- A key that controlled the wallet signed something for one of the routes. -/
def OwnerSigned (env : Env) (owners : Owners) (w : String) : List Call → Prop :=
  Once fun before call => ∃ input a options, call.input = some input ∧ input.assertion = some a ∧
    Verifies env a options ∧ Controls env (owners before w) (runCalls env before).db.wallets w
      options.ownerQx options.ownerQy

-- Whoever asks for the recovery of the wallet reads the mail at an address of his own.
def requesterRun : List Call :=
  [.elsewhere ⟨.upsertWalletAccount ⟨"0xw", "salt", hex32 '1', hex32 '2', some "cred", none,
      none, none⟩, 1, 1⟩,
    .recoveryChallenge (toyInput [("purpose", "recover")] "challenge" "c" none),
    .createRecoveryRequest (toyInput [("walletAddress", "0xw"), ("challengeId", "challenge"),
      ("email", "other@shop"), ("ownerQx", hex32 '3'), ("ownerQy", hex32 '4'),
      ("credentialId", "other")] "" ""
      (some ⟨some "webauthn.get", some "c", some "https://shop", hex32 '3'⟩)) none none [],
    .resume 0 (toyAnswer ""),
    .resume 0 { toyAnswer "request" with input := toyInput [] "request" "1234" none }]

def mailedCode : Call := .verifyRecoveryEmail "request" (toyInput [("code", "1234")] "" "" none)

-- The wallet is deployed, and its owner is the one of its account.
def toyOwners : Owners := fun _ _ => some [(hex32 '1', hex32 '2')]

theorem not_ownerSigned :
    ¬ OwnerSigned toyEnv toyOwners "0xw" (requesterRun ++ [mailedCode]) := by
  rintro ⟨pre, call, hpre, input, a, options, hinput, ha, hverifies, hcontrols⟩
  have hsignatures : ∀ call ∈ requesterRun ++ [mailedCode],
      (call.input.bind Input.assertion).all fun a => a.signature = hex32 '3' := by decide +kernel
  have hkeys : ∀ pre ∈ (requesterRun ++ [mailedCode]).inits,
      (runCalls toyEnv pre).db.wallets.methods.rows = [] ∧
      (runCalls toyEnv pre).db.wallets.devices.rows = [] ∧
      (runCalls toyEnv pre).db.wallets.accounts.rows.all fun account =>
        account.ownerQx ≠ hex32 '3' := by decide +kernel
  have hsignature := hsignatures call (hpre.subset (by simp))
  obtain ⟨hmethods, hdevices, haccounts⟩ := hkeys pre
    ((List.mem_inits _ _).mpr ((List.prefix_append pre [call]).trans hpre))
  rw [hinput, Option.bind_some, ha, Option.all_some, decide_eq_true_eq] at hsignature
  -- A key that the assertion verifies under has the coordinate that it signed with.
  have hqx : options.ownerQx = hex32 '3' := by
    have hsigned : a.signature = options.ownerQx :=
      of_decide_eq_true (Option.some.inj (signed_of_verifies hverifies))
    exact hsigned.symm.trans hsignature
  rw [hqx] at hcontrols
  cases hcontrols with
  | recorded hregistered =>
    rcases hregistered with ⟨account, haccount, howner, -⟩ | ⟨device, hdevice, -⟩ |
      ⟨-, -, method, hmethod, -⟩
    · have hne := List.all_eq_true.mp haccounts account (Table.mem_of_find? haccount)
      rw [decide_eq_true_eq] at hne
      exact hne howner
    · rw [hdevices] at hdevice
      cases hdevice
    · rw [hmethods] at hmethod
      cases hmethod
  | onChain hdeployed hmem hsame =>
    cases hdeployed
    rw [List.mem_singleton.mp hmem] at hsame
    have hx : lowerCase (hex32 '1') = lowerCase (hex32 '3') := (of_decide_eq_true hsame).1
    exact absurd hx (by decide +kernel)
  | derived hdeployed => cases hdeployed

theorem requesters_email_verified :
    ¬ Each (fun before call => ∀ w e, BecomesVerified toyEnv before call w e →
      OwnerSigned toyEnv toyOwners w (before ++ [call])) (requesterRun ++ [mailedCode]) := by
  intro h
  have hruns : (((next toyEnv (runCalls toyEnv requesterRun) mailedCode).db.wallets.emails.find?
        "0xw").map fun record => (record.verifiedAt.isSome, record.email)) =
        some (true, "other@shop") ∧
      (runCalls toyEnv requesterRun).db.wallets.emails.find? "0xw" = none := by
    decide +kernel
  obtain ⟨hafter, hbefore⟩ := hruns
  obtain ⟨record, hrecord, heq⟩ := Option.map_eq_some_iff.mp hafter
  refine not_ownerSigned ((each_concat.mp h).2 "0xw" "other@shop" ⟨⟨record, hrecord,
    congrArg Prod.fst heq, congrArg Prod.snd heq⟩, ?_⟩)
  rintro ⟨record, hrecord, -⟩
  rw [hbefore] at hrecord
  cases hrecord

end OnchainInvoice.Recovery
