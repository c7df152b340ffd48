import OnchainInvoice.Persist.WalletDb

/-!
# Wallet recovery in the database

The tables of `db.ts` that the recovery of a wallet goes through: requests, jobs of the deployer,
challenges and one-time codes, beside the wallets themselves.  What the database draws at random or
reads from the clock is an argument.
-/

namespace OnchainInvoice.Recovery

open Lib.Tables Server WalletLog

/-! ## Rows -/

inductive RequestStatus
  | awaitingEmail | awaitingGuardian | queued | onChain
  | completed | cancelled | rejected | archived
deriving DecidableEq

inductive NewOwnerKind
  | webauthn | yubikey | eoa
deriving DecidableEq

-- The JSON that operators leave: `blobs` is keyed by the identity that signed.
structure OperatorPayload where
  userOpHash : Option String
  userOp : Option String
  blobs : List (String × String)
deriving DecidableEq

-- `WalletRecoveryRequestRecord`
structure Request where
  id : String
  walletAddress : String
  email : String
  newQx : String
  newQy : String
  credentialId : String
  deviceLabel : Option String
  newOwnerKind : NewOwnerKind
  newEoa : Option String
  status : RequestStatus
  emailVerifiedAt : Option Time
  guardianAddress : Option String
  guardianActedAt : Option Time
  jobId : Option String
  operatorPayload : Option OperatorPayload
  chainId : String
  createdAt : Time
deriving DecidableEq

inductive JobKind
  | initiate | cancel | execute
deriving DecidableEq

inductive JobStatus
  | pending | claimed | submitted | included | failed | rejected
deriving DecidableEq

-- `WalletRecoveryJobRecord`
structure Job where
  id : String
  walletAddress : String
  chainId : String
  kind : JobKind
  newQx : Option String
  newQy : Option String
  cancelSignature : Option String
  status : JobStatus
  claimedBy : Option String
  claimedUntil : Option Time
  version : Int
  txHash : Option String
  error : Option String
  createdAt : Time
deriving DecidableEq

inductive OtpPurpose
  | attach | recover | login
deriving DecidableEq

structure EmailOtp where
  id : String
  walletAddress : String
  email : String
  purpose : OtpPurpose
  codeHash : String
  attempts : Nat
  expiresAt : Time
  consumedAt : Option Time
  createdAt : Time
deriving DecidableEq

inductive HostedPurpose
  | attach | recover | cancel | record
deriving DecidableEq

inductive ClientPurpose
  | create | recover | cancel
deriving DecidableEq

-- A hosted challenge has no client.
structure Challenge (π : Type) where
  id : String
  clientId : String
  purpose : π
  challenge : String
  consumed : Bool
  expiresAt : Time
deriving DecidableEq

-- `WalletIdentityRecord`: a client of the API knows a wallet by an email.
structure WalletIdentity where
  clientId : String
  email : String
  walletAddress : String
deriving DecidableEq

structure GuardianNonce where
  address : String
  nonce : String
  expiresAt : Time
deriving DecidableEq

def GuardianNonce.key (row : GuardianNonce) : String × String := (row.address, row.nonce)

structure GuardianSession where
  tokenHash : String
  address : String
  expiresAt : Time
deriving DecidableEq

structure RecoveryDb where
  wallets : WalletDb
  walletIdentities : List WalletIdentity
  hostedChallenges : Table (Challenge HostedPurpose) String Challenge.id
  walletChallenges : Table (Challenge ClientPurpose) String Challenge.id
  otps : Table EmailOtp String EmailOtp.id
  requests : Table Request String Request.id
  jobs : Table Job String Job.id
  guardianNonces : Table GuardianNonce (String × String) GuardianNonce.key
  guardianSessions : Table GuardianSession String GuardianSession.tokenHash

def RecoveryDb.empty : RecoveryDb :=
  ⟨.empty, [], .empty, .empty, .empty, .empty, .empty, .empty, .empty⟩

variable (db : RecoveryDb) (now : Time)

/-! ## Wallets -/

def getWalletAccount (address : String) : Option WalletAccount :=
  db.wallets.accounts.find? (lowerCase address)

def getWalletEmail (walletAddress : String) : Option WalletEmail :=
  db.wallets.emails.find? (lowerCase walletAddress)

def listWalletDevices (walletAddress chainId : String) : List WalletDevice :=
  db.wallets.devices.rows.filter fun device =>
    device.walletAddress = lowerCase walletAddress ∧ device.chainId = chainId

-- `LIMIT 1` without an order.
def getWalletDeviceByCredentialId (credentialId walletAddress : String) : Option WalletDevice :=
  let id := Server.trim credentialId
  if id = "" then none
  else db.wallets.devices.rows.find? fun device =>
    device.credentialId = some id ∧ device.walletAddress = lowerCase walletAddress

def upsertWalletIdentity (clientId email walletAddress : String) : RecoveryDb :=
  let row : WalletIdentity := ⟨clientId, normalizeEmail email, lowerCase walletAddress⟩
  if row ∈ db.walletIdentities then db
  else { db with walletIdentities := db.walletIdentities ++ [row] }

def clientOwnsWallet (clientId walletAddress : String) : Bool :=
  db.walletIdentities.any fun row =>
    row.clientId = clientId ∧ row.walletAddress = lowerCase walletAddress

def clientOwnsWalletForEmail (clientId email walletAddress : String) : Bool :=
  ⟨clientId, normalizeEmail email, lowerCase walletAddress⟩ ∈ db.walletIdentities

/-! ## Challenges -/

section Challenges

variable {π : Type} [DecidableEq π]

-- Of either table: unused, issued to the client for the purpose and not expired.
def consumeChallenge (t : Table (Challenge π) String Challenge.id) (id clientId : String)
    (purpose : π) : Option (Challenge π × Table (Challenge π) String Challenge.id) := do
  let row ← t.find? id
  if row.clientId = clientId ∧ row.purpose = purpose ∧ !row.consumed ∧ now ≤ row.expiresAt then
    some (row, t.modify id (fun row => { row with consumed := true }) fun _ => rfl)
  else none

end Challenges

def TTL : Time := 5 * 60 * 1000

def createHostedRecoveryChallenge (id challenge : String) (purpose : HostedPurpose) :
    Option RecoveryDb := do
  let hostedChallenges ← db.hostedChallenges.insert ⟨id, "", purpose, challenge, false, now + TTL⟩
  return { db with hostedChallenges := hostedChallenges }

def consumeHostedRecoveryChallenge (id : String) (purpose : HostedPurpose) :
    Option (String × RecoveryDb) :=
  (consumeChallenge now db.hostedChallenges id "" purpose).map fun (row, t) =>
    (row.challenge, { db with hostedChallenges := t })

def createWalletChallenge (id clientId challenge : String) (purpose : ClientPurpose) :
    Option RecoveryDb := do
  let walletChallenges ←
    db.walletChallenges.insert ⟨id, clientId, purpose, challenge, false, now + TTL⟩
  return { db with walletChallenges := walletChallenges }

def consumeWalletChallenge (id clientId : String) (purpose : ClientPurpose) :
    Option (String × RecoveryDb) :=
  (consumeChallenge now db.walletChallenges id clientId purpose).map fun (row, t) =>
    (row.challenge, { db with walletChallenges := t })

/-! ## Codes -/

-- `ORDER BY created_at DESC LIMIT 1`
def newest {ρ : Type} (createdAt : ρ → Time) : List ρ → Option ρ
  | [] => none
  | r :: rest =>
    match newest createdAt rest with
    | some other => if createdAt r < createdAt other then some other else some r
    | none => some r

-- The earlier codes for the wallet and purpose are used up.
def createWalletEmailOtp (id walletAddress email : String) (purpose : OtpPurpose)
    (codeHash : String) : Option RecoveryDb := do
  let used : Table EmailOtp String EmailOtp.id := ⟨db.otps.rows.map fun row =>
      if row.walletAddress = lowerCase walletAddress ∧ row.purpose = purpose ∧
        row.consumedAt = none then { row with consumedAt := some now } else row, by
    rw [List.map_map]
    have hid : EmailOtp.id ∘ (fun row : EmailOtp =>
        if row.walletAddress = lowerCase walletAddress ∧ row.purpose = purpose ∧
          row.consumedAt = none then { row with consumedAt := some now } else row) =
        EmailOtp.id := by
      funext row
      simp only [Function.comp]
      split <;> rfl
    rw [hid]
    exact db.otps.nodup⟩
  let otps ← used.insert {
    id := id
    walletAddress := lowerCase walletAddress
    email := normalizeEmail email
    purpose := purpose
    codeHash := codeHash
    attempts := 0
    expiresAt := now + 2 * TTL
    consumedAt := none
    createdAt := now }
  return { db with otps := otps }

def MAX_ATTEMPTS : Nat := 5

def latestOtp (walletAddress email : String) (purpose : OtpPurpose) : Option EmailOtp :=
  newest EmailOtp.createdAt <| db.otps.rows.filter fun row =>
    row.walletAddress = lowerCase walletAddress ∧ row.email = normalizeEmail email ∧
      row.purpose = purpose ∧ row.consumedAt = none

def consumeWalletEmailOtp (walletAddress email : String) (purpose : OtpPurpose)
    (codeHash : String) : Bool × RecoveryDb :=
  match latestOtp db walletAddress email purpose with
  | none => (false, db)
  | some row =>
    if row.expiresAt < now ∨ MAX_ATTEMPTS ≤ row.attempts then (false, db)
    else
      let consumedAt := if row.codeHash = codeHash then some now else row.consumedAt
      (row.codeHash = codeHash, { db with
        otps := db.otps.modify row.id
          (fun row => { row with attempts := row.attempts + 1, consumedAt := consumedAt })
          fun _ => rfl })

/-! ## Jobs -/

structure NewJob where
  walletAddress : String
  chainId : String
  kind : JobKind
  newQx : Option String := none
  newQy : Option String := none
  cancelSignature : Option String := none

def newJob (id : String) (input : NewJob) : Job where
  id := id
  walletAddress := lowerCase input.walletAddress
  chainId := input.chainId
  kind := input.kind
  newQx := input.newQx
  newQy := input.newQy
  cancelSignature := input.cancelSignature
  status := .pending
  claimedBy := none
  claimedUntil := none
  version := 1
  txHash := none
  error := none
  createdAt := now

def createWalletRecoveryJob (id : String) (input : NewJob) : Option RecoveryDb := do
  let jobs ← db.jobs.insert (newJob now id input)
  return { db with jobs := jobs }

structure ClaimJob where
  id : String
  workerId : String
  expectedVersion : Int
  leaseMs : Time

def claimableJob (job : Job) (input : ClaimJob) : Bool :=
  job.version = input.expectedVersion ∧ (job.status = .pending ∨ job.status = .claimed) ∧
    (job.claimedBy = none ∨ job.claimedBy = some (lowerCase input.workerId) ∨
      job.claimedUntil.any (· < now))

def claimWalletRecoveryJob (input : ClaimJob) : Except HttpError RecoveryDb :=
  match (db.jobs.find? input.id).filter fun job => claimableJob now job input with
  | none => .error (httpError 409 "Recovery job claim conflict")
  | some _ => .ok { db with
      jobs := db.jobs.modify input.id
        (fun job => { job with
          claimedBy := some (lowerCase input.workerId)
          claimedUntil := some (now + input.leaseMs)
          status := .claimed
          version := job.version + 1 })
        fun _ => rfl }

structure TrackJob where
  id : String
  status : Option JobStatus
  txHash : Option String
  error : Option String
  expectedVersion : Option Number
  workerId : Option String

-- A status that ends the claim: final, or back in the queue.
def clearsClaim : Option JobStatus → Bool
  | some .included | some .failed | some .rejected | some .pending => true
  | _ => false

def trackedJob (input : TrackJob) (job : Job) : Job := { job with
  status := input.status.getD job.status
  txHash := input.txHash.or job.txHash
  error := input.error.or job.error
  version := job.version + 1
  claimedBy := if clearsClaim input.status then none else job.claimedBy
  claimedUntil := if clearsClaim input.status then none else job.claimedUntil }

theorem trackedJob_id (input : TrackJob) (job : Job) : (trackedJob input job).id = job.id := rfl

def trackWalletRecoveryJob (input : TrackJob) : Except HttpError RecoveryDb :=
  match db.jobs.find? input.id with
  | none => .error (httpError 404 "Recovery job not found")
  | some current =>
    if input.expectedVersion.any fun version => some current.version ≠ version then
      .error (httpError 409 "Recovery job version conflict")
    else if input.workerId.any fun worker =>
        current.claimedBy.any fun claimedBy => claimedBy ≠ "" ∧ claimedBy ≠ lowerCase worker then
      .error (httpError 409 "Recovery job claimed by another worker")
    else .ok { db with jobs := db.jobs.modify input.id (trackedJob input) (trackedJob_id input) }

/-! ## Requests -/

def getWalletRecoveryRequest (id : String) : Option Request := db.requests.find? id

def RequestStatus.active : RequestStatus → Bool
  | .awaitingEmail | .awaitingGuardian | .queued | .onChain => true
  | .completed | .cancelled | .rejected | .archived => false

def getActiveWalletRecoveryRequest (walletAddress : String) : Option Request :=
  newest Request.createdAt <| db.requests.rows.filter fun request =>
    request.walletAddress = lowerCase walletAddress ∧ request.status.active

-- `LIMIT 1` without an order.
def getWalletRecoveryRequestByJobId (jobId : String) : Option Request :=
  db.requests.rows.find? fun request => request.jobId = some jobId

structure NewRequest where
  walletAddress : String
  email : String
  newQx : String
  newQy : String
  credentialId : String
  deviceLabel : Option String
  newOwnerKind : NewOwnerKind
  newEoa : Option String
  status : RequestStatus
  emailVerifiedAt : Option Time
  chainId : String

def newRequest (id : String) (input : NewRequest) : Request where
  id := id
  walletAddress := lowerCase input.walletAddress
  email := normalizeEmail input.email
  newQx := input.newQx
  newQy := input.newQy
  credentialId := input.credentialId
  deviceLabel := input.deviceLabel
  newOwnerKind := input.newOwnerKind
  newEoa := input.newEoa.map lowerCase
  status := input.status
  emailVerifiedAt := input.emailVerifiedAt
  guardianAddress := none
  guardianActedAt := none
  jobId := none
  operatorPayload := none
  chainId := input.chainId
  createdAt := now

def createWalletRecoveryRequest (id : String) (input : NewRequest) : Option RecoveryDb := do
  let requests ← db.requests.insert (newRequest now id input)
  return { db with requests := requests }

structure RequestPatch where
  status : Option RequestStatus := none
  emailVerifiedAt : Option Time := none
  guardianAddress : Option String := none
  guardianActedAt : Option Time := none
  jobId : Option String := none
  operatorPayload : Option OperatorPayload := none

-- `COALESCE` of every column
def patched (patch : RequestPatch) (request : Request) : Request := { request with
  status := patch.status.getD request.status
  emailVerifiedAt := patch.emailVerifiedAt.or request.emailVerifiedAt
  guardianAddress := patch.guardianAddress.or request.guardianAddress
  guardianActedAt := patch.guardianActedAt.or request.guardianActedAt
  jobId := patch.jobId.or request.jobId
  operatorPayload := patch.operatorPayload.or request.operatorPayload }

theorem patched_id (patch : RequestPatch) (request : Request) :
    (patched patch request).id = request.id := rfl

def updateWalletRecoveryRequest (id : String) (patch : RequestPatch) : RecoveryDb :=
  { db with requests := db.requests.modify id (patched patch) (patched_id patch) }

/-! ## Guardian -/

def freshNonces : Table GuardianNonce (String × String) GuardianNonce.key :=
  db.guardianNonces.delete fun row => row.expiresAt < now

-- Issues a nonce, whatever the name says; one that is there already stays as it is.
def consumeGuardianNonce (address nonce : String) (ttlMs : Time) : RecoveryDb :=
  let fresh := freshNonces db now
  { db with guardianNonces := (fresh.insert ⟨lowerCase address, nonce, now + ttlMs⟩).getD fresh }

def takeGuardianNonce (address nonce : String) : Bool × RecoveryDb :=
  let fresh := freshNonces db now
  ((fresh.find? (lowerCase address, nonce)).isSome,
    { db with guardianNonces := fresh.delete fun row => row.key = (lowerCase address, nonce) })

def SESSION_TTL : Time := 12 * 60 * 60 * 1000

def createGuardianSession (tokenHash address : String) : Option RecoveryDb := do
  let guardianSessions ←
    db.guardianSessions.insert ⟨tokenHash, lowerCase address, now + SESSION_TTL⟩
  return { db with guardianSessions := guardianSessions }

-- An expired session is deleted when it is looked up.
def getGuardianSession (tokenHash : String) : Option GuardianSession × RecoveryDb :=
  match db.guardianSessions.find? tokenHash with
  | none => (none, db)
  | some row =>
    if row.expiresAt < now then (none, { db with
      guardianSessions := db.guardianSessions.delete fun row => row.tokenHash = tokenHash })
    else (some row, db)

end OnchainInvoice.Recovery
