import OnchainInvoice.Recovery.WebAuthn

/-!
# The hosted recovery routes

`wallet-hosted-recovery.ts`.  A handler runs from one `await` to the next without another in
between; where it waits for the chain or for the mail in the middle of its work, what it carries
over is a value of its own.  What it waits for before it first looks at the database is an argument.
-/

namespace OnchainInvoice.Recovery

open Lib.Revert Lib.Tables Server WalletLog

-- The answer, and the database that is left.
abbrev Reply := Except HttpError Unit × RecoveryDb

def refuse (db : RecoveryDb) (statusCode : Nat) (error : String) : Reply :=
  (.error (httpError statusCode error), db)

def accept (db : RecoveryDb) : Reply := (.ok (), db)

-- A row whose id is taken makes the database throw.
def inserted (db : RecoveryDb) (row : Option RecoveryDb) (f : RecoveryDb → Reply) : Reply :=
  match row with
  | some db => f db
  | none => refuse db 500 "UNIQUE constraint failed"

variable (env : Env) (db : RecoveryDb)

-- What a handler is given beside the body: the outcome of `requireCaptcha`, the assertion, the
-- clock, and the ids and codes it draws.
structure Input where
  body : Body
  captcha : Bool
  assertion : Option Assertion
  now : Time
  newId : String
  otpId : String
  code : String

/-! ## Emails -/

structure AttachChecked where
  walletAddress : String
  email : String
  challengeId : String
  ownerQx : String
  ownerQy : String

-- The checks before the challenge is used.
def checkAttach (input : Input) : Except HttpError AttachChecked := do
  revertIf (!input.captcha) (httpError 400 "captcha_failed")
  let missing := httpError 400 "walletAddress, email, challengeId, ownerQx, ownerQy required"
  let walletAddress ← orRevert missing
    ((str (input.body "walletAddress")).filter fun w => isAddress env w)
  let email ← orRevert missing ((str (input.body "email")).map lowerCase)
  let challengeId ← orRevert missing (str (input.body "challengeId"))
  let ownerQx ← orRevert missing (normalizeHex32 (str (input.body "ownerQx")))
  let ownerQy ← orRevert missing (normalizeHex32 (str (input.body "ownerQy")))
  revertIf (!email.toList.contains '@') (httpError 400 "invalid_email")
  let account ← orRevert (httpError 404 "account_not_found") (getWalletAccount db walletAddress)
  revertIf (!((listWalletDevices db walletAddress env.chainId).any fun device =>
        device.ownerQx = ownerQx ∧ device.ownerQy = ownerQy) ∧
      !(account.ownerQx = ownerQx ∧ account.ownerQy = ownerQy))
    (httpError 403 "unknown_owner_device")
  return ⟨walletAddress, email, challengeId, ownerQx, ownerQy⟩

def attachEmail (input : Input) : Reply :=
  match checkAttach env db input with
  | .error e => (.error e, db)
  | .ok c =>
    match consumeHostedRecoveryChallenge db input.now c.challengeId .attach with
    | none => refuse db 400 "invalid_or_expired_challenge"
    | some (challenge, db) =>
      match input.assertion with
      | none => refuse db 400 "assertion required"
      | some assertion =>
        match verifyWebAuthnAssertion env assertion (hosted env challenge c.ownerQx c.ownerQy) with
        | .error e => (.error e, db)
        | .ok () =>
          let db := { db with
            wallets := (upsertWalletEmail db.wallets input.now c.walletAddress c.email none).1 }
          inserted db (createWalletEmailOtp db input.now input.otpId c.walletAddress c.email .attach
            (env.hashOtpCode input.code)) accept

def verifyEmailOtp (input : Input) : Reply :=
  if !input.captcha then refuse db 400 "captcha_failed"
  else
    match str (input.body "walletAddress"), (str (input.body "email")).map lowerCase,
      str (input.body "code") with
    | some walletAddress, some email, some code =>
      let (ok, db) := consumeWalletEmailOtp db input.now walletAddress email .attach
        (env.hashOtpCode code)
      if !ok then refuse db 400 "invalid_otp"
      else accept { db with
        wallets := (markWalletEmailVerified db.wallets input.now input.now walletAddress email).1 }
    | _, _, _ => refuse db 400 "walletAddress, email, code required"

/-! ## Email sessions -/

def emailLookupOtpWallet (email : String) : String := "email:" ++ lowerCase (Server.trim email)

-- Whether `walletsForRecoveryEmail` has any.
def hasWalletsForRecoveryEmail (email : String) : Bool :=
  (db.wallets.emails.rows.any fun row =>
    row.email = normalizeEmail email ∧ row.verifiedAt.isSome) ∨
  db.wallets.identities.rows.any fun identity =>
    identity.email = normalizeEmail email ∧ db.wallets.accounts.rows.any fun account =>
      account.identityId = some identity.identityId

-- `restoreEnabled` is the answer of the chain.
def startRecoveryEmailLookup (input : Input) (restoreEnabled : Bool) : Reply :=
  if !input.captcha then refuse db 400 "captcha_failed"
  else
    match ((str (input.body "email")).map lowerCase).filter fun email =>
      email.toList.contains '@' with
    | none => refuse db 400 "invalid_email"
    | some email =>
      if !restoreEnabled then refuse db 403 "restore_disabled"
      else if hasWalletsForRecoveryEmail db email then
        inserted db (createWalletEmailOtp db input.now input.otpId (emailLookupOtpWallet email) email
          .recover (env.hashOtpCode input.code)) accept
      else accept db

def verifyRecoveryEmailLookup (input : Input) : Reply :=
  match ((str (input.body "email")).map lowerCase).filter (fun email => email.toList.contains '@'),
    str (input.body "code") with
  | some email, some code =>
    let (ok, db) := consumeWalletEmailOtp db input.now (emailLookupOtpWallet email) email .recover
      (env.hashOtpCode code)
    if !ok then refuse db 400 "invalid_otp" else accept db
  | _, _ => refuse db 400 "email and code required"

/-! ## Challenges -/

def purposeOf (purpose : Option String) : Option HostedPurpose :=
  match purpose with
  | some "attach" => some .attach
  | some "recover" => some .recover
  | some "cancel" => some .cancel
  | some "record" => some .record
  | _ => none

def recoveryChallenge (input : Input) : Reply :=
  match purposeOf (str (input.body "purpose")) with
  | none => refuse db 400 "purpose must be attach, recover, cancel, or record"
  | some purpose =>
    inserted db (createHostedRecoveryChallenge db input.now input.newId input.code purpose) accept

/-! ## Requests -/

def parseOwnerKind (value : Option String) : NewOwnerKind :=
  match value with
  | some "yubikey" => .yubikey
  | some "eoa" => .eoa
  | _ => .webauthn

def ZERO_PUBKEY : String := String.ofList ('0' :: 'x' :: List.replicate 64 '0')

def ZERO_ADDRESS : String := String.ofList ('0' :: 'x' :: List.replicate 40 '0')

-- What `createRecoveryRequest` carries from one wallet to the next.
structure Creation where
  wallets : List String
  sessionEmail : Option String
  emailInput : Option String
  ownerKind : NewOwnerKind
  challenge : String
  ownerQx : String
  ownerQy : String
  credentialId : String
  newEoa : Option (String × String)
  chainId : String
  deviceLabel : String
  now : Time

-- `findWalletByVerifiedEmail`; `latest` is the wallet that was updated last.
def walletByVerifiedEmail (email : String) (latest : Option String) : Option String :=
  latest.filter fun walletAddress => db.wallets.emails.rows.any fun row =>
    row.walletAddress = walletAddress ∧ row.email = normalizeEmail email ∧ row.verifiedAt.isSome

-- The wallets that are asked for; `sessionEmail` is what `verifyRecoveryEmailSession` answers.
def requestedWallets (input : Input) (sessionEmail latest : Option String)
    (walletAddresses : List String) : Except HttpError (List String) := do
  revertIf (sessionEmail.isNone ∧ !input.captcha) (httpError 400 "captcha_failed")
  let emailInput := (str (input.body "email")).map lowerCase
  let fromArray := walletAddresses.filterMap env.getAddress
  let single := (str (input.body "walletAddress")).or <|
    if fromArray = [] ∧ sessionEmail.isNone then emailInput.bind fun email =>
      walletByVerifiedEmail db email latest
    else none
  let wallets := if fromArray ≠ [] then fromArray else ((single.bind env.getAddress).toList)
  revertIf (wallets = []) (httpError 400 "walletAddress or walletAddresses required")
  return wallets

-- The new owner, once the challenge is used: an address whose signatures are checked for each
-- wallet, or a key that signed the challenge.
def newOwner (input : Input) (ownerKind : NewOwnerKind) (challenge : String) :
    Except HttpError (String × String × String × Option (String × String)) :=
  match ownerKind with
  | .eoa => do
    let missing := httpError 400 "eoaAddress and eoaSignature required"
    let eoa ← orRevert missing ((str (input.body "eoaAddress")).bind env.getAddress)
    let signature ← orRevert missing (str (input.body "eoaSignature"))
    revertIf (env.recoveredByMessage challenge signature = some eoa)
      (httpError 400 "eoa_personal_sign_rejected")
    return (ZERO_PUBKEY, ZERO_PUBKEY, "eoa:" ++ lowerCase eoa, some (eoa, signature))
  | _ => do
    let missing := httpError 400 "ownerQx, ownerQy, credentialId required"
    let qx ← orRevert missing
      (normalizeHex32 ((str (input.body "ownerQx")).or (str (input.body "newOwnerQx"))))
    let qy ← orRevert missing
      (normalizeHex32 ((str (input.body "ownerQy")).or (str (input.body "newOwnerQy"))))
    let credentialId ← orRevert missing (str (input.body "credentialId"))
    let assertion ← orRevert (httpError 400 "assertion required") input.assertion
    verifyWebAuthnAssertion env assertion (hosted env challenge qx qy)
    return (qx, qy, credentialId, none)

-- The part of `createRecoveryRequest` between the answers of the chain about the wallets and its
-- loop over them.
def startCreation (input : Input) (sessionEmail : Option String) (wallets : List String)
    (restoreEnabled : Bool) : Except HttpError Creation × RecoveryDb :=
  if !restoreEnabled then (.error (httpError 403 "restore_disabled"), db)
  else
    let ownerKind :=
      parseOwnerKind ((str (input.body "ownerKind")).or (str (input.body "newOwnerKind")))
    match str (input.body "challengeId") with
    | none => (.error (httpError 400 "challengeId required"), db)
    | some challengeId =>
      match consumeHostedRecoveryChallenge db input.now challengeId .recover with
      | none => (.error (httpError 400 "invalid_or_expired_challenge"), db)
      | some (challenge, db) =>
        match newOwner env input ownerKind challenge with
        | .error e => (.error e, db)
        | .ok (qx, qy, credentialId, newEoa) =>
          (.ok {
            wallets := wallets
            sessionEmail := sessionEmail
            emailInput := (str (input.body "email")).map lowerCase
            ownerKind := ownerKind
            challenge := challenge
            ownerQx := qx
            ownerQy := qy
            credentialId := credentialId
            newEoa := newEoa
            chainId := (str (input.body "chainId")).getD env.chainId
            deviceLabel := (str (input.body "label")).getD
              (if ownerKind = .eoa then "Recovery wallet" else "Recovery device")
            now := input.now }, db)

-- Whether a wallet of the loop is skipped before the chain is asked about it.
def skipped (c : Creation) (wallet : String) : Bool :=
  (getWalletAccount db wallet).isNone ∨ (getActiveWalletRecoveryRequest db wallet).isSome ∨
    c.newEoa.any fun eoa =>
      env.recoveredByTypedData wallet c.challenge eoa.1 c.chainId eoa.2 ≠ some eoa.1

-- The row for a wallet that is not skipped; `none` if the session is for another email.
def creationRow (c : Creation) (wallet : String) : Option NewRequest :=
  let record := getWalletEmail db wallet
  let verified (email : String) : Bool :=
    record.any fun row => row.verifiedAt.isSome ∧ row.email = email
  if c.sessionEmail.any fun email => !verified email then none
  else
    let email := ((c.sessionEmail.or c.emailInput).or (record.map WalletEmail.email)).filter (· ≠ "")
    let emailVerified := c.sessionEmail.isSome ∨ email.any verified
    some {
      walletAddress := wallet
      email := email.getD ""
      newQx := c.ownerQx
      newQy := c.ownerQy
      credentialId := c.credentialId
      deviceLabel := some c.deviceLabel
      newOwnerKind := c.ownerKind
      newEoa := c.newEoa.map Prod.fst
      status := if email.isSome ∧ ¬ emailVerified then .awaitingEmail else .awaitingGuardian
      emailVerifiedAt := if emailVerified ∨ email.isNone then some c.now else none
      chainId := c.chainId }

-- The rest of the loop's round; `existingOwner` says that the chain has the address as an owner.
def createRow (c : Creation) (wallet : String) (existingOwner : Bool) (input : Input) : Reply :=
  if existingOwner then accept db
  else
    match creationRow db c wallet with
    | none => accept db
    | some row =>
      inserted db (createWalletRecoveryRequest db input.now input.newId row) fun db =>
        if row.status = .awaitingEmail then
          inserted db (createWalletEmailOtp db input.now input.otpId wallet row.email .recover
            (env.hashOtpCode input.code)) accept
        else accept db

def verifyRecoveryEmail (requestId : String) (input : Input) : Reply :=
  if !input.captcha then refuse db 400 "captcha_failed"
  else
    match getWalletRecoveryRequest db requestId with
    | none => refuse db 404 "request_not_found"
    | some request =>
      if request.status ≠ .awaitingEmail then refuse db 400 "not_awaiting_email"
      else
        match str (input.body "code") with
        | none => refuse db 400 "code required"
        | some code =>
          let (ok, db) := consumeWalletEmailOtp db input.now request.walletAddress request.email
            .recover (env.hashOtpCode code)
          if !ok then refuse db 400 "invalid_otp"
          else
            let db := { db with
              wallets := (markWalletEmailVerified db.wallets input.now input.now
                request.walletAddress request.email).1 }
            accept (updateWalletRecoveryRequest db request.id {
              status := some .awaitingGuardian, emailVerifiedAt := some input.now })

/-! ## Cancellation -/

def RequestStatus.final : RequestStatus → Bool
  | .completed | .archived | .cancelled | .rejected => true
  | .awaitingEmail | .awaitingGuardian | .queued | .onChain => false

-- The key of the body, else the device's with the credential or the key of the body, else the
-- account's owner; each coordinate on its own.
def cancelKey (request : Request) (body : Body) (credentialId : String) :
    Option (String × String) := do
  let ownerQx := normalizeHex32 (str (body "ownerQx"))
  let ownerQy := normalizeHex32 (str (body "ownerQy"))
  let device := (getWalletDeviceByCredentialId db credentialId request.walletAddress).or <|
    (listWalletDevices db request.walletAddress env.chainId).find? fun device =>
      ownerQx = some device.ownerQx ∧ ownerQy = some device.ownerQy
  let account := getWalletAccount db request.walletAddress
  let qx ← ((ownerQx.or (device.map WalletDevice.ownerQx)).or
    (account.map WalletAccount.ownerQx)).filter (· ≠ "")
  let qy ← ((ownerQy.or (device.map WalletDevice.ownerQy)).or
    (account.map WalletAccount.ownerQy)).filter (· ≠ "")
  return (qx, qy)

structure CancelChecked where
  request : Request
  challengeId : String
  ownerQx : String
  ownerQy : String

def checkCancel (requestId : String) (input : Input) : Except HttpError CancelChecked := do
  revertIf (!input.captcha) (httpError 400 "captcha_failed")
  let request ← orRevert (httpError 404 "request_not_found") (getWalletRecoveryRequest db requestId)
  revertIf request.status.final (httpError 400 "not_cancellable")
  let missing := httpError 400 "challengeId and credentialId required"
  let challengeId ← orRevert missing (str (input.body "challengeId"))
  let credentialId ← orRevert missing (str (input.body "credentialId"))
  let key ← orRevert (httpError 403 "unknown_owner_device")
    (cancelKey env db request input.body credentialId)
  return ⟨request, challengeId, key.1, key.2⟩

-- `JSON.stringify(assertion)` is left as the assertion's signature.
def cancelSignature (body : Body) (assertion : Assertion) : String :=
  (str (body "authorization")).getD assertion.signature

def cancelJob (request : Request) (body : Body) (assertion : Assertion) : NewJob where
  walletAddress := request.walletAddress
  chainId := request.chainId
  kind := .cancel
  cancelSignature := some (cancelSignature body assertion)

def cancelRequest (request : Request) (input : Input) (assertion : Assertion) : Reply :=
  if request.status = .onChain ∨ request.status = .queued then
    inserted db (createWalletRecoveryJob db input.now input.newId
      (cancelJob request input.body assertion)) fun db =>
        accept (updateWalletRecoveryRequest db request.id {
          status := some .cancelled, jobId := some input.newId })
  else accept (updateWalletRecoveryRequest db request.id { status := some .cancelled })

def cancelRecoveryRequest (requestId : String) (input : Input) : Reply :=
  match checkCancel env db requestId input with
  | .error e => (.error e, db)
  | .ok c =>
    match consumeHostedRecoveryChallenge db input.now c.challengeId .cancel with
    | none => refuse db 400 "invalid_or_expired_challenge"
    | some (challenge, db) =>
      match input.assertion with
      | none => refuse db 400 "assertion required"
      | some assertion =>
        match verifyWebAuthnAssertion env assertion (hosted env challenge c.ownerQx c.ownerQy) with
        | .error e => (.error e, db)
        | .ok () => cancelRequest db c.request input assertion

/-! ## Guardian -/

-- `guardian` is what `resolveGuardianAddress` answers.
def isGuardian (address : String) (guardian : Option String) : Bool :=
  guardian.any fun guardian =>
    (env.getAddress address).isSome ∧ env.getAddress address = env.getAddress guardian

def guardianNonce (address nonce : String) (guardian : Option String) (now : Time) : Reply :=
  let address := Server.trim address
  if !isAddress env address then refuse db 400 "address required"
  else if !isGuardian env address guardian then refuse db 403 "not_guardian"
  else accept (consumeGuardianNonce db now address nonce (10 * 60 * 1000))

-- `message.includes(part)`
def includes (message part : String) : Bool :=
  message.toList.tails.any fun rest => part.toList.isPrefixOf rest

structure LoginCall where
  address : String
  signature : String
  message : String
  nonce : String
deriving DecidableEq

def loginCall (body : Body) : Option LoginCall := do
  let address ← str (body "address")
  let signature ← str (body "signature")
  let message ← str (body "message")
  let nonce ← str (body "nonce")
  return ⟨address, signature, message, nonce⟩

def checkLogin (call : LoginCall) : Except HttpError Unit := do
  let invalid := httpError 401 "invalid_signature"
  let recovered ← orRevert invalid
    ((env.verifyMessage call.message call.signature).bind env.getAddress)
  revertIf (some recovered ≠ env.getAddress call.address) invalid
  revertIf (!includes call.message call.nonce ∨ !includes (lowerCase call.message) "guardian")
    (httpError 401 "invalid_message")

-- `token` is drawn at random.
def guardianLogin (body : Body) (guardian : Option String) (token : String) (now : Time) : Reply :=
  match loginCall body with
  | none => refuse db 400 "address, signature, message, nonce required"
  | some call =>
    if !isGuardian env call.address guardian then refuse db 403 "not_guardian"
    else
      let (ok, db) := takeGuardianNonce db now call.address call.nonce
      if !ok then refuse db 401 "invalid_or_reused_nonce"
      else
        match checkLogin env call with
        | .error e => (.error e, db)
        | .ok () =>
          inserted db (createGuardianSession db now (env.hashToken token) call.address) accept

-- What a guardian asks for, and what it is given while it is done.
inductive GuardianAction
  | approve (requestId : String)
  | reject (requestId : String)

structure GuardianCall where
  session : GuardianSession
  guardian : Option String
  now : Time
  newId : String

def requireGuardian (call : GuardianCall) : Except HttpError Unit :=
  revertIf (!isGuardian env call.session.address call.guardian) (httpError 403 "not_guardian")

def checkApprove (requestId : String) (call : GuardianCall) : Except HttpError Request := do
  requireGuardian env call
  let request ← orRevert (httpError 404 "request_not_found") (getWalletRecoveryRequest db requestId)
  revertIf (request.status ≠ .awaitingGuardian) (httpError 400 "not_awaiting_guardian")
  revertIf (request.emailVerifiedAt.isNone ∧ request.email ≠ "")
    (httpError 400 "email_not_verified")
  revertIf (request.newOwnerKind = .eoa ∨ isZeroPubkey request.newQx request.newQy)
    (httpError 400 "eoa_new_owner_manual")
  return request

def initiateJob (request : Request) : NewJob where
  walletAddress := request.walletAddress
  chainId := request.chainId
  kind := .initiate
  newQx := some request.newQx
  newQy := some request.newQy

def recoveryDevice (request : Request) : WalletDevice where
  walletAddress := request.walletAddress
  chainId := request.chainId
  ownerQx := request.newQx
  ownerQy := request.newQy
  label := (request.deviceLabel.filter (· ≠ "")).getD "Recovery device"
  credentialId := some request.credentialId

def approve (requestId : String) (call : GuardianCall) : Reply :=
  match checkApprove env db requestId call with
  | .error e => (.error e, db)
  | .ok request =>
    inserted db (createWalletRecoveryJob db call.now call.newId (initiateJob request)) fun db =>
      let db := { db with
        wallets := (upsertWalletDevice db.wallets call.now (recoveryDevice request)).1 }
      accept (updateWalletRecoveryRequest db request.id {
        status := some .queued
        guardianAddress := some call.session.address
        guardianActedAt := some call.now
        jobId := some call.newId })

def checkReject (requestId : String) (call : GuardianCall) : Except HttpError Request := do
  requireGuardian env call
  let request ← orRevert (httpError 404 "request_not_found") (getWalletRecoveryRequest db requestId)
  revertIf (request.status ≠ .awaitingGuardian ∧ request.status ≠ .awaitingEmail)
    (httpError 400 "not_rejectable")
  return request

def reject (requestId : String) (call : GuardianCall) : Reply :=
  match checkReject env db requestId call with
  | .error e => (.error e, db)
  | .ok request =>
    accept (updateWalletRecoveryRequest db request.id {
      status := some .rejected
      guardianAddress := some call.session.address
      guardianActedAt := some call.now })

def guardianAction (action : GuardianAction) (call : GuardianCall) : Reply :=
  match action with
  | .approve requestId => approve env db requestId call
  | .reject requestId => reject env db requestId call

/-! ## Jobs -/

-- The method of a request whose key is on the chain.
def indexRestoredIdentityMethod (request : Request) (now : Time) : RecoveryDb :=
  match (getWalletAccount db request.walletAddress).bind fun account =>
    account.identityId.filter (· ≠ "") with
  | none => db
  | some identityId =>
    match request.newOwnerKind, request.newEoa.filter (· ≠ "") with
    | .eoa, none => db
    | .eoa, some eoa => { db with
        wallets := (insertIdentityMethod db.wallets now now {
          id := env.computeIdentityMethodId identityId .eoa ZERO_PUBKEY ZERO_PUBKEY eoa
          identityId := identityId
          kind := .eoa
          credentialId := some request.credentialId
          qx := none
          qy := none
          eoa := some eoa }).1 }
    | _, _ =>
      if request.newQx = "" ∨ request.newQy = "" ∨ request.credentialId = "" then db
      else { db with
        wallets := (insertIdentityMethod db.wallets now now {
          id := env.computeIdentityMethodId identityId .webauthn request.newQx request.newQy
            ZERO_ADDRESS
          identityId := identityId
          kind := .webauthn
          credentialId := some request.credentialId
          qx := some request.newQx
          qy := some request.newQy
          eoa := none }).1 }

-- Nothing is done for a job that failed or was rejected.
def syncRequestFromJob (jobId : String) (status : JobStatus) (now : Time) : RecoveryDb :=
  match getWalletRecoveryRequestByJobId db jobId with
  | none => db
  | some request =>
    if status ≠ .included then db
    else
      match (db.jobs.find? jobId).map Job.kind with
      | some .initiate => updateWalletRecoveryRequest db request.id { status := some .onChain }
      | some .execute =>
        let db := indexRestoredIdentityMethod env db request now
        let db := updateWalletRecoveryRequest db request.id { status := some .completed }
        updateWalletRecoveryRequest db request.id { status := some .archived }
      | some .cancel => updateWalletRecoveryRequest db request.id { status := some .cancelled }
      | none => db

end OnchainInvoice.Recovery
