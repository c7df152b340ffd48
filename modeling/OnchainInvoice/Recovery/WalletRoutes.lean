import OnchainInvoice.Recovery.HostedRoutes

/-!
# The wallet, client and operator routes of a recovery

What the recovery needs of `wallet-routes.ts`, `wallet-client-routes.ts` and `identity-routes.ts`:
device records, wallets found again by a passkey, the recoveries of API clients, the operators'
restores and the jobs of the deployer.
-/

namespace OnchainInvoice.Recovery

open Lib.Revert Lib.Tables Server WalletLog

variable (env : Env) (db : RecoveryDb)

/-! ## Devices -/

def DEFAULT_CHAIN : String := "11155111"

def postDevice (body : Body) (now : Time) : Reply :=
  match (str (body "walletAddress")).map lowerCase, normalizeHex32 (str (body "ownerQx")),
    normalizeHex32 (str (body "ownerQy")) with
  | some walletAddress, some ownerQx, some ownerQy =>
    accept { db with
      wallets := (upsertWalletDevice db.wallets now {
        walletAddress := walletAddress
        chainId := (str (body "chainId")).getD DEFAULT_CHAIN
        ownerQx := ownerQx
        ownerQy := ownerQy
        label := (str (body "label")).getD "Passkey"
        credentialId := str (body "credentialId") }).1 }
  | _, _, _ => refuse db 400 "walletAddress, ownerQx, ownerQy required"

-- A coordinate of the path may leave out its prefix.
def pathHex32 (part : String) : Option String :=
  if part = "" then none
  else normalizeHex32 (some (if ['0', 'x'].isPrefixOf part.toList then part else "0x" ++ part))

def deleteDevice (wallet ownerQx ownerQy : String) (chainId : Option String) (now : Time) : Reply :=
  let wallet := lowerCase (Server.trim wallet)
  match pathHex32 ownerQx, pathHex32 ownerQy with
  | some ownerQx, some ownerQy =>
    if wallet = "" then refuse db 400 "invalid path"
    else accept { db with
      wallets := (deleteWalletDevice db.wallets now wallet
        ((chainId.map Server.trim).getD DEFAULT_CHAIN) ownerQx ownerQy).1 }
  | _, _ => refuse db 400 "invalid path"

/-! ## Wallets found again -/

abbrev Coords := String × String

def pushOwnerCandidate (seen : List Coords) (candidate : Coords) : List Coords :=
  match normalizeHex32 (some candidate.1), normalizeHex32 (some candidate.2) with
  | some qx, some qy => if (qx, qy) ∈ seen then seen else seen ++ [(qx, qy)]
  | _, _ => seen

def sameRecoverOwner (a b : Coords) : Bool :=
  lowerCase a.1 = lowerCase b.1 ∧ lowerCase a.2 = lowerCase b.2

-- The first candidate that verifies and is an owner on the chain or, for a wallet that is not
-- deployed, is the owner its address is derived from.
def matchRecoveredWalletOwner (walletAddress factoryAddress implementationAddress : String)
    (candidates onChainOwners : List Coords) (verify : Coords → Bool) : Option Coords :=
  candidates.find? fun candidate => verify candidate ∧
    if onChainOwners ≠ [] then onChainOwners.any fun owner => sameRecoverOwner owner candidate
    else lowerCase (env.predictWalletAddress factoryAddress implementationAddress
      (env.deriveWalletSalt candidate.1 candidate.2)) = lowerCase walletAddress

-- `onChainOwners` is what `readWalletOwnersOnChain` answers.
def recoverCandidates (walletAddress : String) (body : Body) (onChainOwners : List Coords) :
    List Coords :=
  let given := normalizeHex32 (str (body "ownerQx"))
  let given' := normalizeHex32 (str (body "ownerQy"))
  let stored := (getWalletAccount db walletAddress).map fun account =>
    (account.ownerQx, account.ownerQy)
  ((given.bind fun qx => given'.map fun qy => (qx, qy)).toList ++ stored.toList ++
    onChainOwners).foldl pushOwnerCandidate []

structure RecoverChecked where
  walletAddress : String
  credentialId : String
  challengeId : String
  challenge : String
  owner : Coords

def checkRecoverAccount (input : Input) (onChainOwners : List Coords) :
    Except HttpError RecoverChecked := do
  let missing := httpError 400 "walletAddress, credentialId, challengeId required"
  let walletAddress ← orRevert missing
    (((str (input.body "walletAddress")).map lowerCase).filter fun w => isAddress env w)
  let credentialId ← orRevert missing (str (input.body "credentialId"))
  let challengeId ← orRevert missing (str (input.body "challengeId"))
  let assertion ← orRevert (httpError 400 "assertion required") input.assertion
  let expired := httpError 400 "invalid_or_expired_challenge"
  let challenge ← orRevert expired
    (consumeHostedRecoveryChallenge db input.now challengeId .record)
  let candidates := recoverCandidates db walletAddress input.body onChainOwners
  revertIf (candidates = []) (httpError 400 "owner_coordinates_required")
  let unconfigured := httpError 503 "wallet_factory_not_configured"
  let factoryAddress ← orRevert unconfigured env.factoryAddress
  let implementationAddress ← orRevert unconfigured env.implementationAddress
  let origins := if "*" ∈ env.corsOrigins then [] else env.corsOrigins
  let owner ← orRevert (httpError 400 "passkey_owner_mismatch") <|
    matchRecoveredWalletOwner env walletAddress factoryAddress implementationAddress candidates
      onChainOwners fun owner =>
        (verifyWebAuthnAssertion env assertion
          ⟨challenge.1, env.rpId, origins, owner.1, owner.2⟩).isOk
  return ⟨walletAddress, credentialId, challengeId, challenge.1, owner⟩

-- The record of the wallet, found again with the owner that was proven.
def recoveredWallets (input : Input) (onChainOwners : List Coords) (c : RecoverChecked) : WalletDb :=
  let chainId := (str (input.body "chainId")).getD env.chainId
  let salt := (((getWalletAccount db c.walletAddress).map WalletAccount.salt).filter
    (· ≠ "")).getD (env.deriveWalletSalt c.owner.1 c.owner.2)
  let wallets := (upsertWalletAccount db.wallets input.now {
    address := c.walletAddress
    salt := salt
    ownerQx := c.owner.1
    ownerQy := c.owner.2
    credentialId := some c.credentialId
    webauthnAttestation := none
    identityId := none
    label := none }).1
  let wallets := if onChainOwners ≠ [] then
    (markWalletDeployed wallets input.now c.walletAddress chainId).1 else wallets
  (upsertWalletDevice wallets input.now {
    walletAddress := c.walletAddress
    chainId := chainId
    ownerQx := c.owner.1
    ownerQy := c.owner.2
    label := (str (input.body "label")).getD "Recovered passkey"
    credentialId := some c.credentialId }).1

def recoverWalletAccount (input : Input) (onChainOwners : List Coords) : Reply :=
  match checkRecoverAccount env db input onChainOwners with
  | .error e => (.error e, db)
  | .ok c =>
    match consumeHostedRecoveryChallenge db input.now c.challengeId .record with
    | none => refuse db 400 "invalid_or_expired_challenge"
    | some (_, db) => accept { db with wallets := recoveredWallets env db input onChainOwners c }

/-! ## Clients of the API -/

-- The client that `requireWalletClient` finds.
structure Client where
  id : String
  rpId : String
  origins : List String

def clientPurposeOf (purpose : Option String) : Option ClientPurpose :=
  match purpose with
  | some "create" => some .create
  | some "recover" => some .recover
  | some "cancel" => some .cancel
  | _ => none

def clientChallenge (client : Client) (input : Input) : Reply :=
  match clientPurposeOf (str (input.body "purpose")) with
  | none => refuse db 400 "purpose must be create, recover, or cancel"
  | some purpose =>
    inserted db (createWalletChallenge db input.now input.newId client.id input.code purpose) accept

structure NewKey where
  challengeId : String
  ownerQx : String
  ownerQy : String
  credentialId : String

def newKey (missing : HttpError) (body : Body) (qx qy : Option String) : Except HttpError NewKey := do
  let challengeId ← orRevert missing (str (body "challengeId"))
  let ownerQx ← orRevert missing (normalizeHex32 qx)
  let ownerQy ← orRevert missing (normalizeHex32 qy)
  let credentialId ← orRevert missing (str (body "credentialId"))
  return ⟨challengeId, ownerQx, ownerQy, credentialId⟩

-- The challenge is used up whatever the assertion is.
def provenKey (client : Client) (input : Input) (purpose : ClientPurpose) (key : NewKey) :
    Reply :=
  match consumeWalletChallenge db input.now key.challengeId client.id purpose with
  | none => refuse db 400 "invalid_or_expired_challenge"
  | some (challenge, db) =>
    match input.assertion with
    | none => refuse db 400 "assertion required"
    | some assertion =>
      match verifyWebAuthnAssertion env assertion
        ⟨challenge, client.rpId, client.origins, key.ownerQx, key.ownerQy⟩ with
      | .error e => (.error e, db)
      | .ok () => accept db

def checkCreateWallet (body : Body) : Except HttpError (String × NewKey) := do
  let missing := httpError 400 "email, challengeId, ownerQx, ownerQy, credentialId required"
  let email ← orRevert missing (str (body "email"))
  let key ← newKey missing body (str (body "ownerQx")) (str (body "ownerQy"))
  return (email, key)

def createdAddress (factoryAddress implementationAddress : String) (key : NewKey) : String :=
  lowerCase (env.predictWalletAddress factoryAddress implementationAddress
    (env.deriveWalletSalt key.ownerQx key.ownerQy))

def createdWallets (address : String) (key : NewKey) (input : Input) (attestation : Option String) :
    WalletDb :=
  let wallets := (upsertWalletAccount db.wallets input.now {
    address := address
    salt := env.deriveWalletSalt key.ownerQx key.ownerQy
    ownerQx := key.ownerQx
    ownerQy := key.ownerQy
    credentialId := some key.credentialId
    webauthnAttestation := attestation
    identityId := none
    label := none }).1
  (upsertWalletDevice wallets input.now {
    walletAddress := address
    chainId := env.chainId
    ownerQx := key.ownerQx
    ownerQy := key.ownerQy
    label := (str (input.body "label")).getD "Passkey"
    credentialId := some key.credentialId }).1

def createClientWallet (client : Client) (input : Input) (attestation : Option String) : Reply :=
  match checkCreateWallet input.body with
  | .error e => (.error e, db)
  | .ok (email, key) =>
    match provenKey env db client input .create key with
    | (.error e, db) => (.error e, db)
    | (.ok (), db) =>
      match env.factoryAddress, env.implementationAddress with
      | some factoryAddress, some implementationAddress =>
        let address := createdAddress env factoryAddress implementationAddress key
        accept (upsertWalletIdentity
          { db with wallets := createdWallets env db address key input attestation }
          client.id email address)
      | _, _ => refuse db 503 "wallet_factory_not_configured"

def checkInitiate (client : Client) (wallet : String) (body : Body) (identityVerified : Bool) :
    Except HttpError NewKey := do
  let email ← orRevert (httpError 400 "email required") (str (body "email"))
  revertIf (!clientOwnsWalletForEmail db client.id email wallet)
    (httpError 403 "wallet_not_bound_to_client_email")
  revertIf (!identityVerified) (httpError 400 "identityVerified_required")
  newKey (httpError 400 "challengeId, ownerQx, ownerQy, credentialId required") body
    ((str (body "ownerQx")).or (str (body "newOwnerQx")))
    ((str (body "ownerQy")).or (str (body "newOwnerQy")))

def clientDevice (wallet : String) (key : NewKey) (body : Body) : WalletDevice where
  walletAddress := wallet
  chainId := (str (body "chainId")).getD env.chainId
  ownerQx := key.ownerQx
  ownerQy := key.ownerQy
  label := (str (body "label")).getD "Recovery device"
  credentialId := some key.credentialId

def clientInitiateJob (wallet : String) (key : NewKey) (body : Body) : NewJob where
  walletAddress := wallet
  chainId := (str (body "chainId")).getD env.chainId
  kind := .initiate
  newQx := some key.ownerQx
  newQy := some key.ownerQy

def initiateRecovery (client : Client) (wallet : String) (input : Input) (identityVerified : Bool) :
    Reply :=
  match checkInitiate db client wallet input.body identityVerified with
  | .error e => (.error e, db)
  | .ok key =>
    match provenKey env db client input .recover key with
    | (.error e, db) => (.error e, db)
    | (.ok (), db) =>
      let db := { db with
        wallets := (upsertWalletDevice db.wallets input.now
          (clientDevice env wallet key input.body)).1 }
      inserted db (createWalletRecoveryJob db input.now input.newId
        (clientInitiateJob env wallet key input.body)) accept

-- What `cancelRecovery` carries over while it waits for the chain.
structure ClientCancel where
  wallet : String
  client : Client
  challenge : String
  ownerQx : String
  ownerQy : String
  assertion : Assertion
  chainId : String

structure ClientCancelChecked where
  challengeId : String
  ownerQx : String
  ownerQy : String

-- The device with the credential or with the key of the body; the key of the body, each coordinate
-- on its own, before the device's.
def checkClientCancel (client : Client) (wallet : String) (body : Body) :
    Except HttpError ClientCancelChecked := do
  revertIf (!clientOwnsWallet db client.id wallet) (httpError 403 "wallet_not_bound_to_client")
  let missing := httpError 400 "challengeId and credentialId required"
  let challengeId ← orRevert missing (str (body "challengeId"))
  let credentialId ← orRevert missing (str (body "credentialId"))
  let ownerQx := normalizeHex32 (str (body "ownerQx"))
  let ownerQy := normalizeHex32 (str (body "ownerQy"))
  let device ← orRevert (httpError 403 "unknown_owner_device") <|
    (getWalletDeviceByCredentialId db credentialId wallet).or <|
      (listWalletDevices db wallet env.chainId).find? fun device =>
        ownerQx = some device.ownerQx ∧ ownerQy = some device.ownerQy
  return ⟨challengeId, ownerQx.getD device.ownerQx, ownerQy.getD device.ownerQy⟩

def startClientCancel (client : Client) (wallet : String) (input : Input) :
    Except HttpError ClientCancel × RecoveryDb :=
  match checkClientCancel env db client wallet input.body with
  | .error e => (.error e, db)
  | .ok c =>
    match consumeWalletChallenge db input.now c.challengeId client.id .cancel with
    | none => (.error (httpError 400 "invalid_or_expired_challenge"), db)
    | some (challenge, db) =>
      match input.assertion with
      | none => (.error (httpError 400 "assertion required"), db)
      | some assertion =>
        (.ok ⟨wallet, client, challenge, c.ownerQx, c.ownerQy, assertion,
          (str (input.body "chainId")).getD env.chainId⟩, db)

def ClientCancel.options (c : ClientCancel) (challenge : String) : VerifyOptions :=
  ⟨challenge, c.client.rpId, c.client.origins, c.ownerQx, c.ownerQy⟩

-- `digest` is the challenge of the owner that is pending on the chain, if it could be read.
def checkCancelAssertion (c : ClientCancel) (digest : Option String) : Except HttpError Unit :=
  match verifyWebAuthnAssertion env c.assertion (c.options (digest.getD c.challenge)) with
  | .ok () => .ok ()
  | .error e =>
    if digest.getD c.challenge ≠ c.challenge then
      verifyWebAuthnAssertion env c.assertion (c.options c.challenge)
    else .error e

def clientCancelJob (c : ClientCancel) : NewJob where
  walletAddress := c.wallet
  chainId := c.chainId
  kind := .cancel
  cancelSignature := some c.assertion.signature

def finishClientCancel (c : ClientCancel) (digest : Option String) (now : Time) (newId : String) :
    Reply :=
  match checkCancelAssertion env c digest with
  | .error e => (.error e, db)
  | .ok () => inserted db (createWalletRecoveryJob db now newId (clientCancelJob c)) accept

/-! ## Operators -/

-- `session` is the identity of the session, if there is one.
structure OperatorCall where
  session : Option String
  now : Time
  newId : String

-- `seen` is the payload when the request was read, before the body came.
def operatorSign (requestId : String) (call : OperatorCall) (seen : Option OperatorPayload)
    (body : Body) : Reply :=
  match call.session with
  | none => refuse db 401 "unauthorized"
  | some identityId =>
    match getWalletRecoveryRequest db requestId with
    | none => refuse db 404 "request_not_found"
    | some request =>
      match (str (body "signature")).or (str (body "blob")) with
      | none => refuse db 400 "signature_required"
      | some blob =>
        let payload : OperatorPayload := seen.getD ⟨none, none, []⟩
        let key := lowerCase identityId
        accept (updateWalletRecoveryRequest db request.id {
          operatorPayload := some {
            userOpHash := (str (body "userOpHash")).or payload.userOpHash
            userOp := (body "userOp").or payload.userOp
            blobs := (payload.blobs.filter fun b => b.1 ≠ key) ++ [(key, blob)] } })

def executeJob (request : Request) : NewJob where
  walletAddress := request.walletAddress
  chainId := request.chainId
  kind := .execute

-- Neither the caller nor the status of the request is looked at.
def operatorInitiated (requestId : String) (call : OperatorCall) : Reply :=
  match call.session with
  | none => refuse db 401 "unauthorized"
  | some identityId =>
    match getWalletRecoveryRequest db requestId with
    | none => refuse db 404 "request_not_found"
    | some request =>
      match (getWalletAccount db request.walletAddress).bind fun account =>
        account.identityId.filter (· ≠ "") with
      | none => refuse db 400 "not_identity_wallet"
      | some _ =>
        inserted db (createWalletRecoveryJob db call.now call.newId (executeJob request)) fun db =>
          accept (updateWalletRecoveryRequest db request.id {
            status := some .onChain
            guardianAddress := some identityId
            guardianActedAt := some call.now
            jobId := some call.newId })

/-! ## Jobs -/

-- `authorized`: the sweeper's API key is given.
def claimJob (authorized : Bool) (input : ClaimJob) (now : Time) : Reply :=
  if !authorized then refuse db 401 "Unauthorized"
  else
    match claimWalletRecoveryJob db now { input with leaseMs := env.leaseMs } with
    | .error e => (.error e, db)
    | .ok db => accept db

def trackJob (authorized : Bool) (input : TrackJob) (now : Time) : Reply :=
  if !authorized then refuse db 401 "Unauthorized"
  else
    match trackWalletRecoveryJob db input with
    | .error e => (.error e, db)
    | .ok db =>
      match input.status with
      | none => accept db
      | some status => accept (syncRequestFromJob env db input.id status now)

end OnchainInvoice.Recovery
