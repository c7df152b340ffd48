import Mathlib.Logic.Function.Basic
import OnchainInvoice.Lib.Histories
import OnchainInvoice.Recovery.RecoveryDb
import OnchainInvoice.Session.IdentityOnChain
import OnchainInvoice.WebAuthn.CredentialIds

/-!
# The identity routes

`identity-routes.ts`, with the lookups of `db.ts` that only these routes use.  A call of a route is
one step.  The routes that only read (`email/lookup`, `me`, `recover/session`,
`recover/security-keys`, `pair/ready`, the lists) are left out, and of an answer only its error.
-/

namespace OnchainInvoice.IdentityRoutes

open Lib.Json Lib.Revert Lib.Tables Server WalletLog
open Recovery (EmailOtp Job RecoveryDb Request consumeWalletEmailOtp createWalletEmailOtp)
open Session (RecoverPayload ProvingKind)
open WebAuthn (getIdentityMethodByCredentialId)

/-! ## Bodies -/

-- `body.name`, where null counts as missing.
def field (body : Value) (name : String) : Option Value :=
  match body.get? name.toList with
  | some .null => none
  | value => value

def str (value : Option Value) : Option String :=
  match value with
  | some (.string text) => some (trim (String.ofList text)) |>.filter (· ≠ "")
  | _ => none

-- `isHexString(v, 32)` of a text in lower case
def isHexWord (s : String) : Bool :=
  match s.toList with
  | '0' :: 'x' :: digits =>
    digits.length = 64 ∧ digits.all fun c => c.isDigit ∨ ('a' ≤ c ∧ c ≤ 'f')
  | _ => false

def normalizeQxQy (value : Option Value) : Option String :=
  match value with
  | some (.string text) => some (lowerCase (trim (String.ofList text))) |>.filter (isHexWord ·)
  | _ => none

def bodyQx (body : Value) : Option String :=
  normalizeQxQy ((field body "qx").or (field body "ownerQx"))

def bodyQy (body : Value) : Option String :=
  normalizeQxQy ((field body "qy").or (field body "ownerQy"))

-- `str(body.email)?.toLowerCase()`, if it has an `@`
def emailOf (body : Value) : Option String :=
  ((str (field body "email")).map lowerCase).filter fun email => email.toList.contains '@'

def kindOf (body : Value) : IdentityMethodKind :=
  match str (field body "kind") with
  | some "yubikey" => .yubikey
  | some "eoa" => .eoa
  | _ => .webauthn

def identityOtpWallet (email : String) : String := "identity:" ++ lowerCase (trim email)

/-! ## Lookups -/

section Lookups

variable (db : WalletDb)

def getIdentityById (identityId : String) : Option Identity := db.identities.find? identityId

def getIdentityByEmail (email : String) : Option Identity :=
  db.identities.rows.find? fun identity => identity.email = normalizeEmail email

def getIdentityByGoogleSub (sub : String) : Option Identity :=
  db.identities.rows.find? fun identity => identity.googleSub = some sub

def listIdentityMethods (identityId : String) : List IdentityMethod :=
  db.methods.rows.filter fun method => method.identityId = identityId

def methodCount (identityId : String) (kind : IdentityMethodKind) : Nat :=
  (listIdentityMethods db identityId).countP fun method => method.kind = kind

-- `counts.webauthn + counts.yubikey + counts.eoa > 0`
def hasMethod (identityId : String) : Bool :=
  0 < methodCount db identityId .webauthn + methodCount db identityId .yubikey +
    methodCount db identityId .eoa

def getIdentityMethodByPublicKey (qx qy : String) : Option IdentityMethod :=
  db.methods.rows.find? fun method =>
    method.qx.map sqlLower = some qx ∧ method.qy.map sqlLower = some qy

def getIdentityMethodByEoa (eoa : String) : Option IdentityMethod :=
  let needle := lowerCase (trim eoa)
  if ¬['0', 'x'].isPrefixOf needle.toList ∨ needle.length ≠ 42 then none
  else db.methods.rows.find? fun method =>
    method.kind = .eoa ∧ method.eoa.map sqlLower = some needle

def identityFromCredentialId (credentialId : String) : Option Identity :=
  (getIdentityMethodByCredentialId db credentialId).bind fun method =>
    getIdentityById db method.identityId

def listWalletAccountsByIdentityId (identityId : String) : List WalletAccount :=
  db.accounts.rows.filter fun account => account.identityId = some identityId

-- `identityId` is what `randomIdentityId` draws.  Fails where SQLite does.
def getOrCreateIdentityByEmail (identityId : String) (now : Time) (email : String)
    (googleSub : Option String) : Option (Identity × WalletDb) :=
  match getIdentityByEmail db email with
  | some existing => do
    let db := if present googleSub && !present existing.googleSub
      then (setIdentityGoogleSub db now existing.identityId (googleSub.getD "")).1 else db
    let identity ← getIdentityById db existing.identityId
    return (identity, db)
  | none => do
    let (db, _) ← upsertIdentity db now now {
      identityId := identityId
      email := email
      googleSub := googleSub
      createdAt := none }
    let identity ← getIdentityById db identityId
    return (identity, db)

end Lookups

/-! ## The server -/

structure RecoverChallenge where
  challenge : String
  exp : Time

structure IdentityServer where
  db : RecoveryDb
  recoverChallenges : String → Option RecoverChallenge
  store : IdentityStore.State

-- What `readIdentitySessionFromRequest` answers.
structure IdentitySession where
  identityId : String
  email : String
deriving DecidableEq

-- What a handler is given beside the body: `clientIp`, the outcomes of `requireCaptcha` and
-- `takeToken`, the sessions, the clock, and what it draws at random.
structure Input where
  client : String
  body : Value
  captcha : Bool
  withinRate : Bool
  session : Option IdentitySession
  recover : Option RecoverPayload
  now : Time
  drawn : String
  otpId : String
  code : String
  rpc : Rpc

-- The cookies that a route sets: an identity session or a session of a recovery.
inductive Token
  | identity (identityId email : String)
  | recover (payload : RecoverPayload)
deriving DecidableEq

def Token.identityId : Token → String
  | .identity identityId _ => identityId
  | .recover payload => payload.identityId

structure Outcome where
  answer : Except HttpError Unit
  token : Option Token
  server : IdentityServer

def refuse (s : IdentityServer) (statusCode : Nat) (error : String) : Outcome :=
  ⟨.error (httpError statusCode error), none, s⟩

def fail (s : IdentityServer) (e : HttpError) : Outcome := ⟨.error e, none, s⟩

def accept (s : IdentityServer) : Outcome := ⟨.ok (), none, s⟩

def IdentityServer.withWallets (s : IdentityServer) (wallets : WalletDb) : IdentityServer :=
  { s with db := { s.db with wallets := wallets } }

-- `issueSessionCookie`
def issueSession (o : Outcome) (identityId email : String) : Outcome :=
  { o with token := some (.identity identityId email) }

def IdentityServer.insertMethod (s : IdentityServer) (now : Time) (row : IdentityMethod) :
    IdentityServer :=
  s.withWallets (insertIdentityMethod s.db.wallets now now row).1

variable (env : Env) (s : IdentityServer) (input : Input)

/-! ## Emails -/

def emailStart : Outcome :=
  if !input.captcha then refuse s 400 "captcha_failed"
  else
    match emailOf input.body with
    | none => accept s
    | some email =>
      if (getIdentityByEmail s.db.wallets email).any fun identity =>
          hasMethod s.db.wallets identity.identityId then accept s
      else
        match createWalletEmailOtp s.db input.now input.otpId (identityOtpWallet email) email .login
          (env.hashOtpCode input.code) with
        | none => refuse s 500 "UNIQUE constraint failed"
        | some db => accept { s with db := db }

def emailVerify : Outcome :=
  match emailOf input.body, str (field input.body "code") with
  | some email, some code =>
    let (ok, db) := consumeWalletEmailOtp s.db input.now (identityOtpWallet email) email .login
      (env.hashOtpCode code)
    let s := { s with db := db }
    if !ok then refuse s 400 "invalid_otp"
    else
      match getOrCreateIdentityByEmail s.db.wallets input.drawn input.now email none with
      | none => refuse s 500 "UNIQUE constraint failed"
      | some (identity, wallets) =>
        issueSession (accept (s.withWallets wallets)) identity.identityId identity.email
  | _, _ => refuse s 400 "email_and_code_required"

/-! ## Google -/

structure GoogleIdClaims where
  sub : String
  email : String
deriving DecidableEq

-- The query, the cookie, and the token that Google answers the code with.
structure OAuthReply where
  code : String
  state : String
  cookieState : String
  idToken : Except HttpError Text

def isTrue (value : Option Value) : Bool :=
  match value with
  | some (.bool b) => b
  | some (.string text) => text = "true".toList
  | _ => false

def parseGoogleIdToken (idToken : Text) : Except HttpError GoogleIdClaims := do
  let invalid := httpError 400 "invalid_id_token"
  let part ← orRevert invalid (idToken.splitOn '.')[1]?
  let payload ← orRevert invalid (parse (env.tokens.ofBase64url part))
  revertIf (match payload with | .null => true | _ => false)
    (httpError 500 "Cannot read properties of null (reading 'email')")
  let text (name : String) : String :=
    match payload.get? name.toList with
    | some (.string text) => String.ofList text
    | _ => ""
  let email := lowerCase (trim (text "email"))
  let sub := text "sub"
  revertIf (!email.toList.contains '@' ∨ sub = "") invalid
  revertIf (!isTrue (payload.get? "email_verified".toList)) (httpError 400 "email_not_verified")
  return ⟨sub, email⟩

-- The claims of a login that Google has confirmed.
def googleClaims (q : OAuthReply) : Except HttpError GoogleIdClaims := do
  revertIf (q.code = "" ∨ q.state = "" ∨ q.cookieState ≠ q.state ∨
      !Session.verifyOAuthState env.tokens env.secret (some q.state.toList) input.now)
    (httpError 400 "invalid_oauth_state")
  let idToken ← q.idToken
  parseGoogleIdToken env idToken

-- `existingBySub ?? existingByEmail ?? db.getOrCreateIdentityByEmail(claims.email, claims.sub)`
def googleIdentity (db : WalletDb) (identityId : String) (now : Time) (claims : GoogleIdClaims) :
    Option (Identity × WalletDb) :=
  match (getIdentityByGoogleSub db claims.sub).or (getIdentityByEmail db claims.email) with
  | some identity => some (identity, db)
  | none => getOrCreateIdentityByEmail db identityId now claims.email (some claims.sub)

def googleCallback (q : OAuthReply) : Outcome :=
  match googleClaims env input q with
  | .error e => fail s e
  | .ok claims =>
    let bySub := getIdentityByGoogleSub s.db.wallets claims.sub
    let byEmail := getIdentityByEmail s.db.wallets claims.email
    if bySub.any fun a => byEmail.any fun b => a.identityId ≠ b.identityId then
      refuse s 409 "identity_conflict"
    else
      match googleIdentity s.db.wallets input.drawn input.now claims with
      | none => refuse s 500 "UNIQUE constraint failed"
      | some (identity, wallets) =>
        let wallets := if present identity.googleSub then wallets
          else (setIdentityGoogleSub wallets input.now identity.identityId claims.sub).1
        issueSession (accept (s.withWallets wallets)) identity.identityId identity.email

/-! ## Recovery -/

def recoverChallenge : Outcome :=
  accept { s with
    recoverChallenges := Function.update s.recoverChallenges input.client
      (some ⟨input.drawn, input.now + 5 * 60 * 1000⟩) }

-- Whether the challenge is the client's and not past.
def freshChallenge (challenge : String) : Bool :=
  (s.recoverChallenges input.client).any fun row =>
    input.now ≤ row.exp ∧ lowerCase row.challenge = lowerCase (trim challenge)

structure EoaProof where
  challenge : String
  signature : String
  eoa : String

-- What a proof by an address consists of; `eoa` is its checksummed form.
def eoaProof (body : Value) : Option EoaProof := do
  let challenge ← str (field body "challenge")
  let signature ← str (field body "signature")
  let eoaRaw ← (str (field body "eoa")).or (str (field body "address"))
  let eoa ← env.getAddress eoaRaw
  return ⟨challenge, signature, eoa⟩

def provingMethod : Except HttpError IdentityMethod :=
  match str (field input.body "kind") with
  | some "yubikey" => do
    let credentialId ← orRevert (httpError 400 "credentialId required")
      (str (field input.body "credentialId"))
    orRevert (httpError 404 "identity_not_found")
      ((getIdentityMethodByCredentialId s.db.wallets credentialId).filter (·.kind = .yubikey))
  | some "eoa" => do
    let proof ← orRevert (httpError 400 "eoa_challenge_signature_required")
      (eoaProof env input.body)
    revertIf (!freshChallenge s input proof.challenge)
      (httpError 400 "invalid_or_expired_challenge")
    let store ← orRevert (httpError 503 "identity_store_unavailable")
      ((env.storeAddress.or env.walletStoreAddress).filter (· ≠ ""))
    revertIf (env.chainId = 0) (httpError 503 "identity_store_unavailable")
    let recovered ← orRevert (httpError 400 "invalid_signature")
      ((env.verifyTypedData store env.chainId proof.challenge proof.signature).bind env.getAddress)
    revertIf (lowerCase recovered ≠ lowerCase proof.eoa) (httpError 400 "invalid_signature")
    orRevert (httpError 404 "identity_not_found")
      ((getIdentityMethodByEoa s.db.wallets recovered).filter (·.kind = .eoa))
  | _ => .error (httpError 400 "kind_required")

-- A proof by an address uses the challenge up as soon as it is complete.
def challengesAfter : String → Option RecoverChallenge :=
  if str (field input.body "kind") = some "eoa" ∧ (eoaProof env input.body).isSome then
    Function.update s.recoverChallenges input.client none
  else s.recoverChallenges

def recoverPayload (identity : Identity) (method : IdentityMethod) : RecoverPayload where
  identityId := identity.identityId
  email := identity.email
  kind := if str (field input.body "kind") = some "yubikey" then .yubikey else .eoa
  methodId := method.id
  credentialId := method.credentialId
  qx := method.qx
  qy := method.qy
  eoa := method.eoa

def recoverProve : Outcome :=
  let s' := { s with recoverChallenges := challengesAfter env s input }
  match provingMethod env s input with
  | .error e => fail s' e
  | .ok method =>
    match getIdentityById s.db.wallets method.identityId with
    | none => refuse s' 404 "identity_not_found"
    | some identity =>
      { accept s' with token := some (.recover (recoverPayload input identity method)) }

/-! ## Methods -/

-- The row that a key or an address of the body gets.
def methodRow (id identityId : String) (kind : IdentityMethodKind) (credentialId : Option String)
    (qx qy : String) : IdentityMethod :=
  ⟨id, identityId, kind, credentialId, some qx, some qy, none⟩

-- The part of `recover/add-method` that pays for the method: a relayed transaction, or one that is
-- on the chain already.
def payForRecovered (identityId methodId qx qy : String) :
    Except HttpError Unit × IdentityStore.State :=
  match (str (field input.body "pay")).getD "relayer" with
  | "relayer" =>
    if !input.captcha then (.error (httpError 400 "captcha_failed"), s.store)
    else if !input.withinRate then (.error (httpError 429 "rate_limited"), s.store)
    else if !hasProvider env then (.ok (), s.store)
    else
      match str (field input.body "authorization") with
      | none => (.error (httpError 400 "authorization_required"), s.store)
      | some authorization =>
        let (added, store) := addIdentityMethodOnChain env input.rpc s.store identityId
          (kindOf input.body) qx qy ZERO_ADDRESS authorization
        (match added with
          | .ok _ => .ok ()
          | .error _ => .error (httpError 502 "add_method_failed"), store)
  | "recorded" =>
    if identityMethodExistsOnChain env input.rpc s.store methodId then (.ok (), s.store)
    else (.error (httpError 400 "method_not_on_chain"), s.store)
  | _ => (.error (httpError 400 "pay_invalid"), s.store)

def recoverAddMethod : Outcome :=
  match input.recover with
  | none => refuse s 401 "unauthorized"
  | some recover =>
    match bodyQx input.body, bodyQy input.body, str (field input.body "credentialId") with
    | some qx, some qy, some credentialId =>
      match computeIdentityMethodId env recover.identityId (kindOf input.body) qx qy
        ZERO_ADDRESS with
      | none => refuse s 500 "INVALID_ARGUMENT"
      | some methodId =>
        let (paid, store) := payForRecovered env s input recover.identityId methodId qx qy
        let s := { s with store := store }
        match paid with
        | .error e => fail s e
        | .ok () => accept (s.insertMethod input.now
          (methodRow methodId recover.identityId (kindOf input.body) (some credentialId) qx qy))
    | _, _, _ => refuse s 400 "qx_qy_credentialId_required"

def hasWebauthn (identityId : String) : Bool := 0 < methodCount s.db.wallets identityId .webauthn

-- `none` where no factory is configured.
def createWalletForIdentity (db : WalletDb) (now : Time) (identityId ownerQx ownerQy : String)
    (credentialId label : Option String) : Option (WalletDb × String × String) := do
  let (factory, implementation) ← env.walletFactory
  let index := (listWalletAccountsByIdentityId db identityId).length
  let salt := env.deriveIdentityWalletSalt identityId index
  let address := env.predictWalletAddress factory implementation salt
  let name := ((label.map trim).filter (· ≠ "")).getD
    (if index = 0 then "Wallet" else "Wallet " ++ toString (index + 1))
  let db := (upsertWalletAccount db now {
    address := address
    salt := salt
    ownerQx := ownerQx
    ownerQy := ownerQy
    credentialId := credentialId
    webauthnAttestation := none
    identityId := some identityId
    label := some name }).1
  match getIdentityById db identityId with
  | some identity =>
    if identity.email.toList.contains '@' then
      return ((upsertWalletEmail db now address identity.email (some now)).1, address, salt)
    else return (db, address, salt)
  | none => return (db, address, salt)

-- The first wallet of an identity, with the attestation of its key.
def firstWallet (db : WalletDb) (identityId qx qy credentialId : String) : Option WalletDb :=
  if listWalletAccountsByIdentityId db identityId ≠ [] then some db
  else do
    let (db, address, salt) ←
      createWalletForIdentity env db input.now identityId qx qy (some credentialId) none
    match field input.body "webauthnAttestation" with
    | none => return db
    | some attestation => return (upsertWalletAccount db input.now {
        address := address
        salt := salt
        ownerQx := qx
        ownerQy := qy
        credentialId := some credentialId
        webauthnAttestation := some (String.ofList (stringify attestation))
        identityId := some identityId
        label := none }).1

structure Registration where
  identity : Identity
  methodId : String
  qx : String
  qy : String
  credentialId : String

-- The checks of `passkey/register`, after which it writes the method.
def checkRegister : Except HttpError Registration := do
  let session ← orRevert (httpError 401 "unauthorized") input.session
  let missing := httpError 400 "qx_qy_credentialId_required"
  let qx ← orRevert missing (bodyQx input.body)
  let qy ← orRevert missing (bodyQy input.body)
  let credentialId ← orRevert missing (str (field input.body "credentialId"))
  revertIf (hasWebauthn s session.identityId) (httpError 409 "identity_exists")
  let identity ← orRevert (httpError 401 "unauthorized")
    (getIdentityById s.db.wallets session.identityId)
  let methodId ← orRevert (httpError 500 "INVALID_ARGUMENT")
    (computeIdentityMethodId env identity.identityId .webauthn qx qy ZERO_ADDRESS)
  return ⟨identity, methodId, qx, qy, credentialId⟩

def passkeyRegister : Outcome :=
  match checkRegister env s input with
  | .error e => fail s e
  | .ok r =>
    let id := r.identity.identityId
    let s := s.insertMethod input.now
      (methodRow r.methodId id .webauthn (some r.credentialId) r.qx r.qy)
    let (registered, store) := registerIdentityOnChain env input.rpc s.store id r.qx r.qy
    let s := { s with store := store }
    match registered with
    | .error _ => refuse s 502 "identity_register_failed"
    | .ok _ =>
      match firstWallet env input s.db.wallets id r.qx r.qy r.credentialId with
      | none => refuse s 503 "wallet_factory_not_configured"
      | some wallets => accept (s.withWallets wallets)

-- The method that `passkey/login` looks up.
def loginMethod : Option IdentityMethod :=
  ((str (field input.body "credentialId")).bind
      fun credentialId => getIdentityMethodByCredentialId s.db.wallets credentialId).or <| do
    let qx ← normalizeQxQy (field input.body "qx")
    let qy ← normalizeQxQy (field input.body "qy")
    getIdentityMethodByPublicKey s.db.wallets qx qy

def passkeyLogin : Outcome :=
  if (str (field input.body "credentialId")).isNone ∧
      ((normalizeQxQy (field input.body "qx")).isNone ∨
        (normalizeQxQy (field input.body "qy")).isNone) then
    refuse s 400 "credentialId required"
  else
    match (loginMethod s input).bind fun method =>
      getIdentityById s.db.wallets method.identityId with
    | none => refuse s 404 "identity_not_found"
    | some identity => issueSession (accept s) identity.identityId identity.email

/-! ## Wallets -/

-- The session of a call, or a new one for the identity of a credential: the outcome so far is the
-- argument of the rest.
def withSession (credential : String) (rest : IdentitySession → Outcome) : Outcome :=
  match input.session with
  | some session => rest session
  | none =>
    match (str (field input.body credential)).bind (identityFromCredentialId s.db.wallets) with
    | none => refuse s 401 "unauthorized"
    | some identity =>
      issueSession (rest ⟨identity.identityId, identity.email⟩) identity.identityId identity.email

def postWallets : Outcome :=
  withSession s input "credentialId" fun session =>
    let passkey := (listIdentityMethods s.db.wallets session.identityId).find? fun method =>
      method.kind = .webauthn ∧ present method.qx ∧ present method.qy
    match passkey.bind fun method => method.qx.bind fun qx => method.qy.map fun qy =>
      (method, qx, qy) with
    | none => refuse s 400 "passkey_required"
    | some (method, qx, qy) =>
      match createWalletForIdentity env s.db.wallets input.now session.identityId qx qy
        method.credentialId (str (field input.body "label")) with
      | none => refuse s 503 "wallet_factory_not_configured"
      | some (wallets, _) => accept (s.withWallets wallets)

def patchWallets : Outcome :=
  withSession s input "credentialId" fun session =>
    match str (field input.body "address"), str (field input.body "label") with
    | some address, some label =>
      if (s.db.wallets.accounts.find? (lowerCase address)).any fun account =>
          account.identityId = some session.identityId then
        accept (s.withWallets (setWalletAccountLabel s.db.wallets address label).1)
      else refuse s 404 "wallet_not_found"
    | _, _ => refuse s 400 "address_and_label_required"

-- `isSigner` is what the chain answers about the wallet.
def joinWallet (isSigner : Except HttpError Bool) : Outcome :=
  match input.session with
  | none => refuse s 401 "unauthorized"
  | some session =>
    match (str (field input.body "address")).filter fun address =>
      (env.getAddress address).isSome with
    | none => refuse s 400 "address_required"
    | some address =>
      match s.db.wallets.accounts.find? (lowerCase address) with
      | none => refuse s 404 "wallet_not_found"
      | some account =>
        match isSigner with
        | .error e => fail s e
        | .ok false => refuse s 403 "not_super_signer"
        | .ok true => accept (s.withWallets (upsertWalletEntity s.db.wallets input.now {
            walletAddress := account.address
            entityId := session.identityId
            label := some session.email }).1)

/-! ## Methods of a session -/

structure NewMethod where
  methodId : String
  row : IdentityMethod
  qx : String
  qy : String
  eoa : String

-- The method of the body; `none` if its id cannot be computed.
def newMethod (session : IdentitySession) : Option NewMethod := do
  let kind := kindOf input.body
  let qx := (bodyQx input.body).getD ZERO_WORD
  let qy := (bodyQy input.body).getD ZERO_WORD
  let eoa := (str (field input.body "eoa")).getD ZERO_ADDRESS
  let methodId ← computeIdentityMethodId env session.identityId kind qx qy eoa
  let row : IdentityMethod := {
    id := methodId
    identityId := session.identityId
    kind := kind
    credentialId := str (field input.body "credentialId")
    qx := if kind = .eoa then none else some qx
    qy := if kind = .eoa then none else some qy
    eoa := if kind = .eoa then some eoa else none }
  return ⟨methodId, row, qx, qy, eoa⟩

-- What is left to check or to pay before the method is written.
def payForMethod (session : IdentitySession) (m : NewMethod) :
    Except HttpError Unit × IdentityStore.State :=
  match str (field input.body "pay") with
  | some "recorded" =>
    if identityMethodExistsOnChain env input.rpc s.store m.methodId then (.ok (), s.store)
    else (.error (httpError 400 "method_not_on_chain"), s.store)
  | some "pending" => (.ok (), s.store)
  | _ =>
    match str (field input.body "authorization") with
    | none =>
      if hasProvider env then (.error (httpError 400 "authorization_required"), s.store)
      else (.ok (), s.store)
    | some authorization =>
      let (added, store) := addIdentityMethodOnChain env input.rpc s.store session.identityId
        m.row.kind m.qx m.qy m.eoa authorization
      (match added with
        | .ok _ => .ok ()
        | .error _ => .error (httpError 502 "add_method_failed"), store)

def postMethods : Outcome :=
  withSession s input "provingCredentialId" fun session =>
    if !hasMethod s.db.wallets session.identityId then refuse s 400 "register_passkey_first"
    else
      match newMethod env input session with
      | none => refuse s 500 "INVALID_ARGUMENT"
      | some m =>
        let (paid, store) := payForMethod env s input session m
        match paid with
        | .error e => fail { s with store := store } e
        | .ok () => accept ({ s with store := store }.insertMethod input.now m.row)

-- The method that is to be removed, which the session's identity has.
def ownedMethod (identityId : String) : Option IdentityMethod :=
  let owned := listIdentityMethods s.db.wallets identityId
  let byId := (str (field input.body "methodId")).bind fun methodId =>
    owned.find? fun method => lowerCase method.id = lowerCase methodId
  let byCredential := (str (field input.body "credentialId")).bind fun credentialId =>
    (getIdentityMethodByCredentialId s.db.wallets credentialId).filter
      (·.identityId = identityId)
  let byKey := (bodyQx input.body).bind fun qx => (bodyQy input.body).bind fun qy =>
    owned.find? fun method =>
      method.qx.map sqlLower = some qx ∧ method.qy.map sqlLower = some qy
  (byId.or byCredential).or byKey

-- `/pattern/i.test(message)`
def mentions (message pattern : String) : Bool :=
  (lowerCase message).toList.tails.any fun rest => (lowerCase pattern).toList.isPrefixOf rest

def removalError (message : String) : HttpError :=
  if mentions message "LastMethod" then httpError 400 "last_method"
  else if mentions message "InvalidSignature" ∨ mentions message "0x8baa579f" then
    httpError 400 "invalid_signature"
  else httpError 502 "remove_method_failed"

-- The removal on the chain, where the method is there.
def removeFromChain (identityId methodId : String) : Except HttpError Unit × IdentityStore.State :=
  if !hasProvider env ∨ !identityMethodExistsOnChain env input.rpc s.store methodId then
    (.ok (), s.store)
  else
    match str (field input.body "authorization") with
    | none => (.error (httpError 400 "authorization_required"), s.store)
    | some authorization =>
      let (removed, store) :=
        removeIdentityMethodOnChain env input.rpc s.store identityId methodId authorization
      (match removed with
        | .ok true => .ok ()
        | .ok false => .error (httpError 400 "remove_need_funds")
        | .error message => .error (removalError message), store)

def deleteMethods : Outcome :=
  match input.session with
  | none => refuse s 401 "unauthorized"
  | some session =>
    match ownedMethod s input session.identityId with
    | none => refuse s 404 "method_not_found"
    | some method =>
      if ((listIdentityMethods s.db.wallets session.identityId).filter (·.id ≠ method.id)) = [] then
        refuse s 400 "last_method"
      else
        let (removed, store) := removeFromChain env s input session.identityId method.id
        match removed with
        | .error e => fail { s with store := store } e
        | .ok () => accept ({ s with store := store }.withWallets
            (deleteIdentityMethod s.db.wallets input.now method.id).1)

def restore : Outcome :=
  match input.session with
  | none => refuse s 401 "unauthorized"
  | some session =>
    match bodyQx input.body, bodyQy input.body with
    | some qx, some qy =>
      let kind := kindOf input.body
      let (restored, store) :=
        restoreIdentityMethodOnChain env input.rpc s.store session.identityId kind qx qy
      let s := { s with store := store }
      match restored with
      | .error _ => refuse s 502 "restore_failed"
      | .ok _ =>
        match computeIdentityMethodId env session.identityId kind qx qy ZERO_ADDRESS with
        | none => refuse s 500 "INVALID_ARGUMENT"
        | some methodId => accept (s.insertMethod input.now
          (methodRow methodId session.identityId kind (str (field input.body "credentialId")) qx qy))
    | _, _ => refuse s 400 "qx_qy_required"

/-! ## Steps -/

inductive Route
  | emailStart | emailVerify
  | googleCallback (q : OAuthReply)
  | recoverChallenge | recoverProve | recoverAddMethod
  | passkeyRegister | passkeyLogin
  | postWallets | patchWallets
  | joinWallet (isSigner : Except HttpError Bool)
  | postMethods | deleteMethods | restore
  -- the routes of operators, which write requests and jobs of the recovery
  | operator (requests : Table Request String Request.id) (jobs : Table Job String Job.id)

def call (route : Route) : Outcome :=
  match route with
  | .emailStart => emailStart env s input
  | .emailVerify => emailVerify env s input
  | .googleCallback q => googleCallback env s input q
  | .recoverChallenge => recoverChallenge s input
  | .recoverProve => recoverProve env s input
  | .recoverAddMethod => recoverAddMethod env s input
  | .passkeyRegister => passkeyRegister env s input
  | .passkeyLogin => passkeyLogin s input
  | .postWallets => postWallets env s input
  | .patchWallets => patchWallets s input
  | .joinWallet isSigner => joinWallet env s input isSigner
  | .postMethods => postMethods env s input
  | .deleteMethods => deleteMethods env s input
  | .restore => restore env s input
  | .operator requests jobs =>
    accept { s with db := { s.db with requests := requests, jobs := jobs } }

-- A call of a route, or a transaction that others have mined.
inductive Step
  | route (route : Route) (input : Input)
  | mined (tx : Evm.Tx IdentityStore.Call)

def step (s : IdentityServer) : Step → Outcome
  | .route route input => call env s input route
  | .mined tx =>
    accept { s with store := Lib.Runs.commit (IdentityStore.step env.contract) s.store tx }

def after (s : IdentityServer) (steps : List Step) : IdentityServer :=
  Lib.Histories.run (fun s st => (step env s st).server) s steps

-- A server without rows, whose store has just been deployed.
def started (recoveryOperator owner : Evm.Address) : IdentityServer :=
  ⟨.empty, fun _ => none, IdentityStore.deployed recoveryOperator owner⟩

end OnchainInvoice.IdentityRoutes
