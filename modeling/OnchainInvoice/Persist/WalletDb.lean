import OnchainInvoice.Lib.Tables
import OnchainInvoice.Server.Routes

/-!
# Identities and wallets in the database

The operations of `db.ts` on identities, identity methods, wallet accounts, devices, emails,
entities and entity keys, with the events they append to the wallet log.  Of the times of a row only
those that are logged are kept, and of an account the columns of its activation are left out.
-/

namespace OnchainInvoice.WalletLog

open Lib.Tables Server

/-! ## Rows -/

structure Identity where
  identityId : String
  email : String
  googleSub : Option String
  createdAt : Time
deriving DecidableEq

inductive IdentityMethodKind
  | webauthn | yubikey | eoa
deriving DecidableEq

structure IdentityMethod where
  id : String
  identityId : String
  kind : IdentityMethodKind
  credentialId : Option String
  qx : Option String
  qy : Option String
  eoa : Option String
deriving DecidableEq

structure WalletAccount where
  address : String
  salt : String
  ownerQx : String
  ownerQy : String
  credentialId : Option String
  webauthnAttestation : Option String
  identityId : Option String
  label : Option String
  deployedChains : List String
deriving DecidableEq

structure WalletDevice where
  walletAddress : String
  chainId : String
  ownerQx : String
  ownerQy : String
  label : String
  credentialId : Option String
deriving DecidableEq

def WalletDevice.key (d : WalletDevice) : String × String × String × String :=
  (d.walletAddress, d.chainId, d.ownerQx, d.ownerQy)

structure WalletEmail where
  walletAddress : String
  email : String
  verifiedAt : Option Time
deriving DecidableEq

structure WalletEntity where
  walletAddress : String
  entityId : String
  label : Option String
deriving DecidableEq

def WalletEntity.key (e : WalletEntity) : String × String := (e.walletAddress, e.entityId)

structure WalletEntityKey where
  walletAddress : String
  entityId : String
  keyId : String
  keyType : Int
  qx : Option String
  qy : Option String
  eoa : Option String
  credentialId : Option String
deriving DecidableEq

def WalletEntityKey.key (k : WalletEntityKey) : String × String := (k.walletAddress, k.keyId)

structure WalletDb where
  identities : Table Identity String Identity.identityId
  methods : Table IdentityMethod String IdentityMethod.id
  accounts : Table WalletAccount String WalletAccount.address
  devices : Table WalletDevice (String × String × String × String) WalletDevice.key
  emails : Table WalletEmail String WalletEmail.walletAddress
  entities : Table WalletEntity (String × String) WalletEntity.key
  entityKeys : Table WalletEntityKey (String × String) WalletEntityKey.key

def WalletDb.empty : WalletDb :=
  ⟨.empty, .empty, .empty, .empty, .empty, .empty, .empty⟩

/-! ## Events -/

inductive EventType
  | identityCreated | identityGoogleSub | identityMethodAdded | identityMethodRemoved
  | accountCreated | accountIdentityUpdated | accountCredentialUpdated | accountDeployed
  | deviceRegistered | deviceRemoved | emailVerified | entityRegistered | entityKeyRegistered

-- `none` for a field that is missing or null.
structure WalletPersistPayload where
  identityId : Option String := none
  email : Option String := none
  googleSub : Option String := none
  createdAt : Option Time := none
  id : Option String := none
  kind : Option IdentityMethodKind := none
  credentialId : Option String := none
  qx : Option String := none
  qy : Option String := none
  eoa : Option String := none
  address : Option String := none
  salt : Option String := none
  ownerQx : Option String := none
  ownerQy : Option String := none
  chainId : Option String := none
  walletAddress : Option String := none
  label : Option String := none
  verifiedAt : Option Time := none
  entityId : Option String := none
  keyId : Option String := none
  keyType : Option Int := none

-- `ts` is the clock when the event is appended.
structure PersistLogEvent where
  ts : Time
  type : EventType
  payload : WalletPersistPayload

/-! ## Identities -/

def normalizeEmail (email : String) : String := lowerCase (Server.trim email)

structure UpsertIdentity where
  identityId : String
  email : String
  googleSub : Option String
  createdAt : Option Time

variable (db : WalletDb) (now ts : Time)

-- The email of an identity is unique.
def emailTaken (input : UpsertIdentity) : Bool :=
  db.identities.rows.any fun other =>
    other.email = normalizeEmail input.email ∧ other.identityId ≠ input.identityId

-- Fails where SQLite does.
def upsertIdentity (input : UpsertIdentity) : Option (WalletDb × List PersistLogEvent) :=
  let existing := db.identities.find? input.identityId
  let createdAt := input.createdAt.getD ((existing.map Identity.createdAt).getD now)
  let row : Identity := {
    identityId := input.identityId
    email := normalizeEmail input.email
    googleSub := input.googleSub.or (existing.bind Identity.googleSub)
    createdAt := createdAt }
  if emailTaken db input then none
  else some ({ db with
    identities := db.identities.upsert row
      (fun old => { old with email := row.email, googleSub := row.googleSub.or old.googleSub })
      fun _ => rfl },
    if existing.isNone then [⟨ts, .identityCreated, {
      identityId := some input.identityId
      email := some (normalizeEmail input.email)
      googleSub := input.googleSub
      createdAt := some createdAt }⟩]
    else [])

def setIdentityGoogleSub (identityId googleSub : String) : WalletDb × List PersistLogEvent :=
  ({ db with
    identities := db.identities.modify identityId
      (fun row => { row with googleSub := some googleSub }) fun _ => rfl },
  [⟨ts, .identityGoogleSub, { identityId := some identityId, googleSub := some googleSub }⟩])

def methodPayload (row : IdentityMethod) : WalletPersistPayload where
  id := some row.id
  identityId := some row.identityId
  kind := some row.kind
  credentialId := row.credentialId
  qx := row.qx
  qy := row.qy
  eoa := row.eoa

def insertIdentityMethod (input : IdentityMethod) : WalletDb × List PersistLogEvent :=
  ({ db with
    methods := db.methods.upsert input
      (fun old => { old with credentialId := input.credentialId.or old.credentialId })
      fun _ => rfl },
  if (db.methods.find? input.id).isNone then
    [⟨ts, .identityMethodAdded, { methodPayload input with createdAt := some now }⟩]
  else [])

def deleteIdentityMethod (id : String) : WalletDb × List PersistLogEvent :=
  match db.methods.find? id with
  | none => (db, [])
  | some row =>
    ({ db with methods := db.methods.delete fun row => row.id = id },
      [⟨ts, .identityMethodRemoved, methodPayload row⟩])

/-! ## Accounts -/

-- `a || b` of two texts that may be missing
def orElse (a b : Option String) : Option String := (a.filter (· ≠ "")).or b

-- The `CASE` by which a credential that is there stays.
def keptCredential (old new : Option String) : Option String :=
  if new = none ∨ new = some "" then old
  else if old = none ∨ old = some "" then new
  else if old = new then new
  else old

structure UpsertWalletAccount where
  address : String
  salt : String
  ownerQx : String
  ownerQy : String
  credentialId : Option String
  webauthnAttestation : Option String
  identityId : Option String
  label : Option String

def upsertWalletAccount (input : UpsertWalletAccount) : WalletDb × List PersistLogEvent :=
  let addr := lowerCase input.address
  let existed := db.accounts.find? addr
  let existedLabel := (existed.bind WalletAccount.label).map Server.trim
  let row : WalletAccount := {
    address := addr
    salt := input.salt
    ownerQx := input.ownerQx
    ownerQy := input.ownerQy
    credentialId := input.credentialId
    webauthnAttestation := input.webauthnAttestation
    identityId := input.identityId.or (existed.bind WalletAccount.identityId)
    label := orElse (input.label.map Server.trim) (orElse existedLabel none)
    deployedChains := [] }
  ({ db with
    accounts := db.accounts.upsert row
      (fun old => { old with
        credentialId := keptCredential old.credentialId row.credentialId
        webauthnAttestation := row.webauthnAttestation.or old.webauthnAttestation
        identityId := orElse row.identityId old.identityId
        label := orElse row.label old.label })
      fun _ => rfl },
  match existed with
  | none => [⟨ts, .accountCreated, {
      address := some addr
      salt := some input.salt
      ownerQx := some input.ownerQx
      ownerQy := some input.ownerQy
      credentialId := input.credentialId
      identityId := input.identityId }⟩]
  | some existed =>
    if input.identityId ≠ none ∧ input.identityId ≠ some "" ∧
        input.identityId ≠ existed.identityId then
      [⟨ts, .accountIdentityUpdated, { address := some addr, identityId := input.identityId }⟩]
    else if input.credentialId ≠ none ∧ input.credentialId ≠ some "" ∧
        input.credentialId ≠ existed.credentialId then
      [⟨ts, .accountCredentialUpdated, { address := some addr, credentialId := input.credentialId }⟩]
    else [])

-- `label.trim().slice(0, 64)`
def givenLabel (label : String) : String := String.ofList ((Server.trim label).toList.take 64)

def setWalletAccountLabel (address label : String) : WalletDb × List PersistLogEvent :=
  let trimmed := givenLabel label
  if trimmed = "" then (db, [])
  else ({ db with
    accounts := db.accounts.modify (lowerCase address)
      (fun row => { row with label := some trimmed }) fun _ => rfl }, [])

def markWalletDeployed (address chainId : String) : WalletDb × List PersistLogEvent :=
  match db.accounts.find? (lowerCase address) with
  | none => (db, [])
  | some account =>
    if chainId ∈ account.deployedChains then (db, [])
    else ({ db with
      accounts := db.accounts.modify (lowerCase address)
        (fun row => { row with deployedChains := account.deployedChains ++ [chainId] })
        fun _ => rfl },
      [⟨ts, .accountDeployed, {
        address := some (lowerCase address), chainId := some chainId }⟩])

/-! ## Devices -/

def upsertWalletDevice (input : WalletDevice) : WalletDb × List PersistLogEvent :=
  let row := { input with walletAddress := lowerCase input.walletAddress }
  ({ db with
    devices := db.devices.upsert row
      (fun old => { old with
        label := row.label
        credentialId := keptCredential old.credentialId row.credentialId })
      fun _ => rfl },
  [⟨ts, .deviceRegistered, {
    walletAddress := some row.walletAddress
    chainId := some row.chainId
    ownerQx := some row.ownerQx
    ownerQy := some row.ownerQy
    label := some row.label
    credentialId := row.credentialId }⟩])

def deleteWalletDevice (walletAddress chainId ownerQx ownerQy : String) :
    WalletDb × List PersistLogEvent :=
  let addr := lowerCase walletAddress
  ({ db with devices := db.devices.delete fun row => row.key = (addr, chainId, ownerQx, ownerQy) },
  [⟨ts, .deviceRemoved, {
    walletAddress := some addr
    chainId := some chainId
    ownerQx := some ownerQx
    ownerQy := some ownerQy }⟩])

/-! ## Emails -/

def emailVerified (walletAddress email : String) (verifiedAt : Time) : PersistLogEvent :=
  ⟨ts, .emailVerified, {
    walletAddress := some walletAddress, email := some email, verifiedAt := some verifiedAt }⟩

def upsertWalletEmail (walletAddress email : String) (verifiedAt : Option Time) :
    WalletDb × List PersistLogEvent :=
  let addr := lowerCase walletAddress
  let email := normalizeEmail email
  ({ db with
    emails := db.emails.upsert ⟨addr, email, verifiedAt⟩
      (fun old => { old with
        email := email
        verifiedAt := if verifiedAt.isSome then verifiedAt
          else if email ≠ old.email then none
          else old.verifiedAt })
      fun _ => rfl },
  match verifiedAt with
  | some verifiedAt => [emailVerified ts addr email verifiedAt]
  | none => [])

def markWalletEmailVerified (walletAddress email : String) : WalletDb × List PersistLogEvent :=
  let addr := lowerCase walletAddress
  match db.emails.find? addr with
  | none => upsertWalletEmail db ts walletAddress email (some now)
  | some _ =>
    ({ db with
      emails := db.emails.modify addr
        (fun row => { row with email := normalizeEmail email, verifiedAt := some now })
        fun _ => rfl },
    [emailVerified ts addr (normalizeEmail email) now])

/-! ## Entities -/

def upsertWalletEntity (input : WalletEntity) : WalletDb × List PersistLogEvent :=
  let row := { input with walletAddress := lowerCase input.walletAddress }
  ({ db with
    entities := db.entities.upsert row (fun old => { old with label := row.label.or old.label })
      fun _ => rfl },
  [⟨ts, .entityRegistered, {
    walletAddress := some row.walletAddress
    entityId := some row.entityId
    label := row.label }⟩])

def upsertWalletEntityKey (input : WalletEntityKey) : WalletDb × List PersistLogEvent :=
  let row := { input with walletAddress := lowerCase input.walletAddress }
  ({ db with
    entityKeys := db.entityKeys.upsert row
      (fun old => { old with
        entityId := row.entityId
        keyType := row.keyType
        qx := row.qx
        qy := row.qy
        eoa := row.eoa
        credentialId := row.credentialId })
      fun _ => rfl },
  [⟨ts, .entityKeyRegistered, {
    walletAddress := some row.walletAddress
    entityId := some row.entityId
    keyId := some row.keyId
    keyType := some row.keyType
    qx := row.qx
    qy := row.qy
    eoa := row.eoa
    credentialId := row.credentialId }⟩])

-- Neither deletion of entities emits an event.
def deleteWalletEntity (walletAddress entityId : String) : WalletDb :=
  let addr := lowerCase walletAddress
  { db with
    entityKeys := db.entityKeys.delete fun row => row.walletAddress = addr ∧ row.entityId = entityId
    entities := db.entities.delete fun row => row.key = (addr, entityId) }

def deleteWalletEntityKey (walletAddress keyId : String) : WalletDb :=
  { db with
    entityKeys := db.entityKeys.delete fun row => row.key = (lowerCase walletAddress, keyId) }

/-! ## Operations -/

inductive Operation
  | upsertIdentity (input : UpsertIdentity)
  | setIdentityGoogleSub (identityId googleSub : String)
  | insertIdentityMethod (input : IdentityMethod)
  | deleteIdentityMethod (id : String)
  | upsertWalletAccount (input : UpsertWalletAccount)
  | setWalletAccountLabel (address label : String)
  | markWalletDeployed (address chainId : String)
  | upsertWalletDevice (input : WalletDevice)
  | deleteWalletDevice (walletAddress chainId ownerQx ownerQy : String)
  | upsertWalletEmail (walletAddress email : String) (verifiedAt : Option Time)
  | markWalletEmailVerified (walletAddress email : String)
  | upsertWalletEntity (input : WalletEntity)
  | upsertWalletEntityKey (input : WalletEntityKey)
  | deleteWalletEntity (walletAddress entityId : String)
  | deleteWalletEntityKey (walletAddress keyId : String)

-- A call with what it reads from the clock.
structure Call where
  operation : Operation
  now : Time
  ts : Time

def step (db : WalletDb) (call : Call) : WalletDb × List PersistLogEvent :=
  match call.operation with
  | .upsertIdentity input => (upsertIdentity db call.now call.ts input).getD (db, [])
  | .setIdentityGoogleSub identityId googleSub =>
    setIdentityGoogleSub db call.ts identityId googleSub
  | .insertIdentityMethod input => insertIdentityMethod db call.now call.ts input
  | .deleteIdentityMethod id => deleteIdentityMethod db call.ts id
  | .upsertWalletAccount input => upsertWalletAccount db call.ts input
  | .setWalletAccountLabel address label => setWalletAccountLabel db address label
  | .markWalletDeployed address chainId => markWalletDeployed db call.ts address chainId
  | .upsertWalletDevice input => upsertWalletDevice db call.ts input
  | .deleteWalletDevice walletAddress chainId ownerQx ownerQy =>
    deleteWalletDevice db call.ts walletAddress chainId ownerQx ownerQy
  | .upsertWalletEmail walletAddress email verifiedAt =>
    upsertWalletEmail db call.ts walletAddress email verifiedAt
  | .markWalletEmailVerified walletAddress email =>
    markWalletEmailVerified db call.now call.ts walletAddress email
  | .upsertWalletEntity input => upsertWalletEntity db call.ts input
  | .upsertWalletEntityKey input => upsertWalletEntityKey db call.ts input
  | .deleteWalletEntity walletAddress entityId => (deleteWalletEntity db walletAddress entityId, [])
  | .deleteWalletEntityKey walletAddress keyId => (deleteWalletEntityKey db walletAddress keyId, [])

end OnchainInvoice.WalletLog
