import OnchainInvoice.Lib.EventLog
import OnchainInvoice.Persist.WalletDb

/-!
# The replay of the wallet log

`wallet-persist-replay.ts`: the events are folded into maps, which are then written into the
database.
-/

namespace OnchainInvoice.WalletLog

open Lib.Tables Server

/-! ## State -/

structure IdentitySnapshot where
  identityId : String
  email : String
  googleSub : Option String
  createdAt : Option Time

structure AccountSnapshot where
  address : String
  salt : String
  ownerQx : String
  ownerQy : String
  credentialId : Option String
  identityId : Option String
  deployedChains : List String

def deviceKey (wallet chainId qx qy : String) : String :=
  lowerCase wallet ++ "|" ++ chainId ++ "|" ++ qx ++ "|" ++ qy

def entityKey (wallet entityId : String) : String := lowerCase wallet ++ "|" ++ entityId

def entityKeyKey (wallet keyId : String) : String := lowerCase wallet ++ "|" ++ keyId

def WalletDevice.logKey (d : WalletDevice) : String :=
  deviceKey d.walletAddress d.chainId d.ownerQx d.ownerQy

def WalletEntity.logKey (e : WalletEntity) : String := entityKey e.walletAddress e.entityId

def WalletEntityKey.logKey (k : WalletEntityKey) : String := entityKeyKey k.walletAddress k.keyId

-- The devices, emails, entities and keys of the maps have the fields of the rows.
structure WalletPersistState where
  identities : Table IdentitySnapshot String IdentitySnapshot.identityId
  methods : Table IdentityMethod String IdentityMethod.id
  accounts : Table AccountSnapshot String AccountSnapshot.address
  devices : Table WalletDevice String WalletDevice.logKey
  emails : Table WalletEmail String WalletEmail.walletAddress
  entities : Table WalletEntity String WalletEntity.logKey
  entityKeys : Table WalletEntityKey String WalletEntityKey.logKey

def emptyWalletPersistState : WalletPersistState :=
  ⟨.empty, .empty, .empty, .empty, .empty, .empty, .empty⟩

/-! ## Events -/

section Events

variable (state : WalletPersistState) (ts : Time) (p : WalletPersistPayload)

def applyIdentityCreated : WalletPersistState :=
  let identityId := p.identityId.getD ""
  let email := normalizeEmail (p.email.getD "")
  if identityId = "" ∨ email = "" then state
  else { state with
    identities := state.identities.set ⟨identityId, email, p.googleSub, p.createdAt⟩ }

def applyIdentityGoogleSub : WalletPersistState :=
  { state with
    identities := state.identities.modify (p.identityId.getD "")
      (fun identity => { identity with googleSub := p.googleSub.or identity.googleSub })
      fun _ => rfl }

def applyIdentityMethodAdded : WalletPersistState :=
  let id := p.id.getD ""
  let identityId := p.identityId.getD ""
  if id = "" ∨ identityId = "" then state
  else { state with
    methods := state.methods.set
      ⟨id, identityId, p.kind.getD .webauthn, p.credentialId, p.qx, p.qy, p.eoa⟩ }

def applyIdentityMethodRemoved : WalletPersistState :=
  let id := p.id.getD ""
  if id = "" then state
  else { state with methods := state.methods.delete fun row => row.id = id }

def applyAccountCreated : WalletPersistState :=
  let address := lowerCase (p.address.getD "")
  if address = "" then state
  else { state with
    accounts := state.accounts.set {
      address := address
      salt := p.salt.getD ""
      ownerQx := p.ownerQx.getD ""
      ownerQy := p.ownerQy.getD ""
      credentialId := p.credentialId
      identityId := p.identityId.filter (· ≠ "")
      deployedChains := [] } }

def applyAccountIdentityUpdated : WalletPersistState :=
  { state with
    accounts := state.accounts.modify (lowerCase (p.address.getD ""))
      (fun account => { account with identityId := p.identityId.or account.identityId })
      fun _ => rfl }

def applyAccountCredentialUpdated : WalletPersistState :=
  { state with
    accounts := state.accounts.modify (lowerCase (p.address.getD ""))
      (fun account => { account with credentialId := p.credentialId.or account.credentialId })
      fun _ => rfl }

-- `push` unless the chain is there
def withChain (chainId : String) (deployedChains : List String) : List String :=
  if chainId ≠ "" ∧ chainId ∉ deployedChains then deployedChains ++ [chainId] else deployedChains

def applyAccountDeployed : WalletPersistState :=
  { state with
    accounts := state.accounts.modify (lowerCase (p.address.getD ""))
      (fun account => { account with
        deployedChains := withChain (p.chainId.getD "") account.deployedChains })
      fun _ => rfl }

def applyDeviceRegistered : WalletPersistState :=
  let walletAddress := lowerCase (p.walletAddress.getD "")
  let ownerQx := p.ownerQx.getD ""
  let ownerQy := p.ownerQy.getD ""
  if walletAddress = "" ∨ ownerQx = "" ∨ ownerQy = "" then state
  else { state with
    devices := state.devices.set {
      walletAddress := walletAddress
      chainId := p.chainId.getD ""
      ownerQx := ownerQx
      ownerQy := ownerQy
      label := p.label.getD "Passkey"
      credentialId := p.credentialId } }

def applyDeviceRemoved : WalletPersistState :=
  let key := deviceKey (lowerCase (p.walletAddress.getD "")) (p.chainId.getD "")
    (p.ownerQx.getD "") (p.ownerQy.getD "")
  { state with devices := state.devices.delete fun row => row.logKey = key }

def applyEmailVerified : WalletPersistState :=
  let walletAddress := lowerCase (p.walletAddress.getD "")
  let email := normalizeEmail (p.email.getD "")
  if walletAddress = "" ∨ email = "" then state
  else { state with
    emails := state.emails.set ⟨walletAddress, email, some (p.verifiedAt.getD ts)⟩ }

def applyEntityRegistered : WalletPersistState :=
  let walletAddress := lowerCase (p.walletAddress.getD "")
  let entityId := p.entityId.getD ""
  if walletAddress = "" ∨ entityId = "" then state
  else { state with entities := state.entities.set ⟨walletAddress, entityId, p.label⟩ }

def applyEntityKeyRegistered : WalletPersistState :=
  let walletAddress := lowerCase (p.walletAddress.getD "")
  let keyId := p.keyId.getD ""
  if walletAddress = "" ∨ keyId = "" then state
  else { state with
    entityKeys := state.entityKeys.set {
      walletAddress := walletAddress
      entityId := p.entityId.getD ""
      keyId := keyId
      keyType := p.keyType.getD 0
      qx := p.qx
      qy := p.qy
      eoa := p.eoa
      credentialId := p.credentialId } }

end Events

def applyWalletPersistEvent (state : WalletPersistState) (evt : PersistLogEvent) :
    WalletPersistState :=
  match evt.type with
  | .identityCreated => applyIdentityCreated state evt.payload
  | .identityGoogleSub => applyIdentityGoogleSub state evt.payload
  | .identityMethodAdded => applyIdentityMethodAdded state evt.payload
  | .identityMethodRemoved => applyIdentityMethodRemoved state evt.payload
  | .accountCreated => applyAccountCreated state evt.payload
  | .accountIdentityUpdated => applyAccountIdentityUpdated state evt.payload
  | .accountCredentialUpdated => applyAccountCredentialUpdated state evt.payload
  | .accountDeployed => applyAccountDeployed state evt.payload
  | .deviceRegistered => applyDeviceRegistered state evt.payload
  | .deviceRemoved => applyDeviceRemoved state evt.payload
  | .emailVerified => applyEmailVerified state evt.ts evt.payload
  | .entityRegistered => applyEntityRegistered state evt.payload
  | .entityKeyRegistered => applyEntityKeyRegistered state evt.payload

def replayWalletPersistState (events : List PersistLogEvent) : WalletPersistState :=
  Lib.EventLog.replay applyWalletPersistEvent emptyWalletPersistState events

/-! ## The restored database -/

section Restore

-- `deriveWalletSalt` fails on coordinates that are not words.
variable (deriveWalletSalt : String → String → Option String) (now : Time)

def restoreIdentity (db : WalletDb) (identity : IdentitySnapshot) : Option WalletDb :=
  (upsertIdentity db now now {
    identityId := identity.identityId
    email := identity.email
    googleSub := identity.googleSub
    createdAt := identity.createdAt }).map Prod.fst

def restoreMethod (db : WalletDb) (method : IdentityMethod) : WalletDb :=
  (insertIdentityMethod db now now method).1

-- `account.salt || deriveWalletSalt(…)`
def AccountSnapshot.restoredSalt (account : AccountSnapshot) : Option String :=
  if account.salt = "" then deriveWalletSalt account.ownerQx account.ownerQy else some account.salt

def restoreAccount (db : WalletDb) (account : AccountSnapshot) : Option WalletDb := do
  let salt ← account.restoredSalt deriveWalletSalt
  let db := (upsertWalletAccount db now {
    address := account.address
    salt := salt
    ownerQx := account.ownerQx
    ownerQy := account.ownerQy
    credentialId := account.credentialId
    webauthnAttestation := none
    identityId := account.identityId
    label := none }).1
  return account.deployedChains.foldl
    (fun db chainId => (markWalletDeployed db now account.address chainId).1) db

def restoreDevice (db : WalletDb) (device : WalletDevice) : WalletDb :=
  (upsertWalletDevice db now device).1

def restoreEmail (db : WalletDb) (email : WalletEmail) : WalletDb :=
  (upsertWalletEmail db now email.walletAddress email.email email.verifiedAt).1

def restoreEntity (db : WalletDb) (entity : WalletEntity) : WalletDb :=
  (upsertWalletEntity db now entity).1

def restoreEntityKey (db : WalletDb) (key : WalletEntityKey) : WalletDb :=
  (upsertWalletEntityKey db now key).1

def applyWalletPersistStateToDb (db : WalletDb) (state : WalletPersistState) :
    Option WalletDb := do
  let db ← state.identities.rows.foldlM (restoreIdentity now) db
  let db := state.methods.rows.foldl (restoreMethod now) db
  let db ← state.accounts.rows.foldlM (restoreAccount deriveWalletSalt now) db
  let db := state.devices.rows.foldl (restoreDevice now) db
  let db := state.emails.rows.foldl (restoreEmail now) db
  let db := state.entities.rows.foldl (restoreEntity now) db
  return state.entityKeys.rows.foldl (restoreEntityKey now) db

end Restore

end OnchainInvoice.WalletLog
