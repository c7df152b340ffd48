import OnchainInvoice.Lib.Contents
import OnchainInvoice.Persist.WalletLog

/-!
# What is compared of the wallets

The records that the live database and the maps of the replay stand for.  `full` says whether the
label and the attestation of an account are compared; the log has neither.
-/

namespace OnchainInvoice.WalletLog

open Lib.Tables Table Server

/-! ## Normal forms -/

theorem lowerCase_lowerCase (s : String) : lowerCase (lowerCase s) = lowerCase s := by
  unfold lowerCase
  rw [String.toList_ofList, Lib.Casing.lower_lower]

theorem lowerCase_eq_empty {s : String} : lowerCase s = "" ↔ s = "" := by
  rw [← String.toList_inj, ← String.toList_inj, lowerCase, String.toList_ofList]
  exact Lib.Casing.lower_eq_nil

theorem trim_lowerCase (s : String) : Server.trim (lowerCase s) = lowerCase (Server.trim s) := by
  unfold Server.trim lowerCase
  rw [String.toList_ofList, String.toList_ofList, Lib.Casing.trimmed_lower]

theorem trim_trim (s : String) : Server.trim (Server.trim s) = Server.trim s := by
  unfold Server.trim
  rw [String.toList_ofList, Lib.Trimming.trimmed_trimmed]

theorem normalizeEmail_normalizeEmail (email : String) :
    normalizeEmail (normalizeEmail email) = normalizeEmail email := by
  unfold normalizeEmail
  rw [trim_lowerCase, trim_trim, lowerCase_lowerCase]

/-! ## Records -/

structure AccountRecord where
  address : String
  salt : Option String
  ownerQx : String
  ownerQy : String
  credentialId : Option String
  webauthnAttestation : Option String
  identityId : Option String
  label : Option String
  deployedChains : List String

def Identity.record (i : Identity) : Option IdentitySnapshot :=
  some ⟨i.identityId, i.email, i.googleSub, some i.createdAt⟩

def WalletAccount.record (full : Bool) (a : WalletAccount) : Option AccountRecord := some {
  address := a.address
  salt := some a.salt
  ownerQx := a.ownerQx
  ownerQy := a.ownerQy
  credentialId := a.credentialId
  webauthnAttestation := if full then a.webauthnAttestation else none
  identityId := a.identityId
  label := if full then a.label else none
  deployedChains := a.deployedChains }

-- Only a verified email counts.
def WalletEmail.record (e : WalletEmail) : Option WalletEmail := e.verifiedAt.map fun _ => e

variable (deriveWalletSalt : String → String → Option String)

def AccountSnapshot.record (s : AccountSnapshot) : Option AccountRecord := some {
  address := s.address
  salt := s.restoredSalt deriveWalletSalt
  ownerQx := s.ownerQx
  ownerQy := s.ownerQy
  credentialId := s.credentialId
  webauthnAttestation := none
  identityId := s.identityId
  label := none
  deployedChains := s.deployedChains }

theorem key_identity (i : Identity) (x : IdentitySnapshot) (h : i.record = some x) :
    x.identityId = i.identityId := by
  cases h
  rfl

theorem key_some {ρ κ : Type} (key : ρ → κ) (r x : ρ) (h : some r = some x) : key x = key r := by
  cases h
  rfl

theorem key_account (full : Bool) (a : WalletAccount) (x : AccountRecord)
    (h : a.record full = some x) : x.address = a.address := by
  cases h
  rfl

theorem key_email (e x : WalletEmail) (h : e.record = some x) :
    x.walletAddress = e.walletAddress := by
  obtain ⟨_, -, rfl⟩ := Option.map_eq_some_iff.mp h
  rfl

theorem key_snapshot (s : AccountSnapshot) (x : AccountRecord)
    (h : s.record deriveWalletSalt = some x) : x.address = s.address := by
  cases h
  rfl

/-! ## Agreement -/

-- Both say the same of everything that is compared.
structure Agree (full : Bool) (db : WalletDb) (state : WalletPersistState) : Prop where
  identities : db.identities.contents Identity.record = state.identities.contents some
  methods : db.methods.contents some = state.methods.contents some
  accounts : db.accounts.contents (WalletAccount.record full) =
    state.accounts.contents (AccountSnapshot.record deriveWalletSalt)
  devices : db.devices.contents some = state.devices.contents some
  emails : db.emails.contents WalletEmail.record = state.emails.contents WalletEmail.record
  entities : db.entities.contents some = state.entities.contents some
  entityKeys : db.entityKeys.contents some = state.entityKeys.contents some

-- What the maps hold is named and in normal form.
structure Sound (state : WalletPersistState) : Prop where
  identities : state.identities.All fun i => i.identityId ≠ "" ∧ i.email ≠ "" ∧
    normalizeEmail i.email = i.email ∧ i.createdAt.isSome
  methods : state.methods.All fun m => m.id ≠ "" ∧ m.identityId ≠ ""
  accounts : state.accounts.All fun a => a.address ≠ "" ∧ lowerCase a.address = a.address ∧
    a.deployedChains.Nodup ∧ "" ∉ a.deployedChains
  devices : state.devices.All fun d => d.walletAddress ≠ "" ∧ d.ownerQx ≠ "" ∧ d.ownerQy ≠ "" ∧
    lowerCase d.walletAddress = d.walletAddress
  emails : state.emails.All fun e => e.walletAddress ≠ "" ∧ e.email ≠ "" ∧
    lowerCase e.walletAddress = e.walletAddress ∧ normalizeEmail e.email = e.email
  entities : state.entities.All fun e => e.walletAddress ≠ "" ∧ e.entityId ≠ "" ∧
    lowerCase e.walletAddress = e.walletAddress
  entityKeys : state.entityKeys.All fun k => k.walletAddress ≠ "" ∧ k.keyId ≠ "" ∧
    lowerCase k.walletAddress = k.walletAddress

/-! ## When the events of an operation carry what it changes -/

-- A text that is neither missing nor empty.
def Given (o : Option String) : Prop := o ≠ none ∧ o ≠ some ""

-- An account that is new is given no label or attestation, has a salt, and no empty identity.
structure NewAccountCarried (full : Bool) (input : UpsertWalletAccount) : Prop where
  address : input.address ≠ ""
  salt : input.salt ≠ "" ∨ deriveWalletSalt input.ownerQx input.ownerQy = some ""
  identityId : input.identityId ≠ some ""
  plain : full = true →
    input.webauthnAttestation = none ∧ ¬ Given (input.label.map Server.trim)

-- One that exists gets no second credential, nor its first together with another identity.
structure AccountCarried (full : Bool) (input : UpsertWalletAccount) (old : WalletAccount) :
    Prop where
  credentialId : Given input.credentialId → input.credentialId ≠ old.credentialId →
    (Given old.credentialId ↔ (Given input.identityId ∧ input.identityId ≠ old.identityId))
  plain : full = true →
    input.webauthnAttestation = none ∧ ¬ Given (input.label.map Server.trim)

-- No other row is kept under the key of the log.
def DeviceApart (db : WalletDb) (walletAddress chainId ownerQx ownerQy : String) : Prop :=
  ∀ d ∈ db.devices.rows, d.logKey = deviceKey walletAddress chainId ownerQx ownerQy →
    d.key = (lowerCase walletAddress, chainId, ownerQx, ownerQy)

def EntityApart (db : WalletDb) (walletAddress entityId : String) : Prop :=
  ∀ e ∈ db.entities.rows, e.logKey = entityKey walletAddress entityId →
    e.key = (lowerCase walletAddress, entityId)

def EntityKeyApart (db : WalletDb) (walletAddress keyId : String) : Prop :=
  ∀ k ∈ db.entityKeys.rows, k.logKey = entityKeyKey walletAddress keyId →
    k.key = (lowerCase walletAddress, keyId)

structure DeviceCarried (db : WalletDb) (input : WalletDevice) : Prop where
  named : input.walletAddress ≠ "" ∧ input.ownerQx ≠ "" ∧ input.ownerQy ≠ ""
  credentialId : ∀ old ∈ db.devices.find? (lowerCase input.walletAddress, input.chainId,
    input.ownerQx, input.ownerQy),
      old.credentialId = input.credentialId ∨ (Given input.credentialId ∧ ¬ Given old.credentialId)
  apart : DeviceApart db input.walletAddress input.chainId input.ownerQx input.ownerQy

structure EntityCarried (db : WalletDb) (input : WalletEntity) : Prop where
  named : input.walletAddress ≠ "" ∧ input.entityId ≠ ""
  label : ∀ old ∈ db.entities.find? (lowerCase input.walletAddress, input.entityId),
    input.label = none → old.label = none
  apart : EntityApart db input.walletAddress input.entityId

structure EntityKeyCarried (db : WalletDb) (input : WalletEntityKey) : Prop where
  named : input.walletAddress ≠ "" ∧ input.keyId ≠ ""
  apart : EntityKeyApart db input.walletAddress input.keyId

structure NothingOfEntity (db : WalletDb) (walletAddress entityId : String) : Prop where
  entity : db.entities.find? (lowerCase walletAddress, entityId) = none
  keys : ∀ key ∈ db.entityKeys.rows,
    key.walletAddress = lowerCase walletAddress → key.entityId ≠ entityId

def Carried (full : Bool) (db : WalletDb) (call : Call) : Prop :=
  match call.operation with
  | .upsertIdentity input => emailTaken db input = false →
      (db.identities.find? input.identityId = none →
        input.identityId ≠ "" ∧ normalizeEmail input.email ≠ "") ∧
      ∀ old ∈ db.identities.find? input.identityId, normalizeEmail input.email = old.email ∧
        ∀ sub ∈ input.googleSub, old.googleSub = some sub
  | .setIdentityGoogleSub _ _ => True
  | .insertIdentityMethod input =>
      (db.methods.find? input.id = none → input.id ≠ "" ∧ input.identityId ≠ "") ∧
      ∀ old ∈ db.methods.find? input.id, ∀ credentialId ∈ input.credentialId,
        old.credentialId = some credentialId
  | .deleteIdentityMethod id => id = "" → db.methods.find? id = none
  | .upsertWalletAccount input =>
      (db.accounts.find? (lowerCase input.address) = none →
        NewAccountCarried deriveWalletSalt full input) ∧
      ∀ old ∈ db.accounts.find? (lowerCase input.address), AccountCarried full input old
  | .setWalletAccountLabel address label => full = true → givenLabel label ≠ "" →
      db.accounts.find? (lowerCase address) = none
  | .markWalletDeployed address chainId => chainId = "" →
      ∀ account ∈ db.accounts.find? (lowerCase address), chainId ∈ account.deployedChains
  | .upsertWalletDevice input => DeviceCarried db input
  | .deleteWalletDevice walletAddress chainId ownerQx ownerQy =>
      DeviceApart db walletAddress chainId ownerQx ownerQy
  | .upsertWalletEmail walletAddress email verifiedAt =>
      (verifiedAt.isSome → walletAddress ≠ "" ∧ normalizeEmail email ≠ "") ∧
      (verifiedAt = none → ∀ old ∈ db.emails.find? (lowerCase walletAddress),
        old.verifiedAt.isSome → normalizeEmail email = old.email)
  | .markWalletEmailVerified walletAddress email =>
      walletAddress ≠ "" ∧ normalizeEmail email ≠ ""
  | .upsertWalletEntity input => EntityCarried db input
  | .upsertWalletEntityKey input => EntityKeyCarried db input
  | .deleteWalletEntity walletAddress entityId => NothingOfEntity db walletAddress entityId
  | .deleteWalletEntityKey walletAddress keyId =>
      db.entityKeys.find? (lowerCase walletAddress, keyId) = none

end OnchainInvoice.WalletLog
