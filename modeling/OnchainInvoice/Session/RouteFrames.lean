import OnchainInvoice.Session.IdentityRoutes
import OnchainInvoice.Session.TokenKinds

/-!
# What the routes leave alone

The writes that identities and wallets share a database for: creating or labelling a wallet touches
no identity and no method, and identities are created and linked without touching methods.  At the
end a server that computes.
-/

namespace OnchainInvoice.IdentityRoutes

open Lib.Json Lib.Tables Server WalletLog
open Recovery (RecoveryDb consumeWalletEmailOtp)

variable {env : Env} {input : Input} {db db' : WalletDb}

structure SameIndex (db db' : WalletDb) : Prop where
  identities : db'.identities = db.identities
  methods : db'.methods = db.methods

theorem sameIndex_createWallet {now : Time} {id qx qy address salt : String}
    {credentialId label : Option String}
    (h : createWalletForIdentity env db now id qx qy credentialId label =
      some (db', address, salt)) : SameIndex db db' := by
  unfold createWalletForIdentity at h
  obtain ⟨⟨factory, implementation⟩, -, h⟩ := Option.bind_eq_some_iff.mp h
  dsimp only at h
  split at h
  · split at h <;> cases h <;> exact ⟨rfl, rfl⟩
  · cases h
    exact ⟨rfl, rfl⟩

theorem sameIndex_firstWallet {id qx qy credentialId : String}
    (h : firstWallet env input db id qx qy credentialId = some db') : SameIndex db db' := by
  unfold firstWallet at h
  split at h
  · cases h
    exact ⟨rfl, rfl⟩
  · obtain ⟨⟨db₁, address, salt⟩, hcreate, h⟩ := Option.bind_eq_some_iff.mp h
    have hsame := sameIndex_createWallet hcreate
    dsimp only at h
    split at h
    · cases h
      exact hsame
    · cases h
      exact ⟨hsame.identities, hsame.methods⟩

theorem sameIndex_setLabel (db : WalletDb) (address label : String) :
    SameIndex db (setWalletAccountLabel db address label).1 := by
  unfold setWalletAccountLabel
  dsimp only
  split <;> exact ⟨rfl, rfl⟩

theorem identities_deleteMethod {ts : Time} {id : String} :
    (deleteIdentityMethod db ts id).1.identities = db.identities := by
  unfold deleteIdentityMethod
  split <;> rfl

theorem methods_upsertIdentity {now ts : Time} {row : UpsertIdentity}
    {events : List PersistLogEvent} (h : upsertIdentity db now ts row = some (db', events)) :
    db'.methods = db.methods := by
  unfold upsertIdentity at h
  dsimp only at h
  split at h
  · cases h
  · cases h
    rfl

theorem methods_getOrCreate {id email : String} {now : Time} {googleSub : Option String}
    {identity : Identity}
    (h : getOrCreateIdentityByEmail db id now email googleSub = some (identity, db')) :
    db'.methods = db.methods := by
  unfold getOrCreateIdentityByEmail at h
  split at h
  · obtain ⟨found, -, h⟩ := Option.bind_eq_some_iff.mp h
    cases h
    split <;> rfl
  · obtain ⟨⟨db₁, events⟩, hupsert, h⟩ := Option.bind_eq_some_iff.mp h
    obtain ⟨found, -, h⟩ := Option.bind_eq_some_iff.mp h
    cases h
    exact methods_upsertIdentity hupsert

theorem methods_googleIdentity {id : String} {now : Time} {claims : GoogleIdClaims}
    {identity : Identity} (h : googleIdentity db id now claims = some (identity, db')) :
    db'.methods = db.methods := by
  unfold googleIdentity at h
  split at h
  · cases h
    rfl
  · exact methods_getOrCreate h

theorem wallets_consumeOtp (db : RecoveryDb) (now : Time) (wallet email codeHash : String)
    (purpose : Recovery.OtpPurpose) :
    (consumeWalletEmailOtp db now wallet email purpose codeHash).2.wallets = db.wallets := by
  unfold consumeWalletEmailOtp
  split
  · rfl
  · split <;> rfl

/-! ## A server that computes -/

def sampleEnv : Env where
  rpcUrl := none
  storeAddress := none
  deployerPrivateKey := none
  deployer := 0xDE
  contract := ⟨Evm.Crypto.toy, 0x1D57, 8453⟩
  walletStoreAddress := none
  chainId := 8453
  walletFactory := some ("0xfa", "0x1a")
  secret := ['s']
  tokens := Session.escaped
  getAddress := some
  verifyTypedData _ _ _ _ := none
  hashOtpCode code := code ++ "#"
  deriveIdentityWalletSalt identityId _ := identityId
  predictWalletAddress _ _ _ := "0xwallet"

def jsonBody (fields : List (String × String)) : Value :=
  .object (fields.map fun (name, value) => (name.toList, .string value.toList))

def quietRpc : Rpc := ⟨true, [], 0, .refused, "error"⟩

def sampleInput (fields : List (String × String)) (session : Option IdentitySession) : Input where
  client := "198.51.100.1"
  body := jsonBody fields
  captcha := true
  withinRate := true
  session := session
  recover := none
  now := 0
  drawn := hex32 0xA11CE
  otpId := "otp"
  code := "123456"
  rpc := quietRpc

end OnchainInvoice.IdentityRoutes
