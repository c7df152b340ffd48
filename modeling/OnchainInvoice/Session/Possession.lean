import OnchainInvoice.Recovery.Codes
import OnchainInvoice.Session.RouteFrames
import OnchainInvoice.Session.TokenKinds

/-!
# Who gets a token

Three routes ask their caller for something that only the owner of an identity has: a code that was
mailed, a login at Google, or a signature over a challenge.  The others that issue a token look the
identity up by what anyone may know.  A token is backed by such a proof unless it comes from one of
those lookups.
-/

namespace OnchainInvoice.IdentityRoutes

open Lib.Histories Lib.Json Lib.Revert Lib.Tables Server WalletLog
open Recovery (EmailOtp RecoveryDb SameCode consumeWalletEmailOtp createWalletEmailOtp)
open WebAuthn (getIdentityMethodByCredentialId)

variable {env : Env} {s s' : IdentityServer} {input : Input} {st : Step} {pre post : List Step}

/-! ## What a caller can show -/

-- The call sends a code to the address.
structure Mails (s : IdentityServer) (input : Input) (address : String) : Prop where
  captcha : input.captcha = true
  address_eq : emailOf input.body = some address
  unknown : ((getIdentityByEmail s.db.wallets address).any fun identity =>
    hasMethod s.db.wallets identity.identityId) = false

-- The code, up to its hash, went to the email.
def Mailed (env : Env) (s₀ : IdentityServer) (pre : List Step) (email codeHash : String) : Prop :=
  ∃ before input rest address, pre = before ++ .route .emailStart input :: rest ∧
    Mails (after env s₀ before) input address ∧ normalizeEmail address = email ∧
    env.hashOtpCode input.code = codeHash

-- Google has confirmed the email for the account.
def Linked (env : Env) (pre : List Step) (sub email : String) : Prop :=
  ∃ q input claims, .route (.googleCallback q) input ∈ pre ∧
    googleClaims env input q = .ok claims ∧ claims.sub = sub ∧ normalizeEmail claims.email = email

def UsesChallenge (env : Env) (client : String) : Step → Prop
  | .route .recoverProve input => input.client = client ∧
    str (field input.body "kind") = some "eoa" ∧ (eoaProof env input.body).isSome = true
  | _ => False

-- The challenge was issued to the client until the time, and has not been used.
def Issued (env : Env) (pre : List Step) (client challenge : String) (exp : Time) : Prop :=
  ∃ before input rest, pre = before ++ .route .recoverChallenge input :: rest ∧
    input.client = client ∧ input.drawn = challenge ∧ input.now + 5 * 60 * 1000 = exp ∧
    ∀ st ∈ rest, ¬ UsesChallenge env client st

-- The caller has signed a fresh challenge with the key of the method.
structure Signs (env : Env) (s : IdentityServer) (pre : List Step) (input : Input)
    (method : IdentityMethod) : Prop where
  kind : str (field input.body "kind") = some "eoa"
  signed : ∃ proof store recovered, eoaProof env input.body = some proof ∧
    env.storeAddress.or env.walletStoreAddress = some store ∧
    (env.verifyTypedData store env.chainId proof.challenge proof.signature).bind env.getAddress =
      some recovered ∧
    method.eoa.map sqlLower = some (lowerCase (trim recovered)) ∧
    ∃ challenge exp, Issued env pre input.client challenge exp ∧ input.now ≤ exp ∧
      lowerCase challenge = lowerCase (trim proof.challenge)
  indexed : method ∈ s.db.wallets.methods.rows
  isEoa : method.kind = .eoa

inductive Possesses (env : Env) (s₀ : IdentityServer) (pre : List Step) : Step → Identity → Prop
  | email {input : Input} {identity : Identity} {email code : String}
      (hemail : emailOf input.body = some email) (hidentity : identity.email = normalizeEmail email)
      (hcode : str (field input.body "code") = some code)
      (hmailed : Mailed env s₀ pre identity.email (env.hashOtpCode code)) :
    Possesses env s₀ pre (.route .emailVerify input) identity
  | google {q : OAuthReply} {input : Input} {identity : Identity} {claims : GoogleIdClaims}
      (hclaims : googleClaims env input q = .ok claims)
      (hemail : normalizeEmail claims.email = identity.email ∨
        Linked env pre claims.sub identity.email) :
    Possesses env s₀ pre (.route (.googleCallback q) input) identity
  | key {input : Input} {identity : Identity} {method : IdentityMethod}
      (hmethod : method.identityId = identity.identityId)
      (hsigns : Signs env (after env s₀ pre) pre input method) :
    Possesses env s₀ pre (.route .recoverProve input) identity

-- Every token of the step is for an identity that its caller has shown to be the owner of.
def Backed (env : Env) (s₀ : IdentityServer) (pre : List Step) (st : Step) : Prop :=
  ∀ token, (step env (after env s₀ pre) st).token = some token →
    ∃ identity, getIdentityById (step env (after env s₀ pre) st).server.db.wallets
      token.identityId = some identity ∧ Possesses env s₀ pre st identity

/-- Every token of the run is for an identity that its caller has shown to be the owner of. -/
def ProofOfPossession (env : Env) (s₀ : IdentityServer) (steps : List Step) : Prop :=
  Each (Backed env s₀) steps

-- The identity that a call gets a token for because it knows a credential or a key.
def publicIdentity (s : IdentityServer) (input : Input) : Route → Option Identity
  | .passkeyLogin => (loginMethod s input).bind fun method =>
    getIdentityById s.db.wallets method.identityId
  | .recoverProve =>
    if str (field input.body "kind") = some "yubikey" then
      (((str (field input.body "credentialId")).bind
          (getIdentityMethodByCredentialId s.db.wallets)).filter (·.kind = .yubikey)).bind
        fun method => getIdentityById s.db.wallets method.identityId
    else none
  | .postWallets | .patchWallets =>
    if input.session.isSome then none
    else (str (field input.body "credentialId")).bind (identityFromCredentialId s.db.wallets)
  | .postMethods =>
    if input.session.isSome then none
    else (str (field input.body "provingCredentialId")).bind (identityFromCredentialId s.db.wallets)
  | _ => none

-- The step is no call that gets a token for what anyone may know.
def NotByLookup (s : IdentityServer) : Step → Prop
  | .route route input => publicIdentity s input route = none
  | .mined _ => True

-- `randomIdentityId` draws an id that no identity has.
def FreshDraw (s : IdentityServer) : Step → Prop
  | .route .emailVerify input | .route (.googleCallback _) input =>
    getIdentityById s.db.wallets input.drawn = none
  | _ => True

/-! ## Calls that touch neither identities nor what is out -/

structure Kept (s s' : IdentityServer) : Prop where
  identities : s'.db.wallets.identities = s.db.wallets.identities
  otps : s'.db.otps = s.db.otps
  challenges : s'.recoverChallenges = s.recoverChallenges

theorem Kept.refl (s : IdentityServer) : Kept s s := ⟨rfl, rfl, rfl⟩

theorem Kept.trans {s'' : IdentityServer} (h : Kept s s') (h' : Kept s' s'') : Kept s s'' :=
  ⟨h'.identities.trans h.identities, h'.otps.trans h.otps, h'.challenges.trans h.challenges⟩

theorem kept_withWallets {wallets : WalletDb} (h : wallets.identities = s.db.wallets.identities) :
    Kept s (s.withWallets wallets) := ⟨h, rfl, rfl⟩

-- Nor is a token issued.
structure Aside (s : IdentityServer) (o : Outcome) : Prop where
  kept : Kept s o.server
  token : o.token = none

theorem aside_refuse {statusCode : Nat} {error : String} (h : Kept s s') :
    Aside s (refuse s' statusCode error) := ⟨h, rfl⟩

theorem aside_fail {e : HttpError} (h : Kept s s') : Aside s (fail s' e) := ⟨h, rfl⟩

theorem aside_accept (h : Kept s s') : Aside s (accept s') := ⟨h, rfl⟩

theorem aside_recoverAddMethod : Aside s (recoverAddMethod env s input) := by
  unfold recoverAddMethod
  split
  · exact aside_refuse (.refl s)
  · split
    · split
      · exact aside_refuse (.refl s)
      · dsimp only
        split
        · exact aside_fail ⟨rfl, rfl, rfl⟩
        · exact aside_accept ⟨rfl, rfl, rfl⟩
    · exact aside_refuse (.refl s)

theorem aside_passkeyRegister : Aside s (passkeyRegister env s input) := by
  unfold passkeyRegister
  split
  · exact aside_fail (.refl s)
  · dsimp only
    split
    · exact aside_refuse ⟨rfl, rfl, rfl⟩
    · split
      · exact aside_refuse ⟨rfl, rfl, rfl⟩
      · next hwallet =>
        exact aside_accept ⟨(sameIndex_firstWallet hwallet).identities, rfl, rfl⟩

theorem aside_joinWallet {isSigner : Except HttpError Bool} :
    Aside s (joinWallet env s input isSigner) := by
  unfold joinWallet
  split
  · exact aside_refuse (.refl s)
  · split
    · exact aside_refuse (.refl s)
    · split
      · exact aside_refuse (.refl s)
      · split
        · exact aside_fail (.refl s)
        · exact aside_refuse (.refl s)
        · exact aside_accept ⟨rfl, rfl, rfl⟩

theorem aside_deleteMethods : Aside s (deleteMethods env s input) := by
  unfold deleteMethods
  split
  · exact aside_refuse (.refl s)
  · split
    · exact aside_refuse (.refl s)
    · split
      · exact aside_refuse (.refl s)
      · dsimp only
        split
        · exact aside_fail ⟨rfl, rfl, rfl⟩
        · exact aside_accept ⟨identities_deleteMethod, rfl, rfl⟩

theorem aside_restore : Aside s (restore env s input) := by
  unfold restore
  split
  · exact aside_refuse (.refl s)
  · split
    · dsimp only
      split
      · exact aside_refuse ⟨rfl, rfl, rfl⟩
      · split
        · exact aside_refuse ⟨rfl, rfl, rfl⟩
        · exact aside_accept ⟨rfl, rfl, rfl⟩
    · exact aside_refuse (.refl s)

/-! ## Calls that look the identity up -/

-- What a call gives away that looks its identity up by what anyone may know.
structure ByLookup (s : IdentityServer) (input : Input) (route : Route) (o : Outcome) : Prop where
  kept : Kept s o.server
  token : o.token = (publicIdentity s input route).map
    fun identity => .identity identity.identityId identity.email

theorem byLookup_withSession {route : Route} {credential : String}
    {rest : IdentitySession → Outcome}
    (hroute : publicIdentity s input route = if input.session.isSome then none
      else (str (field input.body credential)).bind (identityFromCredentialId s.db.wallets))
    (hrest : ∀ session, Aside s (rest session)) :
    ByLookup s input route (withSession s input credential rest) := by
  unfold withSession
  split
  · next session hsession =>
    rw [hsession] at hroute
    exact ⟨(hrest session).kept, by rw [hroute]; exact (hrest session).token⟩
  · next hsession =>
    rw [hsession] at hroute
    split
    · next hnone => exact ⟨.refl s, by rw [hroute, hnone]; rfl⟩
    · next identity hsome => exact ⟨(hrest _).kept, by rw [hroute, hsome]; rfl⟩

theorem byLookup_passkeyLogin : ByLookup s input .passkeyLogin (passkeyLogin s input) := by
  unfold passkeyLogin
  split
  · next hmissing =>
    have hnone : loginMethod s input = none := by
      unfold loginMethod
      obtain ⟨hcredential, hkey⟩ := hmissing
      rw [Option.isNone_iff_eq_none] at hcredential
      rw [hcredential]
      rcases hkey with hkey | hkey
      · rw [Option.isNone_iff_eq_none.mp hkey]
        rfl
      · rw [Option.isNone_iff_eq_none.mp hkey]
        cases normalizeQxQy (field input.body "qx") <;> rfl
    exact ⟨.refl s, by rw [publicIdentity, hnone]; rfl⟩
  · split
    · next hnone => exact ⟨.refl s, by rw [publicIdentity, hnone]; rfl⟩
    · next identity hsome => exact ⟨.refl s, by rw [publicIdentity, hsome]; rfl⟩

theorem byLookup_postWallets : ByLookup s input .postWallets (postWallets env s input) := by
  apply byLookup_withSession rfl
  intro session
  dsimp only
  split
  · exact aside_refuse (.refl s)
  · split
    · exact aside_refuse (.refl s)
    · next hcreate => exact aside_accept (kept_withWallets (sameIndex_createWallet hcreate).identities)

theorem byLookup_patchWallets : ByLookup s input .patchWallets (patchWallets s input) := by
  apply byLookup_withSession rfl
  intro session
  split
  · split
    · exact aside_accept (kept_withWallets (sameIndex_setLabel _ _ _).identities)
    · exact aside_refuse (.refl s)
  · exact aside_refuse (.refl s)

theorem byLookup_postMethods : ByLookup s input .postMethods (postMethods env s input) := by
  apply byLookup_withSession rfl
  intro session
  dsimp only
  split
  · exact aside_refuse (.refl s)
  · split
    · exact aside_refuse (.refl s)
    · split
      · exact aside_fail ⟨rfl, rfl, rfl⟩
      · exact aside_accept ⟨rfl, rfl, rfl⟩

/-! ## What a step leaves of codes, links and challenges -/

structure Traces (env : Env) (s : IdentityServer) (st : Step) (s' : IdentityServer) : Prop where
  codes : ∀ row ∈ s'.db.otps.rows, row.purpose = .login →
    (∃ old ∈ s.db.otps.rows, SameCode old row) ∨
      ∃ input address, st = .route .emailStart input ∧ Mails s input address ∧
        normalizeEmail address = row.email ∧ env.hashOtpCode input.code = row.codeHash
  links : ∀ identity ∈ s'.db.wallets.identities.rows, ∀ sub, identity.googleSub = some sub →
    (∃ old ∈ s.db.wallets.identities.rows, old.email = identity.email ∧
      old.googleSub = some sub) ∨
      ∃ q input claims, st = .route (.googleCallback q) input ∧
        googleClaims env input q = .ok claims ∧ claims.sub = sub ∧
        normalizeEmail claims.email = identity.email
  challenges : ∀ client row, s'.recoverChallenges client = some row →
    (s.recoverChallenges client = some row ∧ ¬ UsesChallenge env client st) ∨
      ∃ input, st = .route .recoverChallenge input ∧ input.client = client ∧
        row = ⟨input.drawn, input.now + 5 * 60 * 1000⟩

theorem Traces.of_kept (h : Kept s s') (hst : ∀ client, ¬ UsesChallenge env client st) :
    Traces env s st s' := by
  apply Traces.mk
  · intro row hrow _
    rw [h.otps] at hrow
    exact .inl ⟨row, hrow, rfl, rfl, rfl, rfl⟩
  · intro identity hidentity sub hsub
    rw [h.identities] at hidentity
    exact .inl ⟨identity, hidentity, rfl, hsub⟩
  · intro client row hrow
    rw [h.challenges] at hrow
    exact .inl ⟨hrow, hst client⟩

theorem traces_emailStart :
    Traces env s (.route .emailStart input) (emailStart env s input).server := by
  have hkept : Traces env s (.route .emailStart input) s := .of_kept (.refl s) fun _ h => h
  unfold emailStart
  split
  · exact hkept
  · next hcaptcha =>
    split
    · exact hkept
    · next address haddress =>
      split
      · exact hkept
      · next hunknown =>
        split
        · exact hkept
        · next db hcreate =>
          have hmails : Mails s input address :=
            ⟨by simpa using hcaptcha, haddress, Bool.eq_false_iff.mpr hunknown⟩
          have hwallets : db.wallets = s.db.wallets := by
            obtain ⟨t, -, heq⟩ := Option.bind_eq_some_iff.mp hcreate
            cases heq
            rfl
          apply Traces.mk
          · intro row hrow hpurpose
            rcases Recovery.mem_createOtp hcreate hrow with hold | ⟨-, hemail, -, hcode⟩
            · exact .inl hold
            · exact .inr ⟨input, address, rfl, hmails, hemail.symm, hcode.symm⟩
          · intro identity hidentity sub hsub
            have hold : identity ∈ s.db.wallets.identities.rows := hwallets ▸ hidentity
            exact .inl ⟨identity, hold, rfl, hsub⟩
          · exact hkept.challenges

theorem token_emailStart : (emailStart env s input).token = none := by
  unfold emailStart
  split
  · rfl
  · split
    · rfl
    · split
      · rfl
      · split <;> rfl

/-! ## Identities by email -/

section Links

variable {db : WalletDb} {ts : Time} {id sub : String}

theorem getIdentityById_setGoogleSub {other : String} :
    getIdentityById (setIdentityGoogleSub db ts id sub).1 other =
      if other = id then (getIdentityById db other).map fun row => { row with googleSub := some sub }
      else getIdentityById db other := by
  show (db.identities.modify id (fun row => { row with googleSub := some sub })
    fun _ => rfl).find? other = _
  exact Table.find?_modify

theorem mem_setGoogleSub {identity : Identity}
    (h : identity ∈ (setIdentityGoogleSub db ts id sub).1.identities.rows) :
    identity ∈ db.identities.rows ∨
      ∃ old, getIdentityById db id = some old ∧ identity = { old with googleSub := some sub } := by
  obtain ⟨old, hold, rfl⟩ := List.mem_map.mp h
  split
  · next hkey => exact .inr ⟨old, hkey ▸ Table.find?_of_mem hold, rfl⟩
  · exact .inl hold

theorem getIdentityById_of_email {email : String} {identity : Identity}
    (h : getIdentityByEmail db email = some identity) :
    getIdentityById db identity.identityId = some identity ∧
      identity.email = normalizeEmail email :=
  ⟨Table.find?_of_mem (List.mem_of_find?_eq_some h), by simpa using List.find?_some h⟩

/-- An identity whose id was free is a new row. -/
theorem upsertIdentity_fresh {db' : WalletDb} {now : Time} {input : UpsertIdentity}
    {events : List PersistLogEvent} (hfree : getIdentityById db input.identityId = none)
    (h : upsertIdentity db now ts input = some (db', events)) :
    ∃ row : Identity, row.identityId = input.identityId ∧ row.email = normalizeEmail input.email ∧
      row.googleSub = input.googleSub ∧ getIdentityById db' input.identityId = some row ∧
      db'.identities.rows = db.identities.rows ++ [row] := by
  unfold getIdentityById at hfree
  unfold upsertIdentity at h
  rw [hfree] at h
  simp only [Option.bind_none, Option.or_none, Option.map_none, Option.getD_none] at h
  let row : Identity :=
    ⟨input.identityId, normalizeEmail input.email, input.googleSub, input.createdAt.getD now⟩
  split at h
  · cases h
  · cases h
    have hfound : ∀ merge hmerge, (db.identities.upsert row merge hmerge).find? row.identityId =
        some row := fun merge hmerge =>
      (Table.find?_upsert_free (r := row) hfree).trans (if_pos rfl)
    refine ⟨row, rfl, rfl, rfl, hfound _ _, ?_⟩
    rcases Table.rows_upsert db.identities row _ _ with ⟨-, hrows⟩ | ⟨hkey, -⟩
    · exact hrows
    · exact absurd hkey (Table.find?_eq_none.mp hfree)

end Links

theorem getOrCreate_spec {db db' : WalletDb} {id email : String} {now : Time}
    {googleSub : Option String} {identity : Identity} (hfresh : getIdentityById db id = none)
    (h : getOrCreateIdentityByEmail db id now email googleSub = some (identity, db')) :
    identity.email = normalizeEmail email ∧
      getIdentityById db' identity.identityId = some identity ∧
      ∀ other ∈ db'.identities.rows,
        (∃ old ∈ db.identities.rows, old.email = other.email ∧ old.googleSub = other.googleSub) ∨
          (other.email = normalizeEmail email ∧ other.googleSub = googleSub) := by
  unfold getOrCreateIdentityByEmail at h
  split at h
  · next existing hexisting =>
    obtain ⟨hfound, hemail⟩ := getIdentityById_of_email hexisting
    obtain ⟨found, hid, h⟩ := Option.bind_eq_some_iff.mp h
    cases h
    split at hid
    · next hsub =>
      -- the row of the identity is linked
      obtain ⟨sub, rfl⟩ : ∃ sub, googleSub = some sub := by
        cases googleSub with
        | none => cases hsub
        | some sub => exact ⟨sub, rfl⟩
      have hlinked : getIdentityById (setIdentityGoogleSub db now existing.identityId sub).1
          existing.identityId = some { existing with googleSub := some sub } := by
        rw [getIdentityById_setGoogleSub, if_pos rfl, hfound]
        rfl
      have hidentity := Option.some.inj (hlinked.symm.trans hid)
      subst hidentity
      rw [if_pos hsub]
      refine ⟨hemail, hlinked, fun other hother => ?_⟩
      rcases mem_setGoogleSub hother with hold | ⟨old, hold, rfl⟩
      · exact .inl ⟨other, hold, rfl, rfl⟩
      · have hsame := Option.some.inj (hfound.symm.trans hold)
        exact .inr ⟨hsame ▸ hemail, rfl⟩
    · next hsub =>
      have hidentity := Option.some.inj (hfound.symm.trans hid)
      subst hidentity
      rw [if_neg hsub]
      exact ⟨hemail, hfound, fun other hother => .inl ⟨other, hother, rfl, rfl⟩⟩
  · obtain ⟨⟨db₁, events⟩, hupsert, h⟩ := Option.bind_eq_some_iff.mp h
    obtain ⟨found, hid, h⟩ := Option.bind_eq_some_iff.mp h
    cases h
    obtain ⟨row, hkey, hemail, hsub, hfound, hrows⟩ := upsertIdentity_fresh hfresh hupsert
    have hidentity := Option.some.inj (hfound.symm.trans hid)
    subst hidentity
    refine ⟨hemail, hkey.symm ▸ hfound, fun other hother => ?_⟩
    rw [hrows, List.mem_append, List.mem_singleton] at hother
    rcases hother with hold | rfl
    · exact .inl ⟨other, hold, rfl, rfl⟩
    · exact .inr ⟨hemail, hsub⟩

/-- A code that is accepted makes its email known, and the token is for that identity. -/
theorem emailVerify_spec (hfresh : getIdentityById s.db.wallets input.drawn = none) :
    Traces env s (.route .emailVerify input) (emailVerify env s input).server ∧
      ∀ token, (emailVerify env s input).token = some token → ∃ email code identity,
        emailOf input.body = some email ∧ str (field input.body "code") = some code ∧
        (consumeWalletEmailOtp s.db input.now (identityOtpWallet email) email .login
          (env.hashOtpCode code)).1 = true ∧
        identity.email = normalizeEmail email ∧
        getIdentityById (emailVerify env s input).server.db.wallets token.identityId =
          some identity := by
  unfold emailVerify
  split
  · next email code hemail hcode =>
    cases hconsume : consumeWalletEmailOtp s.db input.now (identityOtpWallet email) email .login
      (env.hashOtpCode code) with
    | mk ok db =>
      have hwallets : db.wallets = s.db.wallets := by
        rw [← wallets_consumeOtp s.db, hconsume]
      have hcodes : ∀ row ∈ db.otps.rows, ∃ old ∈ s.db.otps.rows, SameCode old row := by
        intro row hrow
        apply Recovery.mem_consumeOtp
        rw [hconsume]
        exact hrow
      have htraces : ∀ wallets : WalletDb, (∀ identity ∈ wallets.identities.rows, ∀ sub,
          identity.googleSub = some sub → ∃ old ∈ s.db.wallets.identities.rows,
            old.email = identity.email ∧ old.googleSub = some sub) →
          Traces env s (.route .emailVerify input) ({ s with db := db }.withWallets wallets) :=
        fun wallets hlinks => ⟨fun row hrow _ => .inl (hcodes row hrow),
          fun identity hidentity sub hsub => .inl (hlinks identity hidentity sub hsub),
          fun client row hrow => .inl ⟨hrow, fun h => h⟩⟩
      have hrefused := htraces db.wallets fun identity hidentity sub hsub =>
        ⟨identity, hwallets ▸ hidentity, rfl, hsub⟩
      dsimp only
      split
      · exact ⟨hrefused, fun token htoken => by cases htoken⟩
      · next hok =>
        rw [hwallets]
        split
        · exact ⟨hrefused, fun token htoken => by cases htoken⟩
        · next identity wallets hcreate =>
          obtain ⟨hidentity, hfound, hrows⟩ := getOrCreate_spec hfresh hcreate
          apply And.intro
          · apply htraces
            intro other hother sub hsub
            rcases hrows other hother with ⟨old, hold, hemail, hsame⟩ | ⟨-, hnone⟩
            · exact ⟨old, hold, hemail, hsame.trans hsub⟩
            · rw [hnone] at hsub
              cases hsub
          · intro token htoken
            cases htoken
            refine ⟨email, code, identity, hemail, hcode, ?_, hidentity, hfound⟩
            rw [hconsume]
            simpa using hok
  · exact ⟨.of_kept (.refl s) fun _ h => h, fun token htoken => by cases htoken⟩

theorem sub_ne_empty {q : OAuthReply} {claims : GoogleIdClaims}
    (h : googleClaims env input q = .ok claims) : claims.sub ≠ "" := by
  obtain ⟨_, -, h⟩ := bind_eq_ok.mp h
  obtain ⟨idToken, -, h⟩ := bind_eq_ok.mp h
  obtain ⟨part, -, h⟩ := bind_eq_ok.mp h
  obtain ⟨payload, -, h⟩ := bind_eq_ok.mp h
  obtain ⟨_, -, h⟩ := bind_eq_ok.mp h
  obtain ⟨_, hchecked, h⟩ := bind_eq_ok.mp h
  obtain ⟨_, -, h⟩ := bind_eq_ok.mp h
  cases h
  rw [revertIf_eq_ok] at hchecked
  simp only [decide_eq_false_iff_not, not_or] at hchecked
  exact hchecked.2

theorem present_some {value : Option String} {t : String} (h : value = some t) (ht : t ≠ "") :
    present value = true := by
  rw [h]
  exact decide_eq_true ht

/-- Linking an identity that has no account leaves its email. -/
theorem linkIfNew_spec {wallets : WalletDb} (now : Time) (sub : String) {identity : Identity}
    (hfound : getIdentityById wallets identity.identityId = some identity) :
    let linked := if present identity.googleSub then wallets
      else (setIdentityGoogleSub wallets now identity.identityId sub).1
    (∃ row, getIdentityById linked identity.identityId = some row ∧ row.email = identity.email) ∧
      ∀ other ∈ linked.identities.rows, other ∈ wallets.identities.rows ∨
        (present identity.googleSub = false ∧ other.email = identity.email ∧
          other.googleSub = some sub) := by
  intro linked
  by_cases hpresent : present identity.googleSub = true
  · have hlinked : linked = wallets := if_pos hpresent
    rw [hlinked]
    exact ⟨⟨identity, hfound, rfl⟩, fun other hother => .inl hother⟩
  · have hlinked : linked = (setIdentityGoogleSub wallets now identity.identityId sub).1 :=
      if_neg hpresent
    rw [hlinked]
    apply And.intro
    · refine ⟨{ identity with googleSub := some sub }, ?_, rfl⟩
      rw [getIdentityById_setGoogleSub, if_pos rfl, hfound]
      rfl
    · intro other hother
      rcases mem_setGoogleSub hother with hold | ⟨old, hold, rfl⟩
      · exact .inl hold
      · have hsame := Option.some.inj (hfound.symm.trans hold)
        exact .inr ⟨Bool.eq_false_iff.mpr hpresent, hsame ▸ rfl, rfl⟩

/-- Who logs in: an identity that was linked to the account, or the one of the email. -/
theorem googleIdentity_spec {db wallets : WalletDb} {id : String} {now : Time}
    {claims : GoogleIdClaims} {identity : Identity} (hfresh : getIdentityById db id = none)
    (h : googleIdentity db id now claims = some (identity, wallets)) :
    getIdentityById wallets identity.identityId = some identity ∧
      ((identity ∈ db.identities.rows ∧ identity.googleSub = some claims.sub) ∨
        identity.email = normalizeEmail claims.email) ∧
      ∀ other ∈ wallets.identities.rows,
        (∃ old ∈ db.identities.rows, old.email = other.email ∧ old.googleSub = other.googleSub) ∨
          (other.email = normalizeEmail claims.email ∧ other.googleSub = some claims.sub) := by
  unfold googleIdentity at h
  split at h
  · next known hknown =>
    cases h
    have hrows : ∀ other ∈ db.identities.rows, ∃ old ∈ db.identities.rows,
        old.email = other.email ∧ old.googleSub = other.googleSub :=
      fun other hother => ⟨other, hother, rfl, rfl⟩
    rcases Option.or_eq_some_iff.mp hknown with hsub | ⟨-, hemail⟩
    · have hmem : identity ∈ db.identities.rows := List.mem_of_find?_eq_some hsub
      have hlinked : identity.googleSub = some claims.sub := by simpa using List.find?_some hsub
      exact ⟨Table.find?_of_mem hmem, .inl ⟨hmem, hlinked⟩, fun other hother =>
        .inl (hrows other hother)⟩
    · obtain ⟨hfound, hemail⟩ := getIdentityById_of_email hemail
      exact ⟨hfound, .inr hemail, fun other hother => .inl (hrows other hother)⟩
  · obtain ⟨hemail, hfound, hrows⟩ := getOrCreate_spec hfresh h
    exact ⟨hfound, .inr hemail, hrows⟩

/-- A login at Google is for the identity of its email or of an account that was linked before. -/
theorem googleCallback_spec {q : OAuthReply}
    (hfresh : getIdentityById s.db.wallets input.drawn = none) :
    Traces env s (.route (.googleCallback q) input) (googleCallback env s input q).server ∧
      ∀ token, (googleCallback env s input q).token = some token → ∃ claims identity,
        googleClaims env input q = .ok claims ∧
        getIdentityById (googleCallback env s input q).server.db.wallets token.identityId =
          some identity ∧
        (normalizeEmail claims.email = identity.email ∨ ∃ old ∈ s.db.wallets.identities.rows,
          old.email = identity.email ∧ old.googleSub = some claims.sub) := by
  have hrefused : Traces env s (.route (.googleCallback q) input) s :=
    .of_kept (.refl s) fun _ h => h
  unfold googleCallback
  split
  · exact ⟨hrefused, fun token htoken => by cases htoken⟩
  · next claims hclaims =>
    dsimp only
    split
    · exact ⟨hrefused, fun token htoken => by cases htoken⟩
    · split
      · exact ⟨hrefused, fun token htoken => by cases htoken⟩
      · next identity wallets hidentity =>
        obtain ⟨hfound, hwho, hrows⟩ := googleIdentity_spec hfresh hidentity
        obtain ⟨⟨row, hrow, hemail⟩, hlinked⟩ := linkIfNew_spec input.now
          claims.sub hfound
        have hsub : identity.googleSub = some claims.sub → present identity.googleSub = true :=
          fun h => present_some h (sub_ne_empty hclaims)
        apply And.intro
        · apply Traces.mk
          · exact fun code hcode _ => .inl ⟨code, hcode, rfl, rfl, rfl, rfl⟩
          · intro other hother sub hother'
            have hnew : other.email = normalizeEmail claims.email →
                other.googleSub = some claims.sub → claims.sub = sub ∧
                  normalizeEmail claims.email = other.email := fun hmail hthis =>
              ⟨Option.some.inj (hthis.symm.trans hother'), hmail.symm⟩
            rcases hlinked other hother with hold | ⟨habsent, hmail, hthis⟩
            · rcases hrows other hold with ⟨old, hmem, hmail, hsame⟩ | ⟨hmail, hthis⟩
              · exact .inl ⟨old, hmem, hmail, hsame.trans hother'⟩
              · exact .inr ⟨q, input, claims, rfl, hclaims, hnew hmail hthis⟩
            · rcases hwho with ⟨-, hknown⟩ | hwho
              · rw [hsub hknown] at habsent
                cases habsent
              · exact .inr ⟨q, input, claims, rfl, hclaims, hnew (hmail.trans hwho) hthis⟩
          · exact fun client code hcode => .inl ⟨hcode, fun h => h⟩
        · intro token htoken
          cases htoken
          refine ⟨claims, row, hclaims, hrow, ?_⟩
          rcases hwho with ⟨hmem, hknown⟩ | hwho
          · exact .inr ⟨identity, hmem, hemail.symm, hknown⟩
          · exact .inl (hwho.symm.trans hemail.symm)

/-! ## Proofs by an address -/

theorem mem_of_eoa {db : WalletDb} {eoa : String} {method : IdentityMethod}
    (h : getIdentityMethodByEoa db eoa = some method) : method ∈ db.methods.rows ∧
      method.kind = .eoa ∧ method.eoa.map sqlLower = some (lowerCase (trim eoa)) := by
  unfold getIdentityMethodByEoa at h
  dsimp only at h
  split at h
  · cases h
  · have hrow := List.find?_some h
    rw [decide_eq_true_eq] at hrow
    exact ⟨List.mem_of_find?_eq_some h, hrow⟩

structure ChecksOut (env : Env) (s : IdentityServer) (input : Input) (method : IdentityMethod) :
    Prop where
  signed : ∃ proof store recovered, eoaProof env input.body = some proof ∧
    env.storeAddress.or env.walletStoreAddress = some store ∧
    (env.verifyTypedData store env.chainId proof.challenge proof.signature).bind env.getAddress =
      some recovered ∧
    method.eoa.map sqlLower = some (lowerCase (trim recovered)) ∧
    freshChallenge s input proof.challenge = true
  indexed : method ∈ s.db.wallets.methods.rows
  isEoa : method.kind = .eoa

theorem provingMethod_eoa {method : IdentityMethod}
    (hkind : str (field input.body "kind") = some "eoa")
    (h : provingMethod env s input = .ok method) : ChecksOut env s input method := by
  unfold provingMethod at h
  rw [hkind] at h
  obtain ⟨proof, hproof, h⟩ := bind_eq_ok.mp h
  obtain ⟨_, hfresh, h⟩ := bind_eq_ok.mp h
  obtain ⟨store, hstore, h⟩ := bind_eq_ok.mp h
  obtain ⟨_, -, h⟩ := bind_eq_ok.mp h
  obtain ⟨recovered, hrecovered, h⟩ := bind_eq_ok.mp h
  obtain ⟨_, -, h⟩ := bind_eq_ok.mp h
  rw [orRevert_eq_ok] at hproof hstore hrecovered h
  rw [revertIf_eq_ok, Bool.not_eq_false'] at hfresh
  obtain ⟨hmem, hisEoa, heoa⟩ := mem_of_eoa (Option.filter_eq_some_iff.mp h).1
  exact ⟨⟨proof, store, recovered, hproof, (Option.filter_eq_some_iff.mp hstore).1, hrecovered, heoa,
    hfresh⟩, hmem, hisEoa⟩

theorem provingMethod_yubikey {method : IdentityMethod}
    (hkind : str (field input.body "kind") = some "yubikey") :
    provingMethod env s input = .ok method ↔
      ((str (field input.body "credentialId")).bind
        (getIdentityMethodByCredentialId s.db.wallets)).filter (·.kind = .yubikey) = some method := by
  unfold provingMethod
  rw [hkind]
  apply Iff.intro
  · intro h
    obtain ⟨credentialId, hcredential, h⟩ := bind_eq_ok.mp h
    rw [orRevert_eq_ok] at hcredential h
    rw [hcredential, Option.bind_some]
    exact h
  · intro h
    cases hcredential : str (field input.body "credentialId") with
    | none =>
      rw [hcredential] at h
      cases h
    | some credentialId =>
      rw [hcredential, Option.bind_some] at h
      exact bind_eq_ok.mpr ⟨credentialId, orRevert_eq_ok.mpr rfl, orRevert_eq_ok.mpr h⟩

theorem kind_of_provingMethod {method : IdentityMethod}
    (h : provingMethod env s input = .ok method) :
    str (field input.body "kind") = some "yubikey" ∨ str (field input.body "kind") = some "eoa" := by
  unfold provingMethod at h
  split at h
  · next hkind => exact .inl hkind
  · next hkind => exact .inr hkind
  · cases h

theorem traces_recoverProve :
    Traces env s (.route .recoverProve input) (recoverProve env s input).server := by
  have hleft : Traces env s (.route .recoverProve input)
      { s with recoverChallenges := challengesAfter env s input } := by
    apply Traces.mk
    · exact fun row hrow _ => .inl ⟨row, hrow, rfl, rfl, rfl, rfl⟩
    · exact fun identity hidentity sub hsub => .inl ⟨identity, hidentity, rfl, hsub⟩
    · intro client row hrow
      have hrow : challengesAfter env s input client = some row := hrow
      unfold challengesAfter at hrow
      split at hrow
      · by_cases hclient : client = input.client
        · rw [hclient, Function.update_self] at hrow
          cases hrow
        · rw [Function.update_of_ne hclient] at hrow
          exact .inl ⟨hrow, fun huses => hclient huses.1.symm⟩
      · next hunused => exact .inl ⟨hrow, fun huses => hunused huses.2⟩
  unfold recoverProve
  dsimp only
  split
  · exact hleft
  · split
    · exact hleft
    · exact hleft

theorem db_recoverProve : (recoverProve env s input).server.db = s.db := by
  unfold recoverProve
  dsimp only
  split
  · rfl
  · split <;> rfl

theorem token_recoverProve {token : Token} :
    (recoverProve env s input).token = some token ↔ ∃ method identity,
      provingMethod env s input = .ok method ∧
      getIdentityById s.db.wallets method.identityId = some identity ∧
      token = .recover (recoverPayload input identity method) := by
  unfold recoverProve
  dsimp only
  split
  · next herror =>
    rw [herror]
    exact iff_of_false (fun h => by cases h) fun ⟨_, _, h, _⟩ => by cases h
  · next method hmethod =>
    rw [hmethod]
    split
    · next hnone =>
      apply iff_of_false (fun h => by cases h)
      rintro ⟨_, _, hsame, hsome, -⟩
      cases hsame
      rw [hnone] at hsome
      cases hsome
    · next identity hsome =>
      apply Iff.intro
      · intro h
        exact ⟨method, identity, rfl, hsome, (Option.some.inj h).symm⟩
      · rintro ⟨_, _, hsame, hother, rfl⟩
        cases hsame
        rw [hsome] at hother
        cases hother
        rfl

/-! ## Steps -/

theorem step_traces (hfresh : FreshDraw s st) : Traces env s st (step env s st).server := by
  have hidle : ∀ route input, route ≠ .recoverProve → ∀ client,
      ¬ UsesChallenge env client (.route route input) := by
    intro route input hroute client huses
    cases route <;> first | exact huses | exact hroute rfl
  cases st with
  | mined tx => exact .of_kept ⟨rfl, rfl, rfl⟩ fun _ h => h
  | route route input =>
    cases route with
    | emailStart => exact traces_emailStart
    | emailVerify => exact (emailVerify_spec hfresh).1
    | googleCallback q => exact (googleCallback_spec hfresh).1
    | recoverProve => exact traces_recoverProve
    | recoverChallenge =>
      apply Traces.mk
      · exact fun row hrow _ => .inl ⟨row, hrow, rfl, rfl, rfl, rfl⟩
      · exact fun identity hidentity sub hsub => .inl ⟨identity, hidentity, rfl, hsub⟩
      · intro client row hrow
        have hrow : Function.update s.recoverChallenges input.client
          (some ⟨input.drawn, input.now + 5 * 60 * 1000⟩) client = some row := hrow
        by_cases hclient : client = input.client
        · rw [hclient, Function.update_self] at hrow
          exact .inr ⟨input, rfl, hclient.symm, (Option.some.inj hrow).symm⟩
        · rw [Function.update_of_ne hclient] at hrow
          exact .inl ⟨hrow, fun h => h⟩
    | recoverAddMethod =>
      exact .of_kept aside_recoverAddMethod.kept (hidle _ _ (by simp))
    | passkeyRegister => exact .of_kept aside_passkeyRegister.kept (hidle _ _ (by simp))
    | passkeyLogin => exact .of_kept byLookup_passkeyLogin.kept (hidle _ _ (by simp))
    | postWallets => exact .of_kept byLookup_postWallets.kept (hidle _ _ (by simp))
    | patchWallets => exact .of_kept byLookup_patchWallets.kept (hidle _ _ (by simp))
    | joinWallet isSigner => exact .of_kept aside_joinWallet.kept (hidle _ _ (by simp))
    | postMethods => exact .of_kept byLookup_postMethods.kept (hidle _ _ (by simp))
    | deleteMethods => exact .of_kept aside_deleteMethods.kept (hidle _ _ (by simp))
    | restore => exact .of_kept aside_restore.kept (hidle _ _ (by simp))
    | operator requests jobs => exact .of_kept ⟨rfl, rfl, rfl⟩ (hidle _ _ (by simp))

/-! ## Runs -/

theorem after_concat {s₀ : IdentityServer} :
    after env s₀ (pre ++ [st]) = (step env (after env s₀ pre) st).server :=
  run_concat pre st

-- What is out, and who is linked, was brought about by the calls so far.
structure Traced (env : Env) (s₀ : IdentityServer) (pre : List Step) : Prop where
  codes : ∀ row ∈ (after env s₀ pre).db.otps.rows, row.purpose = .login →
    Mailed env s₀ pre row.email row.codeHash
  links : ∀ identity ∈ (after env s₀ pre).db.wallets.identities.rows, ∀ sub,
    identity.googleSub = some sub → Linked env pre sub identity.email
  challenges : ∀ client row, (after env s₀ pre).recoverChallenges client = some row →
    Issued env pre client row.challenge row.exp

theorem Mailed.concat {s₀ : IdentityServer} {email codeHash : String}
    (h : Mailed env s₀ pre email codeHash) (st : Step) :
    Mailed env s₀ (pre ++ [st]) email codeHash := by
  obtain ⟨before, input, rest, address, rfl, hmails⟩ := h
  exact ⟨before, input, rest ++ [st], address, by simp, hmails⟩

theorem Traced.concat {s₀ : IdentityServer} (h : Traced env s₀ pre)
    (hstep : Traces env (after env s₀ pre) st (step env (after env s₀ pre) st).server) :
    Traced env s₀ (pre ++ [st]) := by
  apply Traced.mk
  · intro row hrow hpurpose
    rw [after_concat] at hrow
    rcases hstep.codes row hrow hpurpose with
      ⟨old, hold, -, hemail, hsame, hcode⟩ | ⟨input, address, rfl, hmails, hemail, hcode⟩
    · rw [← hemail, ← hcode]
      exact (h.codes old hold (hsame.trans hpurpose)).concat st
    · exact ⟨pre, input, [], address, rfl, hmails, hemail, hcode⟩
  · intro identity hidentity sub hsub
    rw [after_concat] at hidentity
    rcases hstep.links identity hidentity sub hsub with
      ⟨old, hold, hemail, hlinked⟩ | ⟨q, input, claims, rfl, hclaims⟩
    · rw [← hemail]
      obtain ⟨q, input, claims, hmem, hclaims⟩ := h.links old hold sub hlinked
      exact ⟨q, input, claims, List.mem_append_left _ hmem, hclaims⟩
    · exact ⟨q, input, claims, by simp, hclaims⟩
  · intro client row hrow
    rw [after_concat] at hrow
    rcases hstep.challenges client row hrow with ⟨hold, hunused⟩ | ⟨input, rfl, hclient, rfl⟩
    · obtain ⟨before, input, rest, rfl, hclient, hdrawn, hexp, hfresh⟩ := h.challenges client row hold
      refine ⟨before, input, rest ++ [st], by simp, hclient, hdrawn, hexp, fun other hother => ?_⟩
      rcases List.mem_append.mp hother with hmem | hmem
      · exact hfresh other hmem
      · rw [List.mem_singleton.mp hmem]
        exact hunused
    · exact ⟨pre, input, [], rfl, hclient, rfl, rfl, fun _ hmem => by cases hmem⟩

/-- A lookup issues a token to a caller that shows nothing. -/
theorem given_away {s₀ : IdentityServer} (h : ¬ NotByLookup (after env s₀ pre) st) :
    ∃ token, (step env (after env s₀ pre) st).token = some token ∧
      ∀ identity, ¬ Possesses env s₀ pre st identity := by
  cases st with
  | mined tx => exact absurd trivial h
  | route route input =>
    obtain ⟨identity, hidentity⟩ := Option.ne_none_iff_exists'.mp h
    have hlookup : ∀ o, ByLookup (after env s₀ pre) input route o →
        step env (after env s₀ pre) (.route route input) = o →
        ∃ token, (step env (after env s₀ pre) (.route route input)).token = some token := by
      intro o ho heq
      rw [heq, ho.token, hidentity]
      exact ⟨_, rfl⟩
    cases route with
    | passkeyLogin =>
      obtain ⟨token, htoken⟩ := hlookup _ byLookup_passkeyLogin rfl
      exact ⟨token, htoken, fun _ hshown => by cases hshown⟩
    | postWallets =>
      obtain ⟨token, htoken⟩ := hlookup _ byLookup_postWallets rfl
      exact ⟨token, htoken, fun _ hshown => by cases hshown⟩
    | patchWallets =>
      obtain ⟨token, htoken⟩ := hlookup _ byLookup_patchWallets rfl
      exact ⟨token, htoken, fun _ hshown => by cases hshown⟩
    | postMethods =>
      obtain ⟨token, htoken⟩ := hlookup _ byLookup_postMethods rfl
      exact ⟨token, htoken, fun _ hshown => by cases hshown⟩
    | recoverProve =>
      by_cases hkind : str (field input.body "kind") = some "yubikey"
      · rw [publicIdentity, if_pos hkind] at hidentity
        obtain ⟨method, hmethod, hidentity⟩ := Option.bind_eq_some_iff.mp hidentity
        have htoken : (recoverProve env (after env s₀ pre) input).token = some _ :=
          token_recoverProve.mpr
            ⟨method, identity, (provingMethod_yubikey hkind).mpr hmethod, hidentity, rfl⟩
        refine ⟨_, htoken, fun _ hshown => ?_⟩
        cases hshown with
        | key _ hsigns =>
          rw [hsigns.kind] at hkind
          exact absurd hkind (by decide)
      · rw [publicIdentity, if_neg hkind] at hidentity
        cases hidentity
    | _ => cases hidentity

/-- A token that is issued for what anyone may know is not backed. -/
theorem not_backed {s₀ : IdentityServer} (h : ¬ NotByLookup (after env s₀ pre) st) :
    ¬ Backed env s₀ pre st := by
  intro hbacked
  obtain ⟨token, htoken, hnobody⟩ := given_away h
  obtain ⟨shown, -, hshown⟩ := hbacked token htoken
  exact hnobody shown hshown

/-- Any other token is backed. -/
theorem Traced.backed {s₀ : IdentityServer} (h : Traced env s₀ pre)
    (hfresh : FreshDraw (after env s₀ pre) st) (hlookup : NotByLookup (after env s₀ pre) st) :
    Backed env s₀ pre st := by
  intro token htoken
  have haside : ∀ o, Aside (after env s₀ pre) o → step env (after env s₀ pre) st = o → False := by
    intro o ho heq
    rw [heq, ho.token] at htoken
    cases htoken
  cases st with
  | mined tx => cases htoken
  | route route input =>
    have hnone : ∀ o, ByLookup (after env s₀ pre) input route o →
        step env (after env s₀ pre) (.route route input) = o → False := by
      intro o ho heq
      have hpublic : publicIdentity (after env s₀ pre) input route = none := hlookup
      rw [heq, ho.token, hpublic] at htoken
      cases htoken
    cases route with
    | emailStart =>
      have hnone : (emailStart env (after env s₀ pre) input).token = some token := htoken
      rw [token_emailStart] at hnone
      cases hnone
    | emailVerify =>
      obtain ⟨email, code, identity, hemail, hcode, hok, hidentity, hfound⟩ :=
        (emailVerify_spec hfresh).2 token htoken
      refine ⟨identity, hfound, .email hemail hidentity hcode ?_⟩
      obtain ⟨row, hrow, -, hrowEmail, hpurpose, -, hhash⟩ := Recovery.consumeOtp_true hok
      have hmailed := h.codes row hrow hpurpose
      rwa [hrowEmail, ← hidentity, hhash] at hmailed
    | googleCallback q =>
      obtain ⟨claims, identity, hclaims, hfound, hemail⟩ := (googleCallback_spec hfresh).2 token htoken
      refine ⟨identity, hfound, .google hclaims ?_⟩
      rcases hemail with hemail | ⟨old, hold, hemail, hlinked⟩
      · exact .inl hemail
      · rw [← hemail]
        exact .inr (h.links old hold claims.sub hlinked)
    | recoverProve =>
      obtain ⟨method, identity, hmethod, hfound, rfl⟩ := token_recoverProve.mp htoken
      have hid : method.identityId = identity.identityId := (Table.key_of_find? hfound).symm
      have hserver : (step env (after env s₀ pre) (.route .recoverProve input)).server.db =
        (after env s₀ pre).db := db_recoverProve
      refine ⟨identity, ?_, .key hid ?_⟩
      · show getIdentityById _ identity.identityId = some identity
        rw [hserver, ← hid]
        exact hfound
      · have hkind : str (field input.body "kind") = some "eoa" := by
          apply (kind_of_provingMethod hmethod).resolve_left
          intro hyubikey
          have hpublic : publicIdentity (after env s₀ pre) input .recoverProve = none := hlookup
          rw [publicIdentity, if_pos hyubikey, (provingMethod_yubikey hyubikey).mp hmethod] at hpublic
          cases hpublic.symm.trans hfound
        obtain ⟨⟨proof, store, recovered, hproof, hstore, hrecovered, heoa, hissued⟩, hmem, hisEoa⟩ :=
          provingMethod_eoa hkind hmethod
        unfold freshChallenge at hissued
        cases hrow : (after env s₀ pre).recoverChallenges input.client with
        | none =>
          rw [hrow] at hissued
          cases hissued
        | some row =>
          rw [hrow] at hissued
          obtain ⟨hexp, hsame⟩ := of_decide_eq_true hissued
          exact ⟨hkind, ⟨proof, store, recovered, hproof, hstore, hrecovered, heoa, row.challenge,
            row.exp, h.challenges _ row hrow, hexp, hsame⟩, hmem, hisEoa⟩
    | recoverChallenge => cases htoken
    | recoverAddMethod => exact (haside _ aside_recoverAddMethod rfl).elim
    | passkeyRegister => exact (haside _ aside_passkeyRegister rfl).elim
    | passkeyLogin => exact (hnone _ byLookup_passkeyLogin rfl).elim
    | postWallets => exact (hnone _ byLookup_postWallets rfl).elim
    | patchWallets => exact (hnone _ byLookup_patchWallets rfl).elim
    | joinWallet isSigner => exact (haside _ aside_joinWallet rfl).elim
    | postMethods => exact (hnone _ byLookup_postMethods rfl).elim
    | deleteMethods => exact (haside _ aside_deleteMethods rfl).elim
    | restore => exact (haside _ aside_restore rfl).elim
    | operator requests jobs => cases htoken

theorem Traced.backed_iff {s₀ : IdentityServer} (h : Traced env s₀ pre)
    (hfresh : FreshDraw (after env s₀ pre) st) :
    Backed env s₀ pre st ↔ NotByLookup (after env s₀ pre) st :=
  ⟨fun hbacked => by_contra fun hlookup => not_backed hlookup hbacked, h.backed hfresh⟩

theorem Traced.empty (recoveryOperator owner : Evm.Address) :
    Traced env (started recoveryOperator owner) [] :=
  ⟨fun row hrow => (by cases hrow), fun identity hidentity => (by cases hidentity),
    fun client row hrow => (by cases hrow)⟩

theorem traced_after (env : Env) (recoveryOperator owner : Evm.Address) {steps : List Step}
    (hfresh : Each (fun pre => FreshDraw (after env (started recoveryOperator owner) pre)) steps) :
    Traced env (started recoveryOperator owner) steps := by
  induction steps using List.reverseRecOn with
  | nil => exact Traced.empty recoveryOperator owner
  | append_singleton steps st ih =>
    obtain ⟨hsteps, hst⟩ := each_concat.mp hfresh
    exact (ih hsteps).concat (step_traces hst)

/-- Step by step along a run, a token goes to the owner of its identity exactly if the call does not
look the identity up by what anyone may know. -/
theorem backed_of_run (env : Env) (recoveryOperator owner : Evm.Address) {steps : List Step}
    (hfresh : Each (fun pre => FreshDraw (after env (started recoveryOperator owner) pre)) steps) :
    Each (fun pre st => Backed env (started recoveryOperator owner) pre st ↔
      NotByLookup (after env (started recoveryOperator owner) pre) st) steps := by
  intro pre st hpre
  have hbefore : Each (fun pre => FreshDraw (after env (started recoveryOperator owner) pre)) pre :=
    fun pre' st' hpre' =>
      hfresh pre' st' (hpre'.trans ((List.prefix_append pre [st]).trans hpre))
  exact (traced_after env recoveryOperator owner hbefore).backed_iff (hfresh pre st hpre)

/-- A run issues tokens to the owners of identities only, exactly if no call looks an identity up by
what anyone may know. -/
theorem possession_iff_of_run (env : Env) (recoveryOperator owner : Evm.Address)
    (steps : List Step)
    (hfresh : Each (fun pre => FreshDraw (after env (started recoveryOperator owner) pre)) steps) :
    ProofOfPossession env (started recoveryOperator owner) steps ↔
      Each (fun pre => NotByLookup (after env (started recoveryOperator owner) pre)) steps := by
  have hbacked := backed_of_run env recoveryOperator owner hfresh
  apply Iff.intro
  · exact fun h pre st hpre => (hbacked pre st hpre).mp (h pre st hpre)
  · exact fun h pre st hpre => (hbacked pre st hpre).mpr (h pre st hpre)

def signUp : List Step :=
  [.route .emailStart (sampleInput [("email", "alice@example.org")] none),
    .route .emailVerify (sampleInput [("email", "alice@example.org"), ("code", "123456")] none)]

theorem freshDraw_signUp :
    Each (fun pre => FreshDraw (after sampleEnv (started 0 0) pre)) signUp := by
  have hfresh : getIdentityById
      (after sampleEnv (started 0 0) (signUp.take 1)).db.wallets (hex32 0xA11CE) = none := by
    decide +kernel
  exact each_concat.mpr ⟨each_concat.mpr ⟨each_nil, trivial⟩, hfresh⟩

theorem possession_of_signUp : ProofOfPossession sampleEnv (started 0 0) signUp :=
  (possession_iff_of_run sampleEnv 0 0 signUp freshDraw_signUp).mpr
    (each_concat.mpr ⟨each_concat.mpr ⟨each_nil, rfl⟩, rfl⟩)

-- The owner of an identity registers a passkey, and anyone sends its credential id.
def passkeyKnown : List Step :=
  signUp ++ [.route .passkeyRegister (sampleInput [("qx", hex32 11), ("qy", hex32 12),
    ("credentialId", "key")] (some ⟨hex32 0xA11CE, "alice@example.org"⟩))]

def loginByCredentialId : Step := .route .passkeyLogin (sampleInput [("credentialId", "key")] none)

/-- Along every run, a call that does not look the identity up by what anyone may know issues tokens
to owners only, and one that does issues a token to a caller that has shown nothing. -/
theorem issued_to_owners (env : Env) (recoveryOperator owner : Evm.Address) (steps : List Step)
    (hfresh : Each (fun pre => FreshDraw (after env (started recoveryOperator owner) pre)) steps) :
    (Each (fun pre => NotByLookup (after env (started recoveryOperator owner) pre)) steps →
      ProofOfPossession env (started recoveryOperator owner) steps) ∧
    Each (fun pre st => ¬ NotByLookup (after env (started recoveryOperator owner) pre) st →
      ∃ token, (step env (after env (started recoveryOperator owner) pre) st).token = some token ∧
        ∀ identity, ¬ Possesses env (started recoveryOperator owner) pre st identity) steps := by
  apply And.intro
  · intro h pre st hpre
    exact (backed_of_run env recoveryOperator owner hfresh pre st hpre).mpr (h pre st hpre)
  · exact fun _ _ _ hlookup => given_away hlookup

theorem issued_to_owners_passkeyKnown : ProofOfPossession sampleEnv (started 0 0) passkeyKnown :=
  (issued_to_owners sampleEnv 0 0 passkeyKnown (each_concat.mpr ⟨freshDraw_signUp, trivial⟩)).1
    (each_concat.mpr ⟨each_concat.mpr ⟨each_concat.mpr ⟨each_nil, rfl⟩, rfl⟩, rfl⟩)

/-- The credential id of a passkey is enough for a session of its owner. -/
theorem login_by_credential_id :
    (step sampleEnv (after sampleEnv (started 0 0) passkeyKnown) loginByCredentialId).token =
        some (.identity (hex32 0xA11CE) "alice@example.org") ∧
      ¬ ProofOfPossession sampleEnv (started 0 0) (passkeyKnown ++ [loginByCredentialId]) := by
  have htoken : (step sampleEnv (after sampleEnv (started 0 0) passkeyKnown)
      loginByCredentialId).token = some (.identity (hex32 0xA11CE) "alice@example.org") := by
    decide +kernel
  refine ⟨htoken, fun h => ?_⟩
  obtain ⟨identity, -, hshown⟩ := (each_concat.mp h).2 _ htoken
  cases hshown

end OnchainInvoice.IdentityRoutes
