import OnchainInvoice.Lib.JsonRoundTrip
import OnchainInvoice.Session.IdentitySession

/-!
# The kinds of tokens

The three kinds share one secret and one form of MAC, so a verifier tells them apart by the fields
of the payload alone.  A recovery session has every field an identity session has.
-/

namespace OnchainInvoice.Session

open Lib.Json
open Server (trim lowerCase)

/-! ## What was issued -/

inductive Kind where
  | session | recover | oauth
deriving DecidableEq, Repr

-- A call of one of the three issuers.
inductive Issue where
  | session (identityId email : String) (now : Server.Number)
  | recover (p : RecoverPayload) (now : Server.Number)
  | oauth (nonce : String) (now : Server.Number)

def Issue.kind : Issue → Kind
  | .session _ _ _ => .session
  | .recover _ _ => .recover
  | .oauth _ _ => .oauth

def Issue.payload : Issue → Value
  | .session identityId email now => identityPayload identityId email now
  | .recover p now => recoverPayload p now
  | .oauth nonce now => oauthPayload nonce now

-- The time from which a token counts as expired.
def Issue.expires : Issue → Option Int
  | .session _ _ now => now.map (· + SESSION_TTL_MS)
  | .recover _ now => now.map (· + RECOVER_TTL_MS)
  | .oauth _ now => now.map (· + OAUTH_TTL_MS)

def Issue.unexpired (now : Int) (i : Issue) : Bool := i.expires.any (now ≤ ·)

variable (crypto : Primitives) (secret : Text)

def Issue.token : Issue → Text
  | .session identityId email now => issueIdentitySession crypto secret identityId email now
  | .recover p now => issueIdentityRecoverSession crypto secret p now
  | .oauth nonce now => issueOAuthState crypto secret nonce now

-- The payload and the MAC of `t` are those of the token that was issued.
def Carries (t : Text) (i : Issue) : Prop := parts t = parts (i.token crypto secret)

def ProducedBy (run : List Issue) (kind : Kind) (now : Int) (t : Text) : Prop :=
  ∃ i ∈ run, i.kind = kind ∧ Carries crypto secret t i ∧ i.unexpired now = true

-- Each verifier accepts only what its own issuer produced.
structure Separated (run : List Issue) (now : Int) (t : Text) : Prop where
  session : (verifyIdentitySession crypto secret (some t) now).isSome = true →
    ProducedBy crypto secret run .session now t
  recover : (verifyIdentityRecoverSession crypto secret (some t) now).isSome = true →
    ProducedBy crypto secret run .recover now t
  oauth : verifyOAuthState crypto secret (some t) now = true →
    ProducedBy crypto secret run .oauth now t

-- Nobody but the issuers makes a MAC under the secret.
def Unforged (run : List Issue) (t : Text) : Prop :=
  ∀ payload, parts t = some (payload, crypto.hmac secret payload) →
    ∃ i ∈ run, payload = crypto.toBase64url (stringify i.payload)

-- An identity and an email address that a session could be for.
def RecoverPayload.named (p : RecoverPayload) : Bool := p.identityId ≠ "" && '@' ∈ p.email.toList

/-! ## Signed payloads -/

variable {crypto secret} {i : Issue} {t : Text} {now : Int}

theorem Issue.token_eq (i : Issue) : i.token crypto secret = signPayload crypto secret i.payload := by
  cases i <;> rfl

theorem stringify_ne_nil (v : Value) : stringify v ≠ [] := by
  obtain ⟨c, u, htext, -⟩ := head_stringify v
  rw [htext]
  exact List.cons_ne_nil c u

theorem parts_signPayload (v : Value) : parts (signPayload crypto secret v) =
    some (crypto.toBase64url (stringify v),
      crypto.hmac secret (crypto.toBase64url (stringify v))) := by
  unfold parts signPayload
  dsimp only
  rw [List.splitOn_append_cons_self_of_not_mem (crypto.dot_notMem_encode _),
    List.splitOn_eq_singleton (crypto.dot_notMem_hmac _ _)]
  simp [crypto.encode_ne_nil _ (stringify_ne_nil v), crypto.hmac_ne_nil]

theorem parts_ne_nil {payload sig : Text} (h : parts t = some (payload, sig)) : t ≠ [] := by
  rintro rfl
  cases h

/-- A verifier sees the payload of a token that was issued. -/
theorem verifyPayload_of_carries (hsecret : secret ≠ []) (h : Carries crypto secret t i) :
    verifyPayload crypto secret (some t) = some i.payload := by
  have hparts : parts t = some (crypto.toBase64url (stringify i.payload),
      crypto.hmac secret (crypto.toBase64url (stringify i.payload))) := by
    rw [h, Issue.token_eq, parts_signPayload]
  simp [verifyPayload, parts_ne_nil hparts, hsecret, hparts, crypto.decode_encode, parse_stringify]

/-- And it sees no other. -/
theorem carries_of_verifyPayload {run : List Issue} (hrun : Unforged crypto secret run t)
    {v : Value} (h : verifyPayload crypto secret (some t) = some v) :
    ∃ i ∈ run, Carries crypto secret t i ∧ v = i.payload := by
  simp only [verifyPayload, Option.bind_eq_bind, Option.bind_some] at h
  split at h
  · cases h
  · obtain ⟨⟨payload, sig⟩, hparts, h⟩ := Option.bind_eq_some_iff.mp h
    dsimp only at h
    split at h
    · next hsig =>
      rw [hsig] at hparts
      obtain ⟨i, hi, hpayload⟩ := hrun payload hparts
      refine ⟨i, hi, ?_, ?_⟩
      · rw [Carries, Issue.token_eq, parts_signPayload, hparts, hpayload]
      · rw [hpayload, crypto.decode_encode, parse_stringify] at h
        exact (Option.some.inj h).symm
    · cases h

/-! ## Fields of the payloads -/

theorem notPast_expiry (m : Server.Number) (ttl : Int) :
    notPast now (expiry m ttl) = (m.map (· + ttl)).any (now ≤ ·) := by
  cases m with
  | none => rfl
  | some n =>
    simp only [expiry, notPast, Literal.value_ofInt, Option.map_some, Option.any_some]
    norm_cast

theorem truthy_text (s : String) : truthy (text s) = decide (s ≠ "") := by
  simp [truthy, text]

-- The fields of a recovery session's payload do not depend on which of the optional ones it has.
theorem has_recoverPayload (p : RecoverPayload) (m : Server.Number) (test : Value → Bool) :
    has (recoverPayload p m) "identityId" test = test (text p.identityId) ∧
      has (recoverPayload p m) "email" test = test (text p.email) ∧
      has (recoverPayload p m) "kind" test = test (.string p.kind.text) ∧
      has (recoverPayload p m) "exp" test = test (expiry m RECOVER_TTL_MS) ∧
      has (recoverPayload p m) "nonce" test = false := by
  obtain ⟨identityId, email, kind, methodId, credentialId, qx, qy, eoa⟩ := p
  cases credentialId <;> cases qx <;> cases qy <;> cases eoa <;> exact ⟨rfl, rfl, rfl, rfl, rfl⟩

-- A recovery session has what an identity session is recognised by.
theorem named_eq (p : RecoverPayload) (m : Server.Number) :
    (has (recoverPayload p m) "identityId" truthy && has (recoverPayload p m) "email" includesAt)
      = p.named := by
  rw [(has_recoverPayload p m truthy).1, (has_recoverPayload p m includesAt).2.1, truthy_text]
  rfl

theorem has_exp (i : Issue) : has i.payload "exp" (notPast now) = i.unexpired now := by
  cases i with
  | session identityId email m => exact notPast_expiry m _
  | recover p m =>
    obtain ⟨-, -, -, hexp, -⟩ := has_recoverPayload p m (notPast now)
    exact hexp.trans (notPast_expiry m _)
  | oauth nonce m => exact notPast_expiry m _

-- Only a recovery session says which kind of method proved it.
theorem has_kind (i : Issue) :
    has i.payload "kind" (fun _ => true) = true ↔ i.kind = .recover := by
  cases i with
  | session identityId email m => exact iff_of_false Bool.false_ne_true Kind.noConfusion
  | recover p m => exact iff_of_true (has_recoverPayload p m _).2.2.1 rfl
  | oauth nonce m => exact iff_of_false Bool.false_ne_true Kind.noConfusion

-- And only the state of a login has a nonce.
theorem kind_of_has_nonce {i : Issue} (h : has i.payload "nonce" truthy = true) :
    i.kind = .oauth := by
  cases i with
  | session identityId email m => cases h
  | recover p m =>
    rw [Issue.payload, (has_recoverPayload p m truthy).2.2.2.2] at h
    cases h
  | oauth nonce m => rfl

theorem has_mono {v : Value} {name : String} {test test' : Value → Bool}
    (htest : ∀ w, test w = true → test' w = true) (h : has v name test = true) :
    has v name test' = true := by
  unfold has at h ⊢
  rw [Option.any_eq_true] at h ⊢
  obtain ⟨w, hw, hpass⟩ := h
  exact ⟨w, hw, htest w hpass⟩

/-! ## What each verifier accepts -/

theorem isSome_verifyIdentitySession :
    (verifyIdentitySession crypto secret (some t) now).isSome = true ↔
      ∃ v, verifyPayload crypto secret (some t) = some v ∧ has v "identityId" truthy = true ∧
        has v "email" includesAt = true ∧ has v "exp" (notPast now) = true := by
  unfold verifyIdentitySession
  cases verifyPayload crypto secret (some t) with
  | none => simp
  | some v =>
    simp only [Option.bind_eq_bind, Option.bind_some, Option.some.injEq, exists_eq_left']
    split <;> simp_all

theorem fields_of_verifyIdentityRecoverSession
    (h : (verifyIdentityRecoverSession crypto secret (some t) now).isSome = true) :
    ∃ v, verifyPayload crypto secret (some t) = some v ∧
      has v "kind" (fun _ => true) = true ∧ has v "exp" (notPast now) = true := by
  unfold verifyIdentityRecoverSession at h
  cases hv : verifyPayload crypto secret (some t) with
  | none => simp [hv] at h
  | some v =>
    simp only [hv, Option.bind_eq_bind, Option.bind_some] at h
    split at h
    · next hfields =>
      simp only [Bool.and_eq_true, Bool.or_eq_true] at hfields
      obtain ⟨⟨⟨-, hkind⟩, -⟩, hexp⟩ := hfields
      refine ⟨v, rfl, ?_, hexp⟩
      rcases hkind with hkind | hkind <;> exact has_mono (fun _ _ => rfl) hkind
    · cases h

theorem verifyOAuthState_eq_true :
    verifyOAuthState crypto secret (some t) now = true ↔
      ∃ v, verifyPayload crypto secret (some t) = some v ∧ has v "nonce" truthy = true ∧
        has v "exp" (notPast now) = true := by
  unfold verifyOAuthState
  cases verifyPayload crypto secret (some t) with
  | none => simp
  | some v => simp

theorem kind_of_identity_fields {i : Issue} (h : has i.payload "identityId" truthy = true) :
    i.kind ≠ .oauth := by
  cases i with
  | session identityId email m => exact Kind.noConfusion
  | recover p m => exact Kind.noConfusion
  | oauth nonce m => cases h

/-! ## The kinds are told apart, but for one pair -/

/-- A token is accepted only by the verifier of its own kind, unless it is an unexpired recovery
session that names an identity and an email address: that one is taken for an identity session. -/
theorem separated_iff (hsecret : secret ≠ []) {run : List Issue}
    (hrun : Unforged crypto secret run t) : Separated crypto secret run now t ↔
      ¬ ∃ p m, .recover p m ∈ run ∧ Carries crypto secret t (.recover p m) ∧ p.named = true ∧
        (Issue.recover p m).unexpired now = true := by
  apply Iff.intro
  · rintro hsep ⟨p, m, -, hcarries, hnamed, hlive⟩
    have hpayload := verifyPayload_of_carries hsecret hcarries
    rw [← named_eq p m, Bool.and_eq_true] at hnamed
    have haccepted : (verifyIdentitySession crypto secret (some t) now).isSome = true :=
      isSome_verifyIdentitySession.mpr
        ⟨_, hpayload, hnamed.1, hnamed.2, (has_exp (.recover p m)).trans hlive⟩
    obtain ⟨j, -, hj, hcarries', -⟩ := hsep.session haccepted
    have hsame : j.payload = (Issue.recover p m).payload :=
      Option.some.inj ((verifyPayload_of_carries hsecret hcarries').symm.trans hpayload)
    have hkind := (has_kind (.recover p m)).mpr rfl
    rw [← hsame, has_kind, hj] at hkind
    cases hkind
  · intro hnone
    refine ⟨fun h => ?_, fun h => ?_, fun h => ?_⟩
    · obtain ⟨v, hv, hid, hemail, hexp⟩ := isSome_verifyIdentitySession.mp h
      obtain ⟨i, hi, hcarries, rfl⟩ := carries_of_verifyPayload hrun hv
      rw [has_exp] at hexp
      cases i with
      | session identityId email m => exact ⟨_, hi, rfl, hcarries, hexp⟩
      | recover p m =>
        have hnamed : p.named = true := by
          rw [← named_eq p m, Bool.and_eq_true]
          exact ⟨hid, hemail⟩
        exact absurd ⟨p, m, hi, hcarries, hnamed, hexp⟩ hnone
      | oauth nonce m => exact absurd rfl (kind_of_identity_fields hid)
    · obtain ⟨v, hv, hkind, hexp⟩ := fields_of_verifyIdentityRecoverSession h
      obtain ⟨i, hi, hcarries, rfl⟩ := carries_of_verifyPayload hrun hv
      exact ⟨i, hi, (has_kind i).mp hkind, hcarries, (has_exp i).symm.trans hexp⟩
    · obtain ⟨v, hv, hnonce, hexp⟩ := verifyOAuthState_eq_true.mp h
      obtain ⟨i, hi, hcarries, rfl⟩ := carries_of_verifyPayload hrun hv
      exact ⟨i, hi, kind_of_has_nonce hnonce, hcarries, (has_exp i).symm.trans hexp⟩

theorem unforged_token {run : List Issue} {i : Issue} (hi : i ∈ run) :
    Unforged crypto secret run (i.token crypto secret) := by
  intro payload hparts
  rw [Issue.token_eq, parts_signPayload] at hparts
  injection hparts with hparts
  injection hparts with hpayload _
  exact ⟨i, hi, hpayload.symm⟩

/-! ## Concrete tokens -/

-- A text without dots for every text.
def escapeDots : Text → Text
  | [] => []
  | c :: t =>
    if c = '.' then '-' :: 'd' :: escapeDots t
    else if c = '-' then '-' :: '-' :: escapeDots t
    else c :: escapeDots t

def unescapeDots : Text → Text
  | '-' :: 'd' :: t => '.' :: unescapeDots t
  | '-' :: _ :: t => '-' :: unescapeDots t
  | c :: t => c :: unescapeDots t
  | [] => []

theorem unescapeDots_escapeDots (t : Text) : unescapeDots (escapeDots t) = t := by
  induction t with
  | nil => rfl
  | cons c t ih =>
    unfold escapeDots
    split
    · next hdot => rw [hdot, unescapeDots, ih]
    · split
      · next hdash => rw [hdash, unescapeDots, ih]; decide
      · next hdash => rw [unescapeDots, ih] <;> simp_all

theorem dot_notMem_escapeDots (t : Text) : '.' ∉ escapeDots t := by
  induction t with
  | nil => decide
  | cons c t ih =>
    unfold escapeDots
    split
    · simpa using ih
    · next hdot =>
      split
      · simpa using ih
      · simpa using ⟨fun h => hdot h.symm, ih⟩

theorem escapeDots_ne_nil (t : Text) (h : t ≠ []) : escapeDots t ≠ [] := by
  cases t with
  | nil => exact absurd rfl h
  | cons c t =>
    unfold escapeDots
    split
    · exact List.cons_ne_nil _ _
    · split <;> exact List.cons_ne_nil _ _

def escaped : Primitives where
  hmac secret t := 'm' :: escapeDots (secret ++ t)
  toBase64url := escapeDots
  ofBase64url := unescapeDots
  decode_encode := unescapeDots_escapeDots
  dot_notMem_encode := dot_notMem_escapeDots
  encode_ne_nil := escapeDots_ne_nil
  dot_notMem_hmac secret t := by simpa using dot_notMem_escapeDots (secret ++ t)
  hmac_ne_nil secret t := List.cons_ne_nil _ _

def provenKey : RecoverPayload where
  identityId := "0x01"
  email := "a@b"
  kind := .yubikey
  methodId := "0x02"
  credentialId := some "key"
  qx := none
  qy := none
  eoa := none

theorem separated_signIn : Separated escaped ['s']
    [.oauth "n" (some 0), .recover provenKey (some 0), .session "0x01" "a@b" (some 0)] 0
    ((Issue.session "0x01" "a@b" (some 0)).token escaped ['s']) := by
  apply (separated_iff (by decide) (unforged_token (by simp))).mpr
  rintro ⟨p, m, -, hcarries, -⟩
  have hsame := (verifyPayload_of_carries (by decide) hcarries).symm.trans
    (verifyPayload_of_carries (by decide) (i := .session "0x01" "a@b" (some 0)) rfl)
  have hkind := (has_kind (.recover p m)).mpr rfl
  rw [Option.some.inj hsame, has_kind] at hkind
  cases hkind

/-- A recovery session is accepted as an identity session. -/
theorem not_separated_provenKey : ¬ Separated escaped ['s'] [.recover provenKey (some 0)] 0
    ((Issue.recover provenKey (some 0)).token escaped ['s']) := by
  intro hsep
  have hpayload : verifyPayload escaped ['s'] (some ((Issue.recover provenKey (some 0)).token
      escaped ['s'])) = some (recoverPayload provenKey (some 0)) :=
    verifyPayload_of_carries (by decide) (i := .recover provenKey (some 0)) rfl
  have hnamed := (named_eq provenKey (some 0)).trans (by decide : provenKey.named = true)
  rw [Bool.and_eq_true] at hnamed
  have hlive : (Issue.recover provenKey (some 0)).unexpired 0 = true := by decide
  obtain ⟨i, hi, hkind, -⟩ := hsep.session (isSome_verifyIdentitySession.mpr
    ⟨_, hpayload, hnamed.1, hnamed.2, (has_exp (.recover provenKey (some 0))).trans hlive⟩)
  rw [List.mem_singleton.mp hi] at hkind
  cases hkind

end OnchainInvoice.Session
