import OnchainInvoice.WebAuthn.Readings

/-!
# Assertions that the server accepts, on the chain

The server parses the client data as JSON, the contract compares bytes at the places that the
encoder names, and checks flags that the server does not look at.
-/

namespace OnchainInvoice.WebAuthnVerify

open Lib.ByteTexts (Text hex encode decode)
open Lib.Json (Value)
open Lib.Utf8 Lib.Revert WebAuthn
open WebAuthnSignature (WebAuthnAssertionJson startsWith0x word readHex getBytes encodeAuth
  encodeWebAuthnParts encodeWebAuthnSignatureFromJson decodeClientData decodeToBytes standardBase64)
open Evm hiding utf8

/-! ## Both sides -/

variable (hostname : Value → Option Text) (rpId : Text) (origins : Option (List Text))
  (crypto : Crypto) (challenge qx qy : Bytes32) (p : P256) (assertion : WebAuthnAssertionJson)

def optionsFor : VerifyWebAuthnOptions :=
  ⟨challengeToBase64Url (wordBytes challenge), rpId, origins, '0' :: 'x' :: hex (wordBytes qx),
    '0' :: 'x' :: hex (wordBytes qy)⟩

def Accepted : Prop :=
  verifyWebAuthnAssertion hostname p assertion (optionsFor rpId origins challenge qx qy) = .ok ()

-- The encoder does not throw, and the contract takes what it writes.
def PassesOnChain : Prop := ∃ sig, encodeWebAuthnSignatureFromJson assertion = .ok sig ∧
  IdentityTypes.verifyWebAuthn (withP256 p crypto) challenge sig qx qy = .ok true

-- What the server and the contract have to agree on.
structure Relayable : Prop where
  clientData :
    decodeClientData assertion.clientDataJSON = decodeToUtf8 assertion.clientDataJSON
  authenticatorData : HexText assertion.authenticatorData
  signature : parseEs256Signature (decodeToBytes assertion.signature) =
    (parseEs256 (decodeToBuffer assertion.signature)).map normalizeP256Signature
  flags : validFlags (authenticatorBytes assertion) = true
  type : ∀ before after,
    cut typeText (decodeToUtf8 assertion.clientDataJSON) = some (before, after) → Ascii before
  challenge : ∀ before after,
    cut challengeText (decodeToUtf8 assertion.clientDataJSON) = some (before, after) →
      Ascii before ∧ challengeEnd (wordBytes challenge) <+: after

variable {hostname rpId origins crypto challenge qx qy p assertion}

/-! ## What the server accepts -/

theorem word_wordBytes (x : Bytes32) : word (wordBytes x) = x := by
  apply BitVec.eq_of_toNat_eq
  rw [toNat_word (length_wordBytes x), beNat_wordBytes]

theorem p256PublicKeyFromCoords_eq : p256PublicKeyFromCoords p ('0' :: 'x' :: hex (wordBytes qx))
    ('0' :: 'x' :: hex (wordBytes qy)) =
      if p.onCurve qx qy then .ok (qx, qy) else .error .invalidKey := by
  have hstrip : ∀ t : Text, strip0x ('0' :: 'x' :: t) = t := fun _ => rfl
  have hread : ∀ x : Bytes32, bufferFromHex (hex (wordBytes x)) = wordBytes x := fun x =>
    bufferFromHex_of_readHex (readHex_hex _)
  unfold p256PublicKeyFromCoords
  simp only [hstrip, hread, length_wordBytes, word_wordBytes]
  cases p.onCurve qx qy <;> rfl

-- What the server checks before it turns to the key.
structure Reads (hostname : Value → Option Text) (options : VerifyWebAuthnOptions)
    (assertion : WebAuthnAssertionJson) (es : Es256) : Prop where
  signature : parseEs256 (decodeToBuffer assertion.signature) = .ok es
  type : (cut typeText (decodeToUtf8 assertion.clientDataJSON)).isSome = true
  challenge : (cut challengeText (decodeToUtf8 assertion.clientDataJSON)).isSome = true
  clientData : ∃ clientData, Lib.Json.parse (decodeToUtf8 assertion.clientDataJSON) =
    some clientData ∧ checkType clientData = .ok () ∧
      checkChallenge clientData options.expectedChallengeBase64Url = .ok () ∧
      checkOrigin hostname clientData options = .ok ()

theorem parseAssertionJson_eq_ok {parts : WebAuthnSignature.WebAuthnAssertionParts} :
    parseAssertionJson assertion = .ok parts ↔ ∃ es before after before' after',
      parseEs256 (decodeToBuffer assertion.signature) = .ok es ∧
      cut typeText (decodeToUtf8 assertion.clientDataJSON) = some (before, after) ∧
      cut challengeText (decodeToUtf8 assertion.clientDataJSON) = some (before', after') ∧
      parts = ⟨es.r, es.s, unitLength before', unitLength before,
        decodeToHex assertion.authenticatorData, decodeToUtf8 assertion.clientDataJSON⟩ := by
  unfold parseAssertionJson indexOf
  simp only [bind_eq_ok, mapError_eq_ok, orRevert_eq_ok, pure_eq_ok, Option.map_eq_some_iff]
  apply Iff.intro
  · rintro ⟨es, hes, _, ⟨⟨before, after⟩, htype, rfl⟩, _, ⟨⟨before', after'⟩, hchallenge, rfl⟩, rfl⟩
    exact ⟨es, before, after, before', after', hes, htype, hchallenge, rfl⟩
  · rintro ⟨es, before, after, before', after', hes, htype, hchallenge, rfl⟩
    exact ⟨es, hes, _, ⟨_, htype, rfl⟩, _, ⟨_, hchallenge, rfl⟩, rfl⟩

theorem accepted_iff : Accepted hostname rpId origins challenge qx qy p assertion ↔
    ∃ es, Reads hostname (optionsFor rpId origins challenge qx qy) assertion es ∧
      p.onCurve qx qy = true ∧ p.verify (p.digest (authenticatorBytes assertion)
        (utf8 (decodeToUtf8 assertion.clientDataJSON))) (beNat es.r) (beNat es.s) qx qy = true := by
  unfold Accepted verifyWebAuthnAssertion
  have hkey : p256PublicKeyFromCoords p (optionsFor rpId origins challenge qx qy).ownerQx
      (optionsFor rpId origins challenge qx qy).ownerQy =
      if p.onCurve qx qy then .ok (qx, qy) else .error .invalidKey := p256PublicKeyFromCoords_eq
  simp only [hkey, bind_eq_ok, parseAssertionJson_eq_ok, orRevert_eq_ok]
  apply Iff.intro
  · rintro ⟨_, ⟨es, before, after, before', after', hes, htype, hchallenge, rfl⟩, clientData,
      hparse, _, hchecktype, _, hcheckchallenge, _, hcheckorigin, key, hcurve, hverify⟩
    split at hcurve
    · next honcurve =>
      cases hcurve
      rw [revertIf_eq_ok, Bool.not_eq_false'] at hverify
      refine ⟨es, ⟨hes, by rw [htype]; rfl, by rw [hchallenge]; rfl, clientData, hparse, hchecktype,
        hcheckchallenge, hcheckorigin⟩, honcurve, hverify⟩
    · cases hcurve
  · rintro ⟨es, ⟨hes, htype, hchallenge, clientData, hparse, hchecks⟩, honcurve, hverify⟩
    obtain ⟨⟨before, after⟩, htype⟩ := Option.isSome_iff_exists.mp htype
    obtain ⟨⟨before', after'⟩, hchallenge⟩ := Option.isSome_iff_exists.mp hchallenge
    refine ⟨_, ⟨es, before, after, before', after', hes, htype, hchallenge, rfl⟩, clientData,
      hparse, (), hchecks.1, (), hchecks.2.1, (), hchecks.2.2, (qx, qy), if_pos honcurve, ?_⟩
    rw [revertIf_eq_ok, Bool.not_eq_false']
    exact hverify

/-! ## What the contract takes -/

theorem encode_eq_ok {sig : Bytes} : encodeWebAuthnSignatureFromJson assertion = .ok sig ↔
    ∃ es before after before' after' data,
      parseEs256Signature (decodeToBytes assertion.signature) = .ok es ∧
      cut typeText (decodeClientData assertion.clientDataJSON) = some (before, after) ∧
      cut challengeText (decodeClientData assertion.clientDataJSON) = some (before', after') ∧
      getBytes (WebAuthnSignature.decodeToHex assertion.authenticatorData) = some data ∧
      sig = encodeAuth ⟨word es.r, word es.s, BitVec.ofNat 256 (unitLength before'),
        BitVec.ofNat 256 (unitLength before), data,
        utf8 (decodeClientData assertion.clientDataJSON)⟩ := by
  unfold encodeWebAuthnSignatureFromJson encodeWebAuthnParts indexOf
  simp only [bind_eq_ok, mapError_eq_ok, orRevert_eq_ok, pure_eq_ok, Option.map_eq_some_iff,
    Prod.exists]
  apply Iff.intro
  · rintro ⟨es, hes, _, ⟨before, after, htype, rfl⟩, _, ⟨before', after', hchallenge, rfl⟩, data,
      hdata, heq⟩
    exact ⟨es, before, after, before', after', data, hes, htype, hchallenge, hdata, heq.symm⟩
  · rintro ⟨es, before, after, before', after', data, hes, htype, hchallenge, hdata, heq⟩
    exact ⟨es, hes, _, ⟨before, after, htype, rfl⟩, _, ⟨before', after', hchallenge, rfl⟩, data,
      hdata, heq.symm⟩

theorem standsAt_iff {text : Text} {clientData : Bytes} {index : Nat} :
    standsAt text clientData index = true ↔ utf8 text <+: clientData.drop index := by
  unfold standsAt
  rw [decide_eq_true_iff, List.prefix_iff_eq_take]
  exact eq_comm

theorem verifyWebAuthn_encodeAuth {auth : WebAuthnAuth}
    (hdata : auth.authenticatorData.length < 2 ^ 60)
    (hclient : auth.clientDataJSON.length < 2 ^ 60) :
    IdentityTypes.verifyWebAuthn (withP256 p crypto) challenge (encodeAuth auth) qx qy = .ok true ↔
      verify p (wordBytes challenge) auth qx qy = true := by
  have hlength : ¬(encodeAuth auth).length < 0xC0 := by
    unfold encodeAuth
    dsimp only
    rw [List.length_append, length_encodeWords]
    simp only [List.length_cons, List.length_nil]
    omega
  unfold IdentityTypes.verifyWebAuthn
  rw [if_neg hlength, decode_encodeAuth hdata hclient]
  split
  · next hzero =>
    -- the zero key is no point of the curve
    have hnone : verify p (wordBytes challenge) auth qx qy = false := by
      unfold verify verifySignature
      rw [hzero.1, hzero.2, p.onCurve_zero]
      simp
    rw [hnone]
    simp
  · show Except.ok _ = Except.ok true ↔ _
    rw [Except.ok.injEq]
    rfl

theorem length_authenticatorBytes (assertion : WebAuthnAssertionJson) :
    (authenticatorBytes assertion).length < 2 ^ 60 := by
  have hshort := assertion.short.1
  unfold authenticatorBytes decodeToHex
  split
  · next hstart =>
    have hle := length_bufferFromHex_le (strip0x (assertion.authenticatorData.map Char.toLower))
    have hstrip : (strip0x (assertion.authenticatorData.map Char.toLower)).length ≤
        assertion.authenticatorData.length := by
      unfold strip0x
      split
      · rw [List.length_drop, List.length_map]
        exact Nat.sub_le ..
      · rw [List.length_map]
    omega
  · next hstart =>
    have hstrip : ∀ t : Text, strip0x ('0' :: 'x' :: t) = t := fun _ => rfl
    have hle := (length_decode_le (standardBase64 assertion.authenticatorData)).trans
      (length_standardBase64_le _)
    rw [hstrip, bufferFromHex_of_readHex (readHex_hex _)]
    unfold decodeToBuffer
    rw [if_neg hstart]
    omega

theorem length_relayed (assertion : WebAuthnAssertionJson) :
    (utf8 (decodeClientData assertion.clientDataJSON)).length < 2 ^ 60 := by
  have hshort := assertion.short.2.1
  have hle := length_utf8_le (decodeClientData assertion.clientDataJSON)
  have htext := length_decodeClientData_le assertion.clientDataJSON
  omega

theorem ascii_typeText : Ascii typeText := by decide +kernel

theorem ascii_challengeText : Ascii challengeText := by decide +kernel

theorem ascii_challengeEnd (bytes : Bytes) : Ascii (challengeEnd bytes) := by
  have hall : ∀ n : Fin 64, (Lib.ByteTexts.digit true n).toNat < 128 := by decide
  unfold challengeEnd Ascii encode
  rw [List.forall_mem_append]
  apply And.intro
  · intro c hc
    obtain ⟨n, hn, rfl⟩ := List.mem_map.mp hc
    exact hall ⟨n, Lib.ByteTexts.lt_of_mem_sextets n hn⟩
  · intro c hc
    rw [List.mem_singleton.mp hc]
    decide

/-- An index of the encoder fits into a word. -/
theorem toNat_index {needle before after : Text}
    (h : cut needle (decodeClientData assertion.clientDataJSON) = some (before, after)) :
    (BitVec.ofNat 256 (unitLength before)).toNat = unitLength before := by
  have hlength := length_relayed assertion
  have hle := (unitLength_le before).1
  rw [cut_eq_append h, utf8_append, utf8_append, List.length_append, List.length_append] at hlength
  rw [BitVec.toNat_ofNat, Nat.mod_eq_of_lt]
  exact Nat.lt_trans (by omega : unitLength before < 2 ^ 60) (by decide)

/-- What the contract checks of the encoder's parts. -/
theorem verifyWebAuthn_encoded {es : Es256} {before after before' after' : Text} {data : Bytes}
    (htype : cut typeText (decodeClientData assertion.clientDataJSON) = some (before, after))
    (hchallenge : cut challengeText (decodeClientData assertion.clientDataJSON) =
      some (before', after'))
    (hdata : getBytes (WebAuthnSignature.decodeToHex assertion.authenticatorData) = some data) :
    IdentityTypes.verifyWebAuthn (withP256 p crypto) challenge (encodeAuth ⟨word es.r, word es.s,
        BitVec.ofNat 256 (unitLength before'), BitVec.ofNat 256 (unitLength before), data,
        utf8 (decodeClientData assertion.clientDataJSON)⟩) qx qy = .ok true ↔
      validFlags data = true ∧ Ascii before ∧
        (Ascii before' ∧ challengeEnd (wordBytes challenge) <+: after') ∧
        verifySignature p (p.digest data (utf8 (decodeClientData assertion.clientDataJSON)))
          (word es.r) (word es.s) qx qy = true := by
  have hsize : data.length < 2 ^ 60 := by
    rw [getBytes_decodeToHex] at hdata
    split at hdata
    · cases hdata
    · cases hdata
      exact length_authenticatorBytes assertion
  have htypeAt := utf8_prefix_at_index (x := []) (by decide) ascii_typeText
    (fun c hc => by cases hc) htype
  rw [List.append_nil] at htypeAt
  have hchallengeAt := utf8_prefix_at_index (by decide) ascii_challengeText
    (ascii_challengeEnd (wordBytes challenge)) hchallenge
  rw [verifyWebAuthn_encodeAuth hsize (length_relayed assertion)]
  unfold verify
  simp only [Bool.and_eq_true, standsAt_iff, toNat_index htype, toNat_index hchallenge, htypeAt,
    hchallengeAt, List.nil_prefix, and_true, and_assoc]

theorem passes_iff : PassesOnChain crypto challenge qx qy p assertion ↔
    ∃ es before after before' after' data,
      parseEs256Signature (decodeToBytes assertion.signature) = .ok es ∧
      cut typeText (decodeClientData assertion.clientDataJSON) = some (before, after) ∧
      cut challengeText (decodeClientData assertion.clientDataJSON) = some (before', after') ∧
      getBytes (WebAuthnSignature.decodeToHex assertion.authenticatorData) = some data ∧
      validFlags data = true ∧ Ascii before ∧
      (Ascii before' ∧ challengeEnd (wordBytes challenge) <+: after') ∧
      verifySignature p (p.digest data (utf8 (decodeClientData assertion.clientDataJSON)))
        (word es.r) (word es.s) qx qy = true := by
  unfold PassesOnChain
  simp only [encode_eq_ok]
  apply Iff.intro
  · rintro ⟨sig, ⟨es, before, after, before', after', data, hes, htype, hchallenge, hdata, heq⟩,
      hok⟩
    rw [heq, verifyWebAuthn_encoded htype hchallenge hdata] at hok
    exact ⟨es, before, after, before', after', data, hes, htype, hchallenge, hdata, hok⟩
  · rintro ⟨es, before, after, before', after', data, hes, htype, hchallenge, hdata, hchecks⟩
    rw [← verifyWebAuthn_encoded htype hchallenge hdata] at hchecks
    exact ⟨_, ⟨es, before, after, before', after', data, hes, htype, hchallenge, hdata, Eq.refl _⟩,
      hchecks⟩

/-! ## A curve with one signature -/

-- A hash that tells one message apart, and the signature `n` as the only one that is valid for it.
def onlyHash (authenticatorData clientData x : Bytes) : Bytes32 :=
  if x = clientData then 1 else if x = authenticatorData ++ wordBytes 1 then 2 else 3

def onlyDigest (authenticatorData clientData : Bytes) : Bytes32 :=
  onlyHash authenticatorData clientData (authenticatorData ++ wordBytes 1)

section OnlyHash

variable {authenticatorData clientData authenticatorData' clientData' x : Bytes}

theorem onlyHash_eq_one : onlyHash authenticatorData clientData x = 1 ↔ x = clientData := by
  unfold onlyHash
  split
  · next h => exact iff_of_true rfl h
  · next h =>
    apply iff_of_false _ h
    split <;> decide

theorem onlyHash_inj (h : onlyHash authenticatorData clientData
    (authenticatorData' ++ wordBytes (onlyHash authenticatorData clientData clientData')) =
      onlyDigest authenticatorData clientData) :
    authenticatorData' = authenticatorData ∧ clientData' = clientData := by
  generalize hhash : onlyHash authenticatorData clientData clientData' = hash at h
  by_cases hsame : authenticatorData' ++ wordBytes hash = authenticatorData ++ wordBytes 1
  · obtain ⟨hdata, hword⟩ := List.append_inj' hsame (by rw [length_wordBytes, length_wordBytes])
    exact ⟨hdata, onlyHash_eq_one.mp (hhash.trans (wordBytes_injective hword))⟩
  · exfalso
    unfold onlyDigest onlyHash at h
    rw [if_neg hsame, if_pos rfl] at h
    split at h
    · next hclient =>
      split at h
      · next hother => exact hsame (hclient.trans hother.symm)
      · exact absurd h (by decide)
    · split at h <;> exact absurd h (by decide)

end OnlyHash

def onlyP256 (authenticatorData clientData : Bytes) (n : Scalars) (qx qy : Bytes32)
    (hkey : ¬(qx = 0 ∧ qy = 0)) : P256 where
  sha256 := onlyHash authenticatorData clientData
  onCurve x y := x = qx ∧ y = qy
  verify digest r s x y := digest = onlyDigest authenticatorData clientData ∧ r = n.r ∧
    (s = n.s ∨ s + n.s = P256_N) ∧ x = qx ∧ y = qy
  onCurve_zero := by
    rw [decide_eq_false_iff_not]
    exact fun h => hkey ⟨h.1.symm, h.2.symm⟩
  range digest r s x y h := by
    obtain ⟨-, rfl, hs, -⟩ := of_decide_eq_true h
    have := n.r_pos
    have := n.r_lt
    have := n.s_pos
    have := n.s_lt
    omega
  negate digest r s x y hpos hlt := by
    have := n.s_pos
    have := n.s_lt
    have hiff : (P256_N - s = n.s ∨ P256_N - s + n.s = P256_N) ↔ (s = n.s ∨ s + n.s = P256_N) := by
      omega
    rw [decide_eq_decide, hiff]

/-! ## What is accepted and passes -/

theorem scalars_of_verify {digest : Bytes32} {es : Es256}
    (h : p.verify digest (beNat es.r) (beNat es.s) qx qy = true) :
    ∃ n : Scalars, beNat es.r = n.r ∧ beNat es.s = n.s := by
  obtain ⟨hr, hs⟩ := p.range _ _ _ _ _ h
  exact ⟨⟨beNat es.r, beNat es.s, hr.1, hr.2, hs.1, hs.2⟩, rfl, rfl⟩

theorem key_ne_zero (h : p.onCurve qx qy = true) : ¬(qx = 0 ∧ qy = 0) := by
  rintro ⟨rfl, rfl⟩
  rw [p.onCurve_zero] at h
  cases h

/-- The low signature is as good as the one that the server has seen. -/
theorem verifySignature_low {n : Scalars} {digest : Bytes32} (hcurve : p.onCurve qx qy = true)
    (h : p.verify digest n.r n.s qx qy = true) :
    verifySignature p digest (word (beBytes 32 n.r)) (word (beBytes 32 n.low)) qx qy = true := by
  have hrange : P256_N < 256 ^ 32 := P256_N_lt
  have hr := n.r_lt
  have hs := n.s_lt
  have hlow := low_le n
  have hhalf : P256_HALF_N < 256 ^ 32 := by decide
  unfold verifySignature
  rw [toNat_word (length_beBytes ..), toNat_word (length_beBytes ..),
    beNat_beBytes (by omega), beNat_beBytes (by omega), hcurve, decide_eq_true hlow]
  rcases Nat.le_total n.s (P256_N - n.s) with hle | hle
  · rw [Scalars.low, Nat.min_eq_left hle]
    simpa using h
  · rw [Scalars.low, Nat.min_eq_right hle, p.negate _ _ _ _ _ n.s_pos hs]
    simpa using h

theorem Relayable.passes (h : Relayable challenge assertion)
    (haccepted : Accepted hostname rpId origins challenge qx qy p assertion) :
    PassesOnChain crypto challenge qx qy p assertion := by
  obtain ⟨es, hreads, hcurve, hverify⟩ := accepted_iff.mp haccepted
  obtain ⟨n, hr, hs⟩ := scalars_of_verify hverify
  obtain ⟨⟨before, after⟩, htype⟩ := Option.isSome_iff_exists.mp hreads.type
  obtain ⟨⟨before', after'⟩, hchallenge⟩ := Option.isSome_iff_exists.mp hreads.challenge
  have hlengths := length_parseEs256 hreads.signature
  have hread : es = ⟨beBytes 32 n.r, beBytes 32 n.s⟩ := by
    rw [← beBytes_of_beNat hlengths.1 hr, ← beBytes_of_beNat hlengths.2 hs]
  have hsigned : parseEs256Signature (decodeToBytes assertion.signature) =
      .ok ⟨beBytes 32 n.r, beBytes 32 n.low⟩ := by
    rw [h.signature, hreads.signature, hread]
    exact congrArg Except.ok normalize_scalars
  have hbytes : getBytes (WebAuthnSignature.decodeToHex assertion.authenticatorData) =
      some (authenticatorBytes assertion) := by
    rw [getBytes_decodeToHex, if_neg]
    · rfl
    · intro hnone
      rw [Bool.and_eq_true, Option.isNone_iff_eq_none] at hnone
      have hsome := h.authenticatorData hnone.1
      rw [hnone.2] at hsome
      cases hsome
  rw [passes_iff, h.clientData]
  rw [hr, hs] at hverify
  exact ⟨_, before, after, before', after', _, hsigned, htype, hchallenge, hbytes, h.flags,
    h.type before after htype, h.challenge before' after' hchallenge,
    verifySignature_low hcurve hverify⟩

theorem accepted_only {authenticatorData clientData : Bytes} {n : Scalars} {es : Es256}
    {hkey : ¬(qx = 0 ∧ qy = 0)} (hr : beNat es.r = n.r) (hs : beNat es.s = n.s) :
    (onlyP256 authenticatorData clientData n qx qy hkey).onCurve qx qy = true ∧
      (onlyP256 authenticatorData clientData n qx qy hkey).verify
        ((onlyP256 authenticatorData clientData n qx qy hkey).digest authenticatorData clientData)
        (beNat es.r) (beNat es.s) qx qy = true := by
  have hdigest : (onlyP256 authenticatorData clientData n qx qy hkey).digest authenticatorData
      clientData = onlyDigest authenticatorData clientData := by
    show onlyHash authenticatorData clientData
      (authenticatorData ++ wordBytes (onlyHash authenticatorData clientData clientData)) = _
    rw [onlyHash_eq_one.mpr rfl]
    rfl
  rw [hdigest, hr, hs]
  exact ⟨decide_eq_true ⟨rfl, rfl⟩, decide_eq_true ⟨rfl, rfl, .inl rfl, rfl, rfl⟩⟩

theorem signed_only {authenticatorData clientData data clientData' : Bytes} {n : Scalars}
    {es : Es256} {hkey : ¬(qx = 0 ∧ qy = 0)} (hlengths : es.r.length = 32 ∧ es.s.length = 32)
    (h : verifySignature (onlyP256 authenticatorData clientData n qx qy hkey)
      ((onlyP256 authenticatorData clientData n qx qy hkey).digest data clientData')
      (word es.r) (word es.s) qx qy = true) :
    data = authenticatorData ∧ clientData' = clientData ∧ beNat es.r = n.r ∧
      (beNat es.s = n.s ∨ beNat es.s + n.s = P256_N) ∧ beNat es.s ≤ P256_HALF_N := by
  unfold verifySignature at h
  rw [toNat_word hlengths.1, toNat_word hlengths.2, Bool.and_eq_true, Bool.and_eq_true,
    decide_eq_true_iff] at h
  obtain ⟨⟨hlow, -⟩, hverify⟩ := h
  obtain ⟨hdigest, hr, hs, -⟩ := of_decide_eq_true hverify
  obtain ⟨hdata, hclient⟩ := onlyHash_inj hdigest
  exact ⟨hdata, hclient, hr, hs, hlow⟩

theorem relayable_of_passes (haccepted : Accepted hostname rpId origins challenge qx qy p assertion)
    (h : ∀ p : P256, Accepted hostname rpId origins challenge qx qy p assertion →
      PassesOnChain crypto challenge qx qy p assertion) : Relayable challenge assertion := by
  obtain ⟨es, hreads, hcurve, hverify⟩ := accepted_iff.mp haccepted
  obtain ⟨n, hr, hs⟩ := scalars_of_verify hverify
  have hlengths := length_parseEs256 hreads.signature
  have hread : es = ⟨beBytes 32 n.r, beBytes 32 n.s⟩ := by
    rw [← beBytes_of_beNat hlengths.1 hr, ← beBytes_of_beNat hlengths.2 hs]
  -- the curve on which only what the server has checked is valid
  have hone := h (onlyP256 (authenticatorBytes assertion)
    (utf8 (decodeToUtf8 assertion.clientDataJSON)) n qx qy (key_ne_zero hcurve))
    (accepted_iff.mpr ⟨es, hreads, accepted_only hr hs⟩)
  obtain ⟨es', before, after, before', after', data, hes', htype, hchallenge, hdata, hflags,
    hbefore, hend, hsigned⟩ := passes_iff.mp hone
  have hlengths' := length_parseEs256Signature hes'
  obtain ⟨hrelayed, hclient, hr', hs', hlow⟩ := signed_only hlengths' hsigned
  have htext : decodeClientData assertion.clientDataJSON = decodeToUtf8 assertion.clientDataJSON :=
    utf8_injective hclient
  rw [htext] at htype hchallenge
  constructor
  case clientData => exact htext
  case authenticatorData =>
    intro hstart
    rw [getBytes_decodeToHex, hstart, Bool.true_and] at hdata
    split at hdata
    · cases hdata
    · next hsome => exact Option.isSome_iff_ne_none.mpr (by simpa using hsome)
  case signature =>
    have hsame : es' = ⟨beBytes 32 n.r, beBytes 32 n.low⟩ := by
      rw [← beBytes_of_beNat hlengths'.1 hr', ← beBytes_of_beNat hlengths'.2 (eq_low hs' hlow)]
    rw [hes', hreads.signature, hsame, hread]
    exact congrArg Except.ok normalize_scalars.symm
  case flags => rwa [← hrelayed]
  case type =>
    intro b a hcut
    cases htype.symm.trans hcut
    exact hbefore
  case challenge =>
    intro b a hcut
    cases hchallenge.symm.trans hcut
    exact hend

/-- What the server accepts passes on the chain whatever the curve, if and only if both read the
same in it. -/
theorem accepted_passes_iff :
    (∀ p : P256, Accepted hostname rpId origins challenge qx qy p assertion →
      PassesOnChain crypto challenge qx qy p assertion) ↔
    ((∃ p : P256, Accepted hostname rpId origins challenge qx qy p assertion) →
      Relayable challenge assertion) := by
  apply Iff.intro
  · rintro h ⟨p, haccepted⟩
    exact relayable_of_passes haccepted h
  · exact fun h p haccepted => (h ⟨p, haccepted⟩).passes haccepted

-- Any two numbers below the order are a signature of anything.
def anySignature : P256 where
  sha256 _ := 0
  onCurve x y := ¬(x = 0 ∧ y = 0)
  verify _ r s _ _ := (0 < r ∧ r < P256_N) ∧ 0 < s ∧ s < P256_N
  onCurve_zero := by decide
  range _ _ _ _ _ h := of_decide_eq_true h
  negate _ _ s _ _ hpos hlt := by
    rw [decide_eq_decide]
    omega

-- The challenge is 0, and `flags` is the byte behind the hash of the relying party's id.
def assertionWith (flags : Char × Char) : WebAuthnAssertionJson where
  authenticatorData := '0' :: 'x' :: (List.replicate 64 '0' ++ flags.1 :: flags.2 ::
    List.replicate 8 '0')
  clientDataJSON := '{' :: (typeText ++ ',' :: (challengeText ++ List.replicate 43 'A' ++
    ['"', ',', '"', 'o', 'r', 'i', 'g', 'i', 'n', '"', ':', '"', 'a', '"', '}']))
  signature := '0' :: 'x' :: (List.replicate 63 '0' ++ '1' :: (List.replicate 63 '0' ++ ['1']))
  short := ⟨(by decide : 76 < 2 ^ 53), by decide +kernel, by decide +kernel⟩

/-- The server takes an assertion of a user who is present but not verified. -/
theorem unverified_user_reverts :
    Accepted (fun _ => none) [] (some [['a']]) 0 1 0 anySignature (assertionWith ('0', '1')) ∧
      ¬PassesOnChain Crypto.toy 0 1 0 anySignature (assertionWith ('0', '1')) := by
  apply And.intro
  · unfold Accepted
    decide +kernel
  · rw [passes_iff]
    rintro ⟨es, before, after, before', after', data, -, -, -, hdata, hflags, -⟩
    have hnone : (getBytes (WebAuthnSignature.decodeToHex
        (assertionWith ('0', '1')).authenticatorData)).all validFlags = false := by decide +kernel
    rw [hdata, Option.all_some, hflags] at hnone
    cases hnone

example : (encodeWebAuthnSignatureFromJson (assertionWith ('0', '5'))).toOption.any (fun sig =>
    IdentityTypes.verifyWebAuthn (withP256 anySignature Crypto.toy) 0 sig 1 0 = .ok true) := by
  decide +kernel

end OnchainInvoice.WebAuthnVerify
