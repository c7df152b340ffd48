import OnchainInvoice.Identity.Invariant
import OnchainInvoice.Signing.Accepted

/-!
# Recovering with another method

A browser without a method of the identity has another one of its methods authorize a new passkey.
A wallet that signs typed data the newer way is asked for one signature, and when the node does not
accept that, for one of the legacy wrapping.
-/

namespace OnchainInvoice.Signing

open Evm IdentityTypes IdentityStore Lib.Revert Lib.Runs
open Evm.Checksum (getAddress addressText toLower_of_isHexDigit)
open IdentityRoutes (bytes32 hex32 addressOf bytes32_hex32 hex32_injective ZERO_ADDRESS ZERO_WORD)
open Lib.ByteTexts (hex hexDigit hexValue hexValue_hexDigit Text)
open Server (lowerCase)
open WebAuthnSignature (getBytes readHex)

/-! ## Words in lower case -/

theorem toLower_of_hexValue {c : Char} {n : Nat} (h : hexValue c = some n) :
    n < 16 ∧ c.toLower = hexDigit n := by
  have hdigit : Checksum.isHexDigit c = true := by
    unfold Checksum.isHexDigit
    rw [h]
    rfl
  obtain ⟨m, hm, hlower⟩ := toLower_of_isHexDigit hdigit
  have hvalue := WebAuthnVerify.hexValue_toLower c
  rw [hlower, hexValue_hexDigit hm, h] at hvalue
  obtain rfl := Option.some.inj hvalue
  exact ⟨hm, hlower⟩

theorem lower_of_readHex {digits : Text} {bytes : Bytes} (h : readHex digits = some bytes) :
    digits.map Char.toLower = hex bytes := by
  induction digits using WebAuthnSignature.readHex.induct generalizing bytes with
  | case1 =>
    obtain rfl := Option.some.inj h
    rfl
  | case2 => cases h
  | case3 c d t high low tail htail hlow hhigh ih =>
    unfold readHex at h
    rw [hhigh, hlow, htail] at h
    obtain rfl := Option.some.inj h
    obtain ⟨hh, hc⟩ := toLower_of_hexValue hhigh
    obtain ⟨hl, hd⟩ := toLower_of_hexValue hlow
    have hbyte : (UInt8.ofNat (high * 16 + low)).toNat = high * 16 + low := by
      rw [UInt8.toNat_ofNat']
      omega
    show c.toLower :: d.toLower :: t.map Char.toLower = hexDigit _ :: hexDigit _ :: hex tail
    rw [hbyte, hc, hd, ih htail, show (high * 16 + low) / 16 = high by omega,
      show (high * 16 + low) % 16 = low by omega]
  | case4 c d t hnone ih =>
    unfold readHex at h
    cases hhigh : hexValue c with
    | none => simp [hhigh] at h
    | some high =>
      cases hlow : hexValue d with
      | none => simp [hhigh, hlow] at h
      | some low =>
        cases htail : readHex t with
        | none => simp [hhigh, hlow, htail] at h
        | some tail => exact (hnone high low tail hhigh hlow htail).elim

theorem ascii_of_mem_hex {c : Char} {bytes : Bytes} (h : c ∈ hex bytes) : c.toNat < 128 := by
  have hall : ∀ n : Fin 16, (hexDigit n).toNat < 128 := by decide
  induction bytes with
  | nil => cases h
  | cons b bytes ih =>
    have hb := b.toNat_lt
    rcases List.mem_cons.mp h with rfl | h
    · exact hall ⟨b.toNat / 16, by omega⟩
    rcases List.mem_cons.mp h with rfl | h
    · exact hall ⟨b.toNat % 16, by omega⟩
    · exact ih h

theorem lower_hexText {digits : Text} {bytes : Bytes} (h : readHex digits = some bytes) :
    Lib.Casing.lower ('0' :: 'x' :: digits) = '0' :: 'x' :: hex bytes := by
  have hlower := lower_of_readHex h
  rw [Lib.Casing.lower_of_ascii, List.map_cons, List.map_cons, hlower]
  · rfl
  · intro c hc
    rcases List.mem_cons.mp hc with rfl | hc
    · decide
    rcases List.mem_cons.mp hc with rfl | hc
    · decide
    -- A character that is not ASCII would stay as it is, and no digit is one.
    by_contra hbeyond
    have hself : c.toLower = c := Lib.Casing.toLower_eq_self (by omega)
    have hmem : c.toLower ∈ hex bytes := hlower ▸ List.mem_map_of_mem hc
    rw [hself] at hmem
    exact hbeyond (ascii_of_mem_hex hmem)

theorem wordBytes_ofNat {bytes : Bytes} (h : bytes.length = 32) :
    wordBytes (BitVec.ofNat 256 (beNat bytes)) = bytes := by
  have hlt : beNat bytes < 2 ^ 256 := by
    have hlt := Lib.Der.beNat_lt bytes
    rw [h] at hlt
    norm_num at hlt ⊢
    exact hlt
  unfold wordBytes
  rw [BitVec.toNat_ofNat, Nat.mod_eq_of_lt hlt, ← h, Lib.Der.beBytes_beNat]

theorem lowerCase_of_bytes32 {text : String} {i : Bytes32} (h : bytes32 text = some i) :
    lowerCase text = hex32 i := by
  unfold bytes32 at h
  obtain ⟨bytes, hbytes, rfl⟩ := Option.map_eq_some_iff.mp h
  obtain ⟨hread, hlength⟩ := Option.filter_eq_some_iff.mp hbytes
  unfold getBytes at hread
  split at hread
  · next hprefix =>
    obtain ⟨digits, htext⟩ := WebAuthnVerify.startsWith0x_iff.mp hprefix
    have hread : readHex digits = some bytes := by rwa [htext] at hread
    have hbytes : wordBytes (BitVec.ofNat 256 (beNat bytes)) = bytes :=
      wordBytes_ofNat (by simpa using hlength)
    unfold lowerCase hex32
    rw [htext, hbytes, lower_hexText hread]
  · cases hread

/-! ## What the node says -/

-- `answers` is false where there is no store or no node, or the call throws.
def identityAuthorizationAccepted (env : IdentityStore.Env) (s : IdentityStore.State)
    (answers : Bool) (digest authorization identityId : String) : Bool :=
  answers && match bytes32 digest, getBytes authorization.toList with
    | some message, some blob =>
      match verify env s message blob with
      | .ok recovered => lowerCase (hex32 recovered) == lowerCase identityId
      | .error _ => false
    | _, _ => false

variable {env : IdentityStore.Env} {s s' : IdentityStore.State} {i id d : Bytes32}
  {a : Address} {f : MethodFields} {sig : Bytes} {identityId : String} {inputs : List Bytes}
  {answers : Bool}

theorem accepted_iff (hread : bytes32 identityId = some i) {blob : Bytes} :
    identityAuthorizationAccepted env s answers (hex32 d) (hexlify blob) identityId = true ↔
      answers = true ∧ verify env s d blob = .ok i := by
  unfold identityAuthorizationAccepted
  rw [Bool.and_eq_true, bytes32_hex32, getBytes_hexlify]
  simp only
  cases verify env s d blob with
  | error e => simp
  | ok recovered =>
    have hrecovered : lowerCase (hex32 recovered) = hex32 recovered :=
      lowerCase_of_bytes32 (bytes32_hex32 recovered)
    rw [beq_iff_eq, hrecovered, lowerCase_of_bytes32 hread]
    apply and_congr_right
    intro _
    apply Iff.intro
    · intro h
      rw [hex32_injective h]
    · intro h
      cases h
      rfl

/-! ## A live EOA -/

/-- The signature recovers to the address over the digest or over its legacy wrapping. -/
def SignedByEoa (env : IdentityStore.Env) (d : Bytes32) (a : Address) (sig : Bytes) : Prop :=
  sig.length = 65 ∧ (env.crypto.tryRecover d sig = some a ∨
    env.crypto.tryRecover (hashVerify env d) sig = some a)

theorem checkMethodSig_eoa {m : Method} (hkind : m.kind = METHOD_EOA) (ha : m.eoa ≠ 0) :
    checkMethodSig env d m sig = .ok true ↔ SignedByEoa env d m.eoa sig := by
  unfold checkMethodSig SignedByEoa
  rw [if_pos hkind]
  by_cases hlen : sig.length = 65
  · have hopen : ¬(m.eoa = 0 ∨ sig.length ≠ 65) := fun h => h.elim ha fun hne => hne hlen
    rw [if_neg hopen]
    by_cases hdirect : env.crypto.tryRecover d sig = some m.eoa
    · rw [if_pos hdirect]
      exact iff_of_true rfl ⟨hlen, .inl hdirect⟩
    · rw [if_neg hdirect]
      simp only [hlen, hdirect, true_and, false_or, Except.ok.injEq, beq_iff_eq]
  · rw [if_pos (.inr hlen)]
    exact iff_of_false (fun h => by cases h) fun h => hlen h.1

/-- What is stored where the method of these fields belongs is that method. -/
theorem stored_fields (h : Sound env inputs s) (hcf : env.crypto.CollisionFree inputs)
    (hin : methodIdPreimage i f ∈ inputs)
    (hlive : (s.methods (computeMethodId env.crypto i f)).exists_ = true) :
    (s.methods (computeMethodId env.crypto i f)).identityId = i ∧
      (s.methods (computeMethodId env.crypto i f)).toMethodFields = f := by
  have hpre := hcf _ hin _ (h.registry.hashed _ hlive) (h.registry.sits _ hlive)
  obtain ⟨hi, hf⟩ := methodIdPreimage_inj.mp hpre
  exact ⟨hi.symm, hf.symm⟩

/-- A signature behind the name of an EOA is checked against that address. -/
theorem signed_eoa (h : Sound env inputs s) (hcf : env.crypto.CollisionFree inputs)
    (hin : methodIdPreimage i (eoaFields a) ∈ inputs) (ha : a ≠ 0)
    (hid : id = computeMethodId env.crypto i (eoaFields a)) :
    Names s METHOD_EOA i id ∧ checkMethodSig env d (s.methods id) sig = .ok true ↔
      (s.methods id).exists_ = true ∧ SignedByEoa env d a sig := by
  subst hid
  apply Iff.intro
  · rintro ⟨hnames, hsig⟩
    obtain ⟨-, hfields⟩ := stored_fields h hcf hin hnames.1
    have heoa : (s.methods (computeMethodId env.crypto i (eoaFields a))).eoa = a :=
      congrArg MethodFields.eoa hfields
    have hsigned := (checkMethodSig_eoa hnames.2.2 (by rw [heoa]; exact ha)).mp hsig
    rw [heoa] at hsigned
    exact ⟨hnames.1, hsigned⟩
  · rintro ⟨hlive, hsigned⟩
    obtain ⟨hmember, hfields⟩ := stored_fields h hcf hin hlive
    have hkind : (s.methods (computeMethodId env.crypto i (eoaFields a))).kind = METHOD_EOA :=
      congrArg MethodFields.kind hfields
    have heoa : (s.methods (computeMethodId env.crypto i (eoaFields a))).eoa = a :=
      congrArg MethodFields.eoa hfields
    refine ⟨⟨hlive, hmember, hkind⟩, (checkMethodSig_eoa hkind (by rw [heoa]; exact ha)).mpr ?_⟩
    rw [heoa]
    exact hsigned

/-! ## The blob of a wallet -/

theorem addressText_zero (crypto : Crypto) : addressText crypto 0 = ZERO_ADDRESS := by
  have hcapital : ∀ high, Checksum.capitalize high '0' = '0' := by decide
  have hzip : ∀ (highs : List Bool) (n : Nat), n ≤ highs.length →
      List.zipWith Checksum.capitalize highs (List.replicate n '0') = List.replicate n '0' := by
    intro highs
    induction highs with
    | nil =>
      intro n hn
      rw [Nat.le_zero.mp hn]
      rfl
    | cons high highs ih =>
      intro n hn
      cases n with
      | zero => rfl
      | succ n =>
        rw [List.replicate_succ, List.zipWith_cons_cons, hcapital, ih n (by simpa using hn)]
  have hdigits : hex (addressBytes 0) = List.replicate 40 '0' := by decide
  unfold addressText Checksum.checksum ZERO_ADDRESS
  rw [hdigits, hzip _ _ (by rw [Checksum.length_highDigits]; decide)]

theorem readAddress_zero (crypto : Crypto) : readAddress crypto ZERO_ADDRESS = some 0 := by
  have hread : getAddress crypto ZERO_ADDRESS = some ZERO_ADDRESS := by
    rw [← addressText_zero crypto, Checksum.getAddress_addressText]
  unfold readAddress
  rw [hread]
  decide +kernel

theorem getAddress_of_readAddress {crypto : Crypto} {text : String}
    (h : readAddress crypto text = some a) :
    ∃ t, getAddress crypto text = some t ∧ readAddress crypto t = some a := by
  obtain ⟨t, ht, -⟩ := Option.map_eq_some_iff.mp h
  exact ⟨t, ht, by rw [readAddress_getAddress ht, h]⟩

theorem readFields_eoa {crypto : Crypto} {text : String} (ha : readAddress crypto text = some a) :
    readFields crypto ⟨identityId, METHOD_EOA.toNat, ZERO_WORD, ZERO_WORD, text⟩ =
      some (eoaFields a) := by
  have hzero : bytes32 ZERO_WORD = some 0 := by decide +kernel
  unfold readFields
  rw [hzero, ha]
  rfl

theorem computeIdentityMethodId_eq {crypto : Crypto} {text : String}
    (hi : bytes32 identityId = some i) (ha : readAddress crypto text = some a) :
    computeIdentityMethodId crypto
        ⟨identityId, METHOD_EOA.toNat, ZERO_WORD, ZERO_WORD, text⟩ =
      some (hex32 (computeMethodId crypto i (eoaFields a))) := by
  obtain ⟨t, ht, hat⟩ := getAddress_of_readAddress ha
  unfold computeIdentityMethodId
  simp only [ht, hi, readFields_eoa hat, Option.bind_eq_bind, Option.bind_some, Option.pure_def]

/-- A wallet's signature goes behind the name of its own method. -/
theorem wrapEoa_eq {crypto : Crypto} {eoa signature : String} (hi : bytes32 identityId = some i)
    (heoa : truthy (some eoa) = some eoa) (ha : readAddress crypto eoa = some a) (hne : a ≠ 0)
    (hsig : getBytes signature.toList = some sig) :
    wrapEoa crypto identityId eoa signature = some (hexlify
      (encodeMethodBlob METHOD_EOA i (computeMethodId crypto i (eoaFields a)) sig)) := by
  have hnotZero : eoa ≠ ZERO_ADDRESS := by
    rintro rfl
    rw [readAddress_zero] at ha
    exact hne (Option.some.inj ha).symm
  have hgiven : (truthy (some eoa)).filter (· ≠ ZERO_ADDRESS) = some eoa := by
    rw [heoa, Option.filter_some, if_pos (decide_eq_true hnotZero)]
  obtain ⟨t, ht, hat⟩ := getAddress_of_readAddress ha
  unfold wrapEoa wrapIdentityMethodSignature
  rw [hgiven]
  simp only [ht, computeIdentityMethodId_eq hi hat, Option.bind_eq_bind, Option.bind_some]
  exact encodeIdentityBlob_eq (by decide) hi (bytes32_hex32 _) hsig

/-! ## The authorization of a recovery -/

theorem truthy_truthy {value : Option String} {text : String} (h : truthy value = some text) :
    truthy (some text) = some text := by
  obtain ⟨-, htext⟩ := Option.filter_eq_some_iff.mp h
  unfold truthy
  rw [Option.filter_some, if_pos htext]

theorem onChain_verify (d : Bytes32) :
    (Request.mk env.this env.chainid (.verify d)).onChain env.crypto = some (hashVerify env d) := by
  obtain ⟨crypto, this, chainid⟩ := env
  show some (hashVerify ⟨crypto, this, chainid⟩ d) = some (hashVerify ⟨crypto, this, chainid⟩ d)
  rfl

/-- The client wraps a digest as the store does. -/
theorem hash_verify_digest {store : String} {chainId : Nat} (d : Bytes32)
    (hstore : readAddress env.crypto store = some env.this)
    (hchain : chainId = env.chainid.toNat) :
    hashIdentityVerify env.crypto store chainId (hex32 d) = some (hex32 (hashVerify env d)) := by
  have hmessage : (ClientMessage.verify (hex32 d)).read env.crypto = some (.verify d) := by
    show Option.map Message.verify (bytes32 (hex32 d)) = _
    rw [bytes32_hex32, Option.map_some]
  exact hash_onChain hstore hchain hmessage (onChain_verify d)

section Eoa

variable (h : Sound env inputs s) (hcf : env.crypto.CollisionFree inputs)
  (hin : methodIdPreimage i (eoaFields a) ∈ inputs) (ha : a ≠ 0) (hlen : sig.length < 2 ^ 64)

include h hcf hin ha hlen

theorem node_accepts (hi : i ≠ 0) (hread : bytes32 identityId = some i) :
    identityAuthorizationAccepted env s answers (hex32 d)
        (hexlify (encodeMethodBlob METHOD_EOA i (computeMethodId env.crypto i (eoaFields a)) sig))
        identityId = true ↔
      answers = true ∧ (s.methods (computeMethodId env.crypto i (eoaFields a))).exists_ = true ∧
        SignedByEoa env d a sig := by
  rw [accepted_iff hread, verify_blob hi hlen, signed_eoa h hcf hin ha rfl]

theorem step_eoa {tx : Tx IdentityStore.Call} (hcall : tx.call = .addMethod i f
      (encodeMethodBlob METHOD_EOA i (computeMethodId env.crypto i (eoaFields a)) sig)) :
    step env s tx = .ok s' ↔ CanAdd env s i f ∧
      (s.methods (computeMethodId env.crypto i (eoaFields a))).exists_ = true ∧
        SignedByEoa env (hashAddMethod env i f) a sig ∧ s' = added env s i f := by
  have hcall' : tx.call = Change.call i _ (.addMethod f) := hcall
  rw [step_authorized h hlen hcall', ← and_assoc (b := checkMethodSig _ _ _ _ = _),
    signed_eoa h hcf hin ha rfl, and_assoc]
  rfl

end Eoa

/-- A wallet's authorization of a new passkey goes through just when the store can add it and the
wallet's method is live, and the node has accepted the first signature or the second is valid. -/
theorem recover_authorization_accepted {recoveryOperator initialOwner : Address}
    {s₀ : IdentityStore.State} {device : String → String → Bool → Option String}
    {wallet : String → Option String} {config : WalletConfig} {store : String} {chainId : Nat}
    {proving : RecoverProvingMethod} {kind : WalletLog.IdentityMethodKind} {qx qy eoa : String}
    {signed legacy : String} {sig' : Bytes}
    (hdeploy : deploy recoveryOperator initialOwner = .ok s₀)
    (before after : List (Tx IdentityStore.Call)) (ha : a ≠ 0)
    (hcf : env.crypto.CollisionFree
      (methodIdPreimage i (eoaFields a) :: (before ++ after).flatMap hashedBy))
    (hcontext : recoverContext config = some (store, chainId))
    (hstore : readAddress env.crypto store = some env.this) (hchain : chainId = env.chainid.toNat)
    (hread : (ClientMessage.addMethod ⟨identityId, kindNum kind, paddedCoord qx, paddedCoord qy,
      ZERO_ADDRESS⟩).read env.crypto = some (.addMethod i f))
    (hproving : proving.eoaKind = true) (heoa : truthy proving.eoa = some eoa)
    (hwallet : readAddress env.crypto eoa = some a)
    (hsigned : wallet (hex32 (hashAddMethod env i f)) = some signed)
    (hsig : getBytes signed.toList = some sig) (hlen : sig.length < 2 ^ 64)
    (hlegacy : identityAuthorizationAccepted env (run (step env) s₀ before) answers
        (hex32 (hashAddMethod env i f))
        (hexlify (encodeMethodBlob METHOD_EOA i (computeMethodId env.crypto i (eoaFields a)) sig))
        identityId = false →
      wallet (hex32 (hashVerify env (hashAddMethod env i f))) = some legacy ∧
        getBytes legacy.toList = some sig' ∧ sig'.length < 2 ^ 64) :
    ∃ authorization,
      signRecoverAddMethodAuthorization env.crypto device wallet
          (fun digest authorization => identityAuthorizationAccepted env
            (run (step env) s₀ before) answers digest authorization identityId)
          config identityId proving kind qx qy = some (hexlify authorization) ∧
      ∀ tx s', tx.call = .addMethod i f authorization →
        (step env (run (step env) s₀ (before ++ after)) tx = .ok s' ↔
          CanAdd env (run (step env) s₀ (before ++ after)) i f ∧
            ((run (step env) s₀ (before ++ after)).methods
              (computeMethodId env.crypto i (eoaFields a))).exists_ = true ∧
            (answers = true ∧ ((run (step env) s₀ before).methods
                (computeMethodId env.crypto i (eoaFields a))).exists_ = true ∧
                SignedByEoa env (hashAddMethod env i f) a sig ∨
              SignedByEoa env (hashAddMethod env i f) a sig') ∧
            s' = added env (run (step env) s₀ (before ++ after)) i f) := by
  have hin : methodIdPreimage i (eoaFields a) ∈
      methodIdPreimage i (eoaFields a) :: (before ++ after).flatMap hashedBy :=
    List.mem_cons_self ..
  have hall : Sound env _ (run (step env) s₀ (before ++ after)) :=
    run_sound hdeploy hcf fun tx htx p hp =>
      List.mem_cons_of_mem _ (List.mem_flatMap.mpr ⟨tx, htx, hp⟩)
  have hbefore : Sound env _ (run (step env) s₀ before) :=
    run_sound hdeploy hcf fun tx htx p hp =>
      List.mem_cons_of_mem _ (List.mem_flatMap.mpr ⟨tx, List.mem_append_left _ htx, hp⟩)
  have hidentity : bytes32 identityId = some i := by
    obtain ⟨j, hj, h⟩ := Option.bind_eq_some_iff.mp hread
    obtain ⟨g, -, h⟩ := Option.bind_eq_some_iff.mp h
    cases h
    exact hj
  have hdigest : hashIdentityAddMethod env.crypto store chainId ⟨identityId, kindNum kind,
      paddedCoord qx, paddedCoord qy, ZERO_ADDRESS⟩ = some (hex32 (hashAddMethod env i f)) :=
    hash_onChain hstore hchain hread (onChain_change (.addMethod f))
  have hverifyDigest := hash_verify_digest (hashAddMethod env i f) hstore hchain
  have hwrap := wrapEoa_eq hidentity (truthy_truthy heoa) hwallet ha hsig
  unfold signRecoverAddMethodAuthorization
  simp only [hcontext, hdigest, hproving, heoa, hsigned, hwrap, hverifyDigest, Option.bind_eq_bind,
    Option.bind_some, if_true]
  -- Only of an identity can the store add a method, and the node names it then.
  have hne : CanAdd env (run (step env) s₀ (before ++ after)) i f → i ≠ 0 := fun hcan =>
    hall.ne_zero_of_exists hcan.exists_
  split
  · next hok =>
    refine ⟨_, rfl, fun tx s' hcall => ?_⟩
    rw [step_eoa hall hcf hin ha hlen hcall]
    apply and_congr_right
    intro hcan
    have hnode := (node_accepts hbefore hcf hin ha hlen (hne hcan) hidentity).mp hok
    simp only [hnode, true_and, true_or]
  · next hok =>
    obtain ⟨hsigned', hsig', hlen'⟩ := hlegacy (Bool.not_eq_true _ ▸ hok)
    have hwrap' := wrapEoa_eq hidentity (truthy_truthy heoa) hwallet ha hsig'
    simp only [hsigned', hwrap', Option.bind_some]
    refine ⟨_, rfl, fun tx s' hcall => ?_⟩
    rw [step_eoa hall hcf hin ha hlen' hcall]
    apply and_congr_right
    intro hcan
    have hnode := mt (node_accepts hbefore hcf hin ha hlen (hne hcan) hidentity).mpr hok
    rw [or_iff_right hnode]

-- A wallet that signs only the legacy wrapping, and a node that answers.
def legacyDigest : Bytes32 := hashVerify toyEnv (hashAddMethod toyEnv 1 (passkeyFields 51 52))

def legacyWallet (digest : String) : Option String :=
  some (hexlify (if digest = hex32 legacyDigest then toySign legacyDigest 0xE0A else []))

def walletProving : RecoverProvingMethod :=
  ⟨true, none, none, none, some (addressText Crypto.toy 0xE0A)⟩

theorem recover_authorization_accepted_legacy :
    ∃ authorization,
      signRecoverAddMethodAuthorization Crypto.toy toyDevice legacyWallet
          (fun digest authorization => identityAuthorizationAccepted toyEnv
            (run (step toyEnv) toyStore (toyRun.take 2)) true digest authorization (hex32 1))
          ⟨some (addressText Crypto.toy toyEnv.this), some 8453⟩ (hex32 1) walletProving .webauthn
          (hex32 51) (hex32 52) = some (hexlify authorization) ∧
      step toyEnv (run (step toyEnv) toyStore (toyRun.take 2 ++ []))
          ⟨0xCA11, 101, .addMethod 1 (passkeyFields 51 52) authorization⟩ =
        .ok (added toyEnv (run (step toyEnv) toyStore (toyRun.take 2 ++ [])) 1
          (passkeyFields 51 52)) := by
  have hdeploy : deploy 0x0BE0 0x0A11CE = .ok toyStore := rfl
  have hcf : toyEnv.crypto.CollisionFree (methodIdPreimage 1 (eoaFields 0xE0A) ::
      (toyRun.take 2 ++ []).flatMap hashedBy) := by decide +kernel
  have hcontext : recoverContext ⟨some (addressText Crypto.toy toyEnv.this), some 8453⟩ =
      some (addressText Crypto.toy toyEnv.this, 8453) := by decide +kernel
  have hstore : readAddress toyEnv.crypto (addressText Crypto.toy toyEnv.this) =
      some toyEnv.this := by decide +kernel
  have hread : (ClientMessage.addMethod ⟨hex32 1, kindNum .webauthn, paddedCoord (hex32 51),
      paddedCoord (hex32 52), ZERO_ADDRESS⟩).read toyEnv.crypto =
        some (.addMethod 1 (passkeyFields 51 52)) := by decide +kernel
  have heoa : truthy walletProving.eoa = some (addressText Crypto.toy 0xE0A) := by decide +kernel
  have hwallet : readAddress toyEnv.crypto (addressText Crypto.toy 0xE0A) = some 0xE0A := by
    decide +kernel
  have hsigned : legacyWallet (hex32 (hashAddMethod toyEnv 1 (passkeyFields 51 52))) =
      some (hexlify []) := by decide +kernel
  have hlegacy : legacyWallet (hex32 (hashVerify toyEnv
      (hashAddMethod toyEnv 1 (passkeyFields 51 52)))) =
        some (hexlify (toySign legacyDigest 0xE0A)) := by
    show some (hexlify (if hex32 legacyDigest = hex32 legacyDigest then _ else _)) = _
    rw [if_pos rfl]
  obtain ⟨authorization, htext, hstep⟩ := recover_authorization_accepted hdeploy (toyRun.take 2) []
    (by decide) hcf hcontext hstore rfl hread rfl heoa hwallet hsigned (getBytes_hexlify _)
    (by decide) fun _ => ⟨hlegacy, getBytes_hexlify _, by decide +kernel⟩
  refine ⟨authorization, htext, (hstep _ _ rfl).mpr ⟨?_, ?_, ?_, rfl⟩⟩
  · have hvalid : ValidFields (passkeyFields 51 52) :=
      .inr ⟨.inl rfl, rfl, fun hzero => absurd hzero.1 (by decide)⟩
    exact ⟨by decide +kernel, by decide +kernel, hvalid, by decide +kernel, by decide +kernel⟩
  · decide +kernel
  · exact .inr ⟨by decide +kernel, .inr (by decide +kernel)⟩

end OnchainInvoice.Signing
