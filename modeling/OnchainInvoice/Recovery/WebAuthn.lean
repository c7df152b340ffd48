import OnchainInvoice.Recovery.RecoveryDb

/-!
# Passkey assertions

`verifyWebAuthnAssertion` of `webauthn-verify.ts` and the readers of request bodies.
-/

namespace OnchainInvoice.Recovery

open Lib.Revert Server WalletLog

/-! ## Bodies -/

-- The properties of a JSON body that are texts.
abbrev Body := String → Option String

def str (value : Option String) : Option String := (value.map Server.trim).filter (· ≠ "")

-- `/^0x[0-9a-f]{64}$/`
def isHex32 (s : String) : Bool :=
  match s.toList with
  | '0' :: 'x' :: digits => digits.length = 64 ∧ digits.all fun c => c.isDigit ∨ ('a' ≤ c ∧ c ≤ 'f')
  | _ => false

def normalizeHex32 (value : Option String) : Option String :=
  (value.map fun v => lowerCase (Server.trim v)).filter fun v => isHex32 v

-- `/^0x0+$/`
def isZeroHex (s : String) : Bool :=
  match (lowerCase (Server.trim s)).toList with
  | '0' :: 'x' :: digits => !digits.isEmpty ∧ digits.all (· = '0')
  | _ => false

def isZeroPubkey (qx qy : String) : Bool := isZeroHex qx ∧ isZeroHex qy

/-! ## Assertions -/

-- An assertion with its client data read; `signature` stands for the bytes that are signed and the
-- signature over them.
structure Assertion where
  type : Option String
  challenge : Option String
  origin : Option String
  signature : String
deriving DecidableEq

-- The configuration and the libraries.  `none` where a library call throws.
structure Env where
  chainId : String
  rpcUrl : Bool
  rpId : String
  corsOrigins : List String
  leaseMs : Time
  factoryAddress : Option String
  implementationAddress : Option String
  getAddress : String → Option String
  hostname : String → Option String
  signed : String → String → Assertion → Option Bool
  verifyMessage : String → String → Option String
  recoveredByMessage : String → String → Option String
  recoveredByTypedData : String → String → String → String → String → Option String
  hashOtpCode : String → String
  hashToken : String → String
  deriveWalletSalt : String → String → String
  predictWalletAddress : String → String → String → String
  computeIdentityMethodId : String → IdentityMethodKind → String → String → String → String
  -- whether the configured operator's wallet has the identity among its signers
  isSigner : Time → String → Bool

variable (env : Env)

def isAddress (s : String) : Bool := (env.getAddress s).isSome

def normalizeB64Url (s : String) : String :=
  let replaced := s.toList.map fun c => if c = '+' then '-' else if c = '/' then '_' else c
  String.ofList (replaced.reverse.dropWhile (· = '=')).reverse

def isLoopbackHost (host : String) : Bool :=
  host ∈ ["localhost", "127.0.0.1", "[::1]", "::1"]

-- `none` and an empty list of origins leave the host to decide.
def originAllowed (origin rpId : String) (origins : List String) : Bool :=
  if origins ≠ [] then origin ∈ origins
  else
    match (env.hostname origin).map lowerCase with
    | none => false
    | some host =>
      let rp := lowerCase rpId
      (isLoopbackHost host ∧ isLoopbackHost rp) ∨ host = rp ∨
        ('.' :: rp.toList).isSuffixOf host.toList

structure VerifyOptions where
  expectedChallenge : String
  rpId : String
  origins : List String
  ownerQx : String
  ownerQy : String

def verifyWebAuthnAssertion (assertion : Assertion) (options : VerifyOptions) :
    Except HttpError Unit := do
  revertIf (assertion.type ≠ some "webauthn.get") (httpError 400 "invalid_assertion")
  let challenge ← orRevert (httpError 400 "challenge_mismatch")
    (assertion.challenge.filter (· ≠ ""))
  revertIf (normalizeB64Url challenge ≠ normalizeB64Url options.expectedChallenge)
    (httpError 400 "challenge_mismatch")
  let origin ← orRevert (httpError 400 "origin_mismatch") (assertion.origin.filter (· ≠ ""))
  revertIf (!originAllowed env origin options.rpId options.origins)
    (httpError 400 "origin_mismatch")
  let ok ← orRevert (httpError 500 "assertion_failed")
    (env.signed options.ownerQx options.ownerQy assertion)
  revertIf (!ok) (httpError 400 "invalid_signature")

def Verifies (assertion : Assertion) (options : VerifyOptions) : Prop :=
  verifyWebAuthnAssertion env assertion options = .ok ()

-- The hosted routes allow any origin of the host.
def hosted (challenge ownerQx ownerQy : String) : VerifyOptions :=
  ⟨challenge, env.rpId, [], ownerQx, ownerQy⟩

/-! ## Keys of a wallet -/

-- The account's owner, a device's or a method's of the account's identity.
def Registered (db : WalletDb) (walletAddress qx qy : String) : Prop :=
  (∃ account ∈ db.accounts.find? (lowerCase walletAddress),
    account.ownerQx = qx ∧ account.ownerQy = qy) ∨
  (∃ device ∈ db.devices.rows, device.walletAddress = lowerCase walletAddress ∧
    device.ownerQx = qx ∧ device.ownerQy = qy) ∨
  ∃ account ∈ db.accounts.find? (lowerCase walletAddress), ∃ method ∈ db.methods.rows,
    account.identityId = some method.identityId ∧ method.qx = some qx ∧ method.qy = some qy

end OnchainInvoice.Recovery
