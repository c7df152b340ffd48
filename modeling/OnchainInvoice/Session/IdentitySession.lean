import OnchainInvoice.Lib.Json
import OnchainInvoice.Server.Routes

/-!
# Identity tokens

`identity-session.ts`: the sessions, the recovery sessions and the states of an OAuth login are all
a payload of JSON with a MAC under one secret, and each has its issuer and its verifier.
-/

namespace OnchainInvoice.Session

open Lib.Json
open Server (trim lowerCase)

/-- `createHmac("sha256", secret).update(text).digest("base64url")` and the `base64url` texts of
`Buffer`, with what the tokens rely on. -/
structure Primitives where
  hmac : Text → Text → Text
  toBase64url : Text → Text
  ofBase64url : Text → Text
  decode_encode : ∀ t, ofBase64url (toBase64url t) = t
  dot_notMem_encode : ∀ t, '.' ∉ toBase64url t
  encode_ne_nil : ∀ t, t ≠ [] → toBase64url t ≠ []
  dot_notMem_hmac : ∀ secret t, '.' ∉ hmac secret t
  hmac_ne_nil : ∀ secret t, hmac secret t ≠ []

def SESSION_TTL_MS : Int := 30 * 24 * 60 * 60 * 1000
def OAUTH_TTL_MS : Int := 15 * 60 * 1000
def RECOVER_TTL_MS : Int := 15 * 60 * 1000

inductive ProvingKind where
  | yubikey | eoa
deriving DecidableEq, Repr

def ProvingKind.text : ProvingKind → Text
  | .yubikey => "yubikey".toList
  | .eoa => "eoa".toList

-- `Omit<IdentityRecoverSessionPayload, "exp">`
structure RecoverPayload where
  identityId : String
  email : String
  kind : ProvingKind
  methodId : String
  credentialId : Option String
  qx : Option String
  qy : Option String
  eoa : Option String
deriving DecidableEq, Repr

/-! ## Payloads -/

def text (s : String) : Value := .string s.toList

-- `now + ttl`; what is not a finite number is written as `null`.
def expiry (now : Server.Number) (ttl : Int) : Value :=
  match now with
  | some n => .number (.ofInt (n + ttl))
  | none => .null

-- `JSON.stringify` leaves out what is undefined.
def optional (name : Text) (s : Option String) : List (Text × Value) :=
  (s.map fun s => (name, text s)).toList

def identityPayload (identityId email : String) (now : Server.Number) : Value :=
  .object [("identityId".toList, text identityId), ("email".toList, text (lowerCase (trim email))),
    ("exp".toList, expiry now SESSION_TTL_MS)]

def oauthPayload (nonce : String) (now : Server.Number) : Value :=
  .object [("nonce".toList, text nonce), ("exp".toList, expiry now OAUTH_TTL_MS)]

def recoverPayload (p : RecoverPayload) (now : Server.Number) : Value :=
  .object ([("identityId".toList, text p.identityId), ("email".toList, text p.email),
      ("kind".toList, .string p.kind.text), ("methodId".toList, text p.methodId)] ++
    optional "credentialId".toList p.credentialId ++ optional "qx".toList p.qx ++
    optional "qy".toList p.qy ++ optional "eoa".toList p.eoa ++
    [("exp".toList, expiry now RECOVER_TTL_MS)])

variable (crypto : Primitives)

/-! ## Signing -/

def signPayload (secret : Text) (payload : Value) : Text :=
  let encoded := crypto.toBase64url (stringify payload)
  encoded ++ '.' :: crypto.hmac secret encoded

-- `token.split(".")`, of which only the first two parts are looked at.
def parts (token : Text) : Option (Text × Text) :=
  match token.splitOn '.' with
  | payload :: sig :: _ => if payload = [] ∨ sig = [] then none else some (payload, sig)
  | _ => none

def verifyPayload (secret : Text) (token : Option Text) : Option Value := do
  let token ← token
  if token = [] ∨ secret = [] then none
  else
    let (payload, sig) ← parts token
    if sig = crypto.hmac secret payload then parse (crypto.ofBase64url payload) else none

/-! ## Fields of a payload that was parsed -/

def truthy : Value → Bool
  | .null => false
  | .bool b => b
  | .number l => l.value ≠ 0
  | .string chars => chars ≠ []
  | .array _ => true
  | .object _ => true

-- `value.includes("@")`, of a text or an array.
def includesAt : Value → Bool
  | .string chars => '@' ∈ chars
  | .array items => items.any fun
    | .string chars => chars = ['@']
    | _ => false
  | _ => false

def has (parsed : Value) (name : String) (test : Value → Bool) : Bool :=
  (parsed.get? name.toList).any test

-- `typeof value === "number"` and not yet past.
def notPast (now : Int) : Value → Bool
  | .number l => (now : ℚ) ≤ l.value
  | _ => false

def isText (s : Text) : Value → Bool
  | .string chars => chars = s
  | _ => false

/-! ## Issuers and verifiers -/

def issueIdentitySession (secret : Text) (identityId email : String) (now : Server.Number) : Text :=
  signPayload crypto secret (identityPayload identityId email now)

def verifyIdentitySession (secret : Text) (token : Option Text) (now : Int) : Option Value := do
  let parsed ← verifyPayload crypto secret token
  if has parsed "identityId" truthy && has parsed "email" includesAt &&
      has parsed "exp" (notPast now) then some parsed
  else none

-- `nonce` is `randomBytes(16).toString("hex")`.
def issueOAuthState (secret : Text) (nonce : String) (now : Server.Number) : Text :=
  signPayload crypto secret (oauthPayload nonce now)

def verifyOAuthState (secret : Text) (token : Option Text) (now : Int) : Bool :=
  (verifyPayload crypto secret token).any fun parsed =>
    has parsed "nonce" truthy && has parsed "exp" (notPast now)

def issueIdentityRecoverSession (secret : Text) (p : RecoverPayload) (now : Server.Number) : Text :=
  signPayload crypto secret (recoverPayload p now)

def verifyIdentityRecoverSession (secret : Text) (token : Option Text) (now : Int) :
    Option Value := do
  let parsed ← verifyPayload crypto secret token
  if has parsed "identityId" truthy && has parsed "email" includesAt &&
      (has parsed "kind" (isText "yubikey".toList) || has parsed "kind" (isText "eoa".toList)) &&
      has parsed "methodId" truthy && has parsed "exp" (notPast now) then some parsed
  else none

end OnchainInvoice.Session
