import Mathlib.Algebra.Order.Group.Abs
import Mathlib.Algebra.Order.Ring.Rat
import OnchainInvoice.Lib.Handlers
import OnchainInvoice.Lib.Nonces
import OnchainInvoice.Server.CommerceDb

/-!
# Signed requests

The three authenticators of the HTTP server (`sweeper-auth.ts`, `bundler-auth.ts`,
`client-auth.ts`), their nonce tables in `db.ts`, and the handlers that act on a body once its
request has passed.
-/

namespace OnchainInvoice.SignedRequests

open Lib Lib.Nonces Function
open Server (lowerCase)

/-! ## Requests -/

-- What Node's HTTP parser delivers as a header value, a method or a target has no line break.
abbrev Line := { s : String // '\n' ∉ s.toList }

theorem toUpper_ne_newline {c : Char} (h : c ≠ '\n') : c.toUpper ≠ '\n' := by
  unfold Char.toUpper
  split
  · rename_i hlower
    intro heq
    have hval := congrArg (fun c : Char => c.val.toNat) heq
    have hlow := UInt32.le_iff_toNat_le.mp hlower.1
    have hhigh := UInt32.le_iff_toNat_le.mp hlower.2
    simp at hval hlow hhigh
    omega
  · exact h

-- `toUpperCase` of ASCII text
def upperCase (l : Line) : Line :=
  ⟨String.ofList (l.val.toList.map Char.toUpper), by
    rw [String.toList_ofList]
    intro hmem
    obtain ⟨c, hc, hupper⟩ := List.mem_map.mp hmem
    exact toUpper_ne_newline (ne_of_mem_of_not_mem hc l.property) hupper⟩

def Line.of (s : String) (h : '\n' ∉ s.toList := by decide) : Line := ⟨s, h⟩

def GET : Line := Line.of "GET"

-- `headers` holds the values that are one string, all that `header` returns.
structure Request where
  headers : String → Option Line
  method : Option Line
  url : Option Line
  rawBody : String

-- The clock as one request reads it: at the skew check, in `consume…Nonce`, in `touch…`.
structure Reads where
  skew : Int
  nonce : Int
  touch : Int
  ordered : skew ≤ nonce ∧ nonce ≤ touch

-- ethers and Node: `none` where the call throws.  `number` is `Number`, when it is finite.
structure Env where
  number : Line → Option ℚ
  getAddress : String → Option String
  verifyMessage : String → Line → Option String
  pathname : String → Option Line
  hashBody : String → Line
  signClientCanonical : String → String → String

/-! ## The tables -/

inductive Surface
  | sweeper | bundler | walletClient
deriving DecidableEq, Repr

-- The tables `sweepers`, `bundlers` and `wallet_clients` by primary key, the last with a secret, and
-- the nonce table of each.
structure State where
  enabled : Surface → String → Option Bool
  hmacSecret : String → String
  lastSeenAt : Surface → String → Option Int
  nonces : Surface → Table (String × Line)

-- A 401 with its message, or an exception of ethers or of `new URL`.
inductive Rejection
  | unauthorized (message : String)
  | thrown
deriving DecidableEq, Repr

-- A rejection does not undo what the handler has written.
abbrev Handler (α : Type) := Handlers.Handler Rejection State α

def SKEW_MS : Int := 5 * 60 * 1000
def NONCE_TTL_MS : Int := 10 * 60 * 1000

-- `consumeNonce`, `consumeBundlerNonce` and `consumeWalletClientNonce`
def consumeNonce (surface : Surface) (key : String) (nonce : Line) (now ttlMs : Int) :
    StateM State Bool := fun s =>
  let result := consume (s.nonces surface) (key, nonce) now ttlMs
  (result.1, { s with nonces := update s.nonces surface result.2 })

-- `touchSweeper`, `touchBundler` and `touchWalletClient`
def touch (surface : Surface) (key : String) (now : Int) : StateM State Unit := fun s =>
  let seen := update (s.lastSeenAt surface) key (some now)
  ((), { s with lastSeenAt := update s.lastSeenAt surface seen })

/-! ## What the copies share -/

-- The names and texts of one copy.
structure Api where
  surface : Surface
  partyHeader : String
  timestampHeader : String
  nonceHeader : String
  bodyHashHeader : String
  signatureHeader : String
  title : String
  missingHeaders : String
  notRegistered : String
  skewTooLarge : String
  nonceUsed : String
  invalidSignature : String

structure Presented where
  party : Line
  timestamp : Line
  nonce : Line
  signature : Line

-- A header that is absent or empty counts as missing.
def present (r : Request) (name : String) : Option Line :=
  (r.headers name).filter (·.val ≠ "")

def presented (api : Api) (r : Request) : Except Rejection Presented :=
  match present r api.partyHeader, present r api.timestampHeader, present r api.nonceHeader,
    present r api.signatureHeader with
  | some party, some timestamp, some nonce, some signature =>
    .ok ⟨party, timestamp, nonce, signature⟩
  | _, _, _, _ => .error (.unauthorized api.missingHeaders)

def checkRegistered (api : Api) (s : State) (key : String) : Except Rejection Unit :=
  if s.enabled api.surface key = some true then .ok ()
  else .error (.unauthorized api.notRegistered)

-- The difference of two doubles this close is exact.
def withinSkew (env : Env) (now : Int) (timestamp : Line) : Bool :=
  match env.number timestamp with
  | some ts => |(now : ℚ) - ts| ≤ SKEW_MS
  | none => false

def checkSkew (api : Api) (env : Env) (now : Int) (timestamp : Line) : Except Rejection Unit :=
  if withinSkew env now timestamp then .ok () else .error (.unauthorized api.skewTooLarge)

structure CanonicalInput where
  method : Line
  path : Line
  bodyHash : Line
  timestamp : Line
  nonce : Line

def canonicalMessage (title : String) (input : CanonicalInput) : String :=
  "\n".intercalate [title,
    "Method: " ++ input.method.val,
    "Path: " ++ input.path.val,
    "Body-SHA256: " ++ input.bodyHash.val,
    "Timestamp: " ++ input.timestamp.val,
    "Nonce: " ++ input.nonce.val]

-- The hash that the signature covers.
def coveredHash (api : Api) (env : Env) (r : Request) : Line :=
  (r.headers api.bodyHashHeader).getD (env.hashBody "")

def canonicalInput (api : Api) (env : Env) (r : Request) (p : Presented) :
    Except Rejection CanonicalInput :=
  match env.pathname (r.url.elim "/" (·.val)) with
  | some path => .ok ⟨upperCase (r.method.getD GET), path, coveredHash api env r, p.timestamp,
      p.nonce⟩
  | none => .error .thrown

-- What `signSweeperRequest`, `signBundlerRequest` and `signClientRequest` sign for a body.
def signedMessage (api : Api) (env : Env) (method path : Line) (body : String)
    (timestamp nonce : Line) : String :=
  canonicalMessage api.title ⟨upperCase method, path, env.hashBody body, timestamp, nonce⟩

/-! ## `requireSweeper` and `requireBundler` -/

def identifySigner (api : Api) (env : Env) (r : Request) :
    Except Rejection (String × Presented) := do
  let p ← presented api r
  match env.getAddress p.party.val with
  | some address => return (address, p)
  | none => .error .thrown

-- The checks before the nonce is consumed.
def admitSigner (api : Api) (env : Env) (now : Int) (r : Request) (s : State) :
    Except Rejection (String × Presented) := do
  let (address, p) ← identifySigner api env r
  checkRegistered api s (lowerCase address)
  checkSkew api env now p.timestamp
  return (address, p)

-- The checks after it.
def verifySigner (api : Api) (env : Env) (r : Request) (address : String) (p : Presented) :
    Except Rejection Unit := do
  let input ← canonicalInput api env r p
  match (env.verifyMessage (canonicalMessage api.title input) p.signature).bind env.getAddress with
  | some recovered =>
    if recovered ≠ address then .error (.unauthorized api.invalidSignature) else .ok ()
  | none => .error .thrown

def requireSigner (api : Api) (env : Env) (now : Reads) (r : Request) : Handler String := do
  let (address, p) ← admitSigner api env now.skew r (← get)
  let fresh ← consumeNonce api.surface (lowerCase address) p.nonce now.nonce NONCE_TTL_MS
  if !fresh then throw (.unauthorized api.nonceUsed)
  verifySigner api env r address p
  touch api.surface (lowerCase address) now.touch
  return address

def sweeperApi : Api where
  surface := .sweeper
  partyHeader := "x-sweeper-address"
  timestampHeader := "x-sweeper-timestamp"
  nonceHeader := "x-sweeper-nonce"
  bodyHashHeader := "x-sweeper-body-hash"
  signatureHeader := "x-sweeper-signature"
  title := "Trustless Commerce sweeper request"
  missingHeaders := "Missing sweeper signature headers"
  notRegistered := "Sweeper not registered or disabled"
  skewTooLarge := "Sweeper timestamp skew too large"
  nonceUsed := "Sweeper nonce already used"
  invalidSignature := "Invalid sweeper signature"

def bundlerApi : Api where
  surface := .bundler
  partyHeader := "x-bundler-address"
  timestampHeader := "x-bundler-timestamp"
  nonceHeader := "x-bundler-nonce"
  bodyHashHeader := "x-bundler-body-hash"
  signatureHeader := "x-bundler-signature"
  title := "Trustless Commerce bundler request"
  missingHeaders := "Missing bundler signature headers"
  notRegistered := "Bundler not registered or disabled"
  skewTooLarge := "Bundler timestamp skew too large"
  nonceUsed := "Bundler nonce already used"
  invalidSignature := "Invalid bundler signature"

def requireSweeper : Env → Reads → Request → Handler String := requireSigner sweeperApi
def requireBundler : Env → Reads → Request → Handler String := requireSigner bundlerApi

/-! ## `requireWalletClient` -/

def clientApi : Api where
  surface := .walletClient
  partyHeader := "x-client-id"
  timestampHeader := "x-client-timestamp"
  nonceHeader := "x-client-nonce"
  bodyHashHeader := "x-client-body-hash"
  signatureHeader := "x-client-signature"
  title := "Trustless Commerce client request"
  missingHeaders := "Missing client HMAC headers"
  notRegistered := "Client not registered or disabled"
  skewTooLarge := "Client timestamp skew too large"
  nonceUsed := "Client nonce already used"
  invalidSignature := "Invalid client signature"

-- Equality up to letter case.
def safeEqualHex (a b : String) : Bool := lowerCase a = lowerCase b

def admitClient (env : Env) (now : Int) (r : Request) (s : State) :
    Except Rejection (String × Presented) := do
  let p ← presented clientApi r
  checkRegistered clientApi s p.party.val
  checkSkew clientApi env now p.timestamp
  return (p.party.val, p)

-- Unlike the other two, this copy compares the hash with the body, when it is given one.
def checkBody (env : Env) (r : Request) : Option String → Except Rejection Unit
  | none => .ok ()
  | some rawBody =>
    if safeEqualHex (env.hashBody rawBody).val (coveredHash clientApi env r).val then .ok ()
    else .error (.unauthorized "Client body hash mismatch")

def verifyClient (env : Env) (r : Request) (rawBody : Option String) (hmacSecret : String)
    (p : Presented) : Except Rejection Unit := do
  let input ← canonicalInput clientApi env r p
  checkBody env r rawBody
  let expected := env.signClientCanonical hmacSecret (canonicalMessage clientApi.title input)
  if safeEqualHex expected p.signature.val then .ok ()
  else .error (.unauthorized clientApi.invalidSignature)

def requireWalletClient (env : Env) (now : Reads) (r : Request) (rawBody : Option String) :
    Handler String := do
  let s ← get
  let (clientId, p) ← admitClient env now.skew r s
  let fresh ← consumeNonce .walletClient clientId p.nonce now.nonce NONCE_TTL_MS
  if !fresh then throw (.unauthorized clientApi.nonceUsed)
  verifyClient env r rawBody (s.hmacSecret clientId) p
  touch .walletClient clientId now.touch
  return clientId

/-! ## The handlers -/

-- The text that a handler goes on to parse: `readJson` reads the body of the request, the wallet
-- client routes parse the text they have passed to the check.
def actOn (env : Env) (now : Reads) (r : Request) : Surface → Handler String
  | .sweeper => do
    let _ ← requireSweeper env now r
    return r.rawBody
  | .bundler => do
    let _ ← requireBundler env now r
    return r.rawBody
  | .walletClient => do
    let _ ← requireWalletClient env now r (some r.rawBody)
    return r.rawBody

end OnchainInvoice.SignedRequests
