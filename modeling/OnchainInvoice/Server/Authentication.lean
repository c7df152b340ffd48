import OnchainInvoice.Lib.Revert
import OnchainInvoice.Server.SignedRequests

/-!
# What the authenticators guarantee

All three copies check, then consume the nonce, then check again, so each is a gate whose key is the
party with its nonce.
-/

namespace OnchainInvoice.SignedRequests

open Lib.Nonces Lib.Revert Lib.Handlers Function
open Server (lowerCase)

variable {env : Env} {s s' : State} {surface : Surface} {r : Request} {now : Reads} {party : String}
  {p : Presented}

/-! ## One shape -/

-- From the nonce on: consume it, then the remaining checks, then the answer.
def gated (surface : Surface) (now : Reads) (key : String) (nonce : Line) (used : String)
    (checks : Except Rejection Unit) (answer : String) (s : State) :
    Except Rejection String × State :=
  let result := consumeNonce surface key nonce now.nonce NONCE_TTL_MS s
  if result.1 then
    match checks with
    | .ok () => (.ok answer, (touch surface key now.touch result.2).2)
    | .error e => (.error e, result.2)
  else (.error (.unauthorized used), result.2)

theorem exec_requireSigner (api : Api) : exec (requireSigner api env now r) s =
    match admitSigner api env now.skew r s with
    | .ok (address, p) => gated api.surface now (lowerCase address) p.nonce api.nonceUsed
        (verifySigner api env r address p) address s
    | .error e => (.error e, s) := by
  unfold requireSigner gated
  cases hadmission : admitSigner api env now.skew r s with
  | error e => simp only [exec_get_bind, exec_check_bind, hadmission]
  | ok c =>
    obtain ⟨address, p⟩ := c
    simp only [exec_get_bind, exec_check_bind, hadmission, exec_lift_bind]
    cases hfresh : (consumeNonce api.surface (lowerCase address) p.nonce now.nonce NONCE_TTL_MS
      s).1 with
    | false => simp
    | true => cases verifySigner api env r address p <;> simp [Except.map]

theorem exec_requireWalletClient (rawBody : Option String) :
    exec (requireWalletClient env now r rawBody) s =
      match admitClient env now.skew r s with
      | .ok (clientId, p) => gated .walletClient now clientId p.nonce clientApi.nonceUsed
          (verifyClient env r rawBody (s.hmacSecret clientId) p) clientId s
      | .error e => (.error e, s) := by
  unfold requireWalletClient gated
  cases hadmission : admitClient env now.skew r s with
  | error e => simp only [exec_get_bind, exec_check_bind, hadmission]
  | ok c =>
    obtain ⟨clientId, p⟩ := c
    simp only [exec_get_bind, exec_check_bind, hadmission, exec_lift_bind]
    cases hfresh : (consumeNonce .walletClient clientId p.nonce now.nonce NONCE_TTL_MS s).1 with
    | false => simp
    | true => cases verifyClient env r rawBody (s.hmacSecret clientId) p <;> simp [Except.map]

def api : Surface → Api
  | .sweeper => sweeperApi
  | .bundler => bundlerApi
  | .walletClient => clientApi

-- The primary key under which a party is stored.
def keyOf : Surface → String → String
  | .walletClient, clientId => clientId
  | _, address => lowerCase address

-- The checks before the nonce and those after it.
def admission (env : Env) (now : Int) (r : Request) (s : State) :
    Surface → Except Rejection (String × Presented)
  | .sweeper => admitSigner sweeperApi env now r s
  | .bundler => admitSigner bundlerApi env now r s
  | .walletClient => admitClient env now r s

def verify (env : Env) (s : State) (r : Request) (party : String) (p : Presented) :
    Surface → Except Rejection Unit
  | .sweeper => verifySigner sweeperApi env r party p
  | .bundler => verifySigner bundlerApi env r party p
  | .walletClient => verifyClient env r (some r.rawBody) (s.hmacSecret party) p

theorem gated_map (key : String) (nonce : Line) (used : String) (checks : Except Rejection Unit)
    (answer text : String) :
    ((gated surface now key nonce used checks answer s).1.map fun _ => text,
      (gated surface now key nonce used checks answer s).2) =
        gated surface now key nonce used checks text s := by
  unfold gated
  dsimp only
  split
  · cases checks <;> rfl
  · rfl

theorem gated_isOk (key : String) (nonce : Line) (used : String) (checks : Except Rejection Unit)
    (answer : String) : (gated surface now key nonce used checks answer s).1.isOk =
      ((consume (s.nonces surface) (key, nonce) now.nonce NONCE_TTL_MS).1 && checks.isOk) := by
  unfold gated consumeNonce
  dsimp only
  split
  · rename_i hfresh
    rw [hfresh, Bool.true_and]
    cases checks <;> rfl
  · rename_i hused
    rw [Bool.eq_false_of_not_eq_true hused, Bool.false_and]
    rfl

/-- The only columns that are written. -/
theorem gated_state (surface : Surface) (now : Reads) (key : String) (nonce : Line) (used : String)
    (checks : Except Rejection Unit) (answer : String) (s : State) :
    ∃ seen, (gated surface now key nonce used checks answer s).2 =
      { s with
        lastSeenAt := seen
        nonces := update s.nonces surface
          (consume (s.nonces surface) (key, nonce) now.nonce NONCE_TTL_MS).2 } := by
  unfold gated consumeNonce touch
  dsimp only
  split
  · cases checks with
    | ok u => exact ⟨_, rfl⟩
    | error e => exact ⟨_, rfl⟩
  · exact ⟨_, rfl⟩

/-- Every copy is of this shape. -/
theorem exec_actOn : exec (actOn env now r surface) s =
    match admission env now.skew r s surface with
    | .ok (party, p) => gated surface now (keyOf surface party) p.nonce (api surface).nonceUsed
        (verify env s r party p surface) r.rawBody s
    | .error e => (.error e, s) := by
  cases surface with
  | sweeper =>
    refine (exec_map _).trans ?_
    rw [requireSweeper, exec_requireSigner, admission]
    cases admitSigner sweeperApi env now.skew r s with
    | ok c => exact gated_map ..
    | error e => rfl
  | bundler =>
    refine (exec_map _).trans ?_
    rw [requireBundler, exec_requireSigner, admission]
    cases admitSigner bundlerApi env now.skew r s with
    | ok c => exact gated_map ..
    | error e => rfl
  | walletClient =>
    refine (exec_map _).trans ?_
    rw [exec_requireWalletClient, admission]
    cases admitClient env now.skew r s with
    | ok c => exact gated_map ..
    | error e => rfl

-- Who a request says it is from.
def identify (env : Env) (r : Request) : Surface → Except Rejection (String × Presented)
  | .sweeper => identifySigner sweeperApi env r
  | .bundler => identifySigner bundlerApi env r
  | .walletClient => (presented clientApi r).map fun p => (p.party.val, p)

@[simp] theorem checkRegistered_eq_ok {api : Api} {key : String} {u : Unit} :
    checkRegistered api s key = .ok u ↔ s.enabled api.surface key = some true := by
  unfold checkRegistered
  split <;> simp_all

theorem withinSkew_eq_true {at_ : Int} {timestamp : Line} : withinSkew env at_ timestamp = true ↔
    ∃ ts, env.number timestamp = some ts ∧ |(at_ : ℚ) - ts| ≤ SKEW_MS := by
  unfold withinSkew
  cases env.number timestamp <;> simp

@[simp] theorem checkSkew_eq_ok {api : Api} {at_ : Int} {timestamp : Line} {u : Unit} :
    checkSkew api env at_ timestamp = .ok u ↔ withinSkew env at_ timestamp = true := by
  unfold checkSkew
  split <;> simp_all

theorem admitSigner_eq_ok {api : Api} {at_ : Int} {c : String × Presented} :
    admitSigner api env at_ r s = .ok c ↔ identifySigner api env r = .ok c ∧
      s.enabled api.surface (lowerCase c.1) = some true ∧
        withinSkew env at_ c.2.timestamp = true := by
  obtain ⟨address, p⟩ := c
  unfold admitSigner
  simp only [bind_eq_ok, checkRegistered_eq_ok, checkSkew_eq_ok, pure_eq_ok, exists_const]
  apply Iff.intro
  · rintro ⟨⟨_, _⟩, hc, henabled, hskew, hpair⟩
    cases hpair
    exact ⟨hc, henabled, hskew⟩
  · rintro ⟨hc, henabled, hskew⟩
    exact ⟨_, hc, henabled, hskew, rfl⟩

theorem admission_eq_ok {at_ : Int} {c : String × Presented} : admission env at_ r s surface = .ok c ↔
    identify env r surface = .ok c ∧ s.enabled surface (keyOf surface c.1) = some true ∧
      withinSkew env at_ c.2.timestamp = true := by
  cases surface with
  | sweeper => exact admitSigner_eq_ok
  | bundler => exact admitSigner_eq_ok
  | walletClient =>
    obtain ⟨clientId, p⟩ := c
    unfold admission admitClient identify
    simp only [bind_eq_ok, checkRegistered_eq_ok, checkSkew_eq_ok, pure_eq_ok, exists_const]
    cases hp : presented clientApi r with
    | error e => simp [Except.map]
    | ok p' =>
      simp only [Except.map, Except.ok.injEq, Prod.mk.injEq]
      apply Iff.intro
      · rintro ⟨_, rfl, henabled, hskew, rfl, rfl⟩
        exact ⟨⟨rfl, rfl⟩, henabled, hskew⟩
      · rintro ⟨⟨rfl, rfl⟩, henabled, hskew⟩
        exact ⟨_, rfl, henabled, hskew, rfl, rfl⟩

/-! ## Deliveries -/

-- One request at one surface, with the clock as it finds it.
structure Delivery where
  surface : Surface
  request : Request
  reads : Reads

variable {d : Delivery} {ds : List Delivery} {a : Attempt Surface (String × Line)}

-- The answer and the state it leaves.
def deliver (env : Env) (s : State) (d : Delivery) : Except Rejection String × State :=
  exec (actOn env d.reads d.request d.surface) s

/-- The handler acts on the body that came with the request, if every check is passed. -/
theorem deliver_eq_ok {text : String} : (deliver env s d).1 = .ok text ↔
    ∃ c, admission env d.reads.skew d.request s d.surface = .ok c ∧
      purge d.reads.nonce (s.nonces d.surface) (keyOf d.surface c.1, c.2.nonce) = none ∧
      verify env s d.request c.1 c.2 d.surface = .ok () ∧ d.request.rawBody = text := by
  unfold deliver
  rw [exec_actOn]
  cases hadmission : admission env d.reads.skew d.request s d.surface with
  | error e => simp
  | ok c =>
    obtain ⟨party, p⟩ := c
    simp only [gated, consumeNonce, consume_fst, Except.ok.injEq, exists_eq_left']
    split
    · rename_i hfresh
      cases hverify : verify env s d.request party p d.surface <;> simp [hfresh]
    · rename_i hused
      simp [hused]

-- The party and nonce of a request, as the nonce table stores them, and its timestamp.
def pairOf (env : Env) (d : Delivery) : Option (String × Line) :=
  match identify env d.request d.surface with
  | .ok (party, p) => some (keyOf d.surface party, p.nonce)
  | .error _ => none

def timestampOf (env : Env) (d : Delivery) : Option ℚ :=
  match identify env d.request d.surface with
  | .ok (_, p) => env.number p.timestamp
  | .error _ => none

-- The party has signed the request, and on the wallet client surface its body.
def authentic (env : Env) (s : State) (d : Delivery) : Bool :=
  match identify env d.request d.surface with
  | .ok (party, p) => (verify env s d.request party p d.surface).isOk
  | .error _ => false

-- It passes the checks that come before the nonce.
def admitted (env : Env) (s : State) (d : Delivery) : Bool :=
  (admission env d.reads.skew d.request s d.surface).isOk

-- A delivery as an attempt at the gate of its surface, once it has been admitted.
def attempt (env : Env) (s : State) (d : Delivery) : Option (Attempt Surface (String × Line)) :=
  match admission env d.reads.skew d.request s d.surface with
  | .ok (party, p) => some ⟨d.surface, (keyOf d.surface party, p.nonce), d.reads.nonce,
      (verify env s d.request party p d.surface).isOk⟩
  | .error _ => none

theorem attempt_of_admission {c : String × Presented}
    (h : admission env d.reads.skew d.request s d.surface = .ok c) :
    attempt env s d = some ⟨d.surface, (keyOf d.surface c.1, c.2.nonce), d.reads.nonce,
      (verify env s d.request c.1 c.2 d.surface).isOk⟩ := by
  unfold attempt
  rw [h]

theorem deliver_of_not_admitted (h : attempt env s d = none) :
    (deliver env s d).1.isOk = false ∧ (deliver env s d).2 = s := by
  unfold attempt at h
  unfold deliver
  rw [exec_actOn]
  cases hadmission : admission env d.reads.skew d.request s d.surface with
  | ok c =>
    rw [hadmission] at h
    exact absurd h (Option.some_ne_none _)
  | error e => exact ⟨rfl, rfl⟩

/-- An admitted delivery is accepted as the attempt is, and does to the nonces what the attempt
does. -/
theorem deliver_of_attempt (h : attempt env s d = some a) :
    (deliver env s d).1.isOk = accepts NONCE_TTL_MS s.nonces a ∧
      (deliver env s d).2.nonces = after NONCE_TTL_MS s.nonces a ∧
      (deliver env s d).2.enabled = s.enabled ∧
      (deliver env s d).2.hmacSecret = s.hmacSecret := by
  unfold attempt at h
  unfold deliver
  rw [exec_actOn]
  cases hadmission : admission env d.reads.skew d.request s d.surface with
  | error e =>
    rw [hadmission] at h
    exact absurd h.symm (Option.some_ne_none _)
  | ok c =>
    rw [hadmission] at h
    cases h
    obtain ⟨seen, hstate⟩ := gated_state d.surface d.reads (keyOf d.surface c.1) c.2.nonce
      (api d.surface).nonceUsed (verify env s d.request c.1 c.2 d.surface) d.request.rawBody s
    exact ⟨gated_isOk .., by rw [hstate]; rfl, by rw [hstate], by rw [hstate]⟩

/-! Requests read of a state the nonces, who is enabled and the secrets. -/

theorem verify_congr (hsecret : s'.hmacSecret = s.hmacSecret) :
    verify env s' r party p surface = verify env s r party p surface := by
  cases surface <;> simp only [verify, hsecret]

theorem admission_congr {at_ : Int} (henabled : s'.enabled = s.enabled) :
    admission env at_ r s' surface = admission env at_ r s surface := by
  cases surface <;> simp only [admission, admitSigner, admitClient, checkRegistered, henabled]

theorem attempt_congr (henabled : s'.enabled = s.enabled) (hsecret : s'.hmacSecret = s.hmacSecret) :
    attempt env s' d = attempt env s d := by
  simp only [attempt, admission_congr henabled, verify_congr hsecret]

/-- What an attempt says about its delivery. -/
theorem attempt_eq_some (h : attempt env s d = some a) :
    a.gate = d.surface ∧ pairOf env d = some a.key ∧ a.now = d.reads.nonce ∧
      a.genuine = authentic env s d ∧
      ∃ ts, timestampOf env d = some ts ∧ |(d.reads.skew : ℚ) - ts| ≤ SKEW_MS := by
  unfold attempt at h
  cases hadmission : admission env d.reads.skew d.request s d.surface with
  | error e =>
    rw [hadmission] at h
    exact absurd h.symm (Option.some_ne_none _)
  | ok c =>
    rw [hadmission] at h
    cases h
    have ⟨hidentify, _, hskew⟩ := admission_eq_ok.mp hadmission
    unfold pairOf authentic timestampOf
    rw [hidentify]
    exact ⟨rfl, rfl, rfl, rfl, withinSkew_eq_true.mp hskew⟩

/-! ## One choice of the parameters -/

-- Decimal digits as `Number` reads them.
def decimal (l : Line) : Option ℚ :=
  (l.val.toList.foldlM (fun (n : Nat) (c : Char) =>
    if c.isDigit then some (10 * n + (c.toNat - 48)) else none) 0).map Nat.cast

def toySigned : Line := Line.of "sig"
def toyForged : Line := Line.of "forged"

-- The sweeper `0xAa` has signed one message, for the empty body.
def toyMessage : String :=
  canonicalMessage sweeperApi.title ⟨upperCase (Line.of "post"), Line.of "/track", Line.of "e3",
    Line.of "1000000", Line.of "n"⟩

def Env.toy : Env where
  number := decimal
  getAddress := some
  verifyMessage message signature :=
    if message = toyMessage ∧ signature = toySigned then some "0xAa" else some "0xBb"
  pathname url := if url = "/track" then some (Line.of "/track") else none
  hashBody body := if body = "" then Line.of "e3" else Line.of "44"
  signClientCanonical secret _ := secret

def State.toy : State where
  enabled surface key := if surface = .sweeper ∧ key = "0xaa" then some true else none
  hmacSecret _ := ""
  lastSeenAt _ _ := none
  nonces _ _ := none

def toyRequest (signature : Line) (body : String) : Request where
  headers name :=
    if name = "x-sweeper-address" then some (Line.of "0xAa")
    else if name = "x-sweeper-timestamp" then some (Line.of "1000000")
    else if name = "x-sweeper-nonce" then some (Line.of "n")
    else if name = "x-sweeper-body-hash" then some (Line.of "e3")
    else if name = "x-sweeper-signature" then some signature
    else none
  method := some (Line.of "post")
  url := some (Line.of "/track")
  rawBody := body

def toyPresented (signature : Line) : Presented :=
  ⟨Line.of "0xAa", Line.of "1000000", Line.of "n", signature⟩

theorem admission_toy {at_ : Int} {signature : Line} {body : String}
    (hidentify : identify .toy (toyRequest signature body) .sweeper =
      .ok ("0xAa", toyPresented signature))
    (hskew : |(at_ : ℚ) - 1000000| ≤ SKEW_MS) :
    admission .toy at_ (toyRequest signature body) .toy .sweeper =
      .ok ("0xAa", toyPresented signature) := by
  have hts : Env.toy.number (Line.of "1000000") = some 1000000 := rfl
  have henabled : State.toy.enabled .sweeper (lowerCase "0xAa") = some true := by decide
  exact admission_eq_ok.mpr ⟨hidentify, henabled, withinSkew_eq_true.mpr ⟨1000000, hts, hskew⟩⟩

theorem identify_toySigned (body : String) :
    identify .toy (toyRequest toySigned body) .sweeper = .ok ("0xAa", toyPresented toySigned) := rfl

theorem identify_toyForged (body : String) :
    identify .toy (toyRequest toyForged body) .sweeper = .ok ("0xAa", toyPresented toyForged) := rfl

theorem canonicalInput_toy (signature : Line) (body : String) :
    canonicalInput sweeperApi .toy (toyRequest signature body) (toyPresented signature) =
      .ok ⟨upperCase (Line.of "post"), Line.of "/track", Line.of "e3", Line.of "1000000",
        Line.of "n"⟩ := rfl

theorem verify_toy (s : State) (signature : Line) (body : String) :
    verify .toy s (toyRequest signature body) "0xAa" (toyPresented signature) .sweeper =
      if signature = toySigned then .ok ()
      else .error (.unauthorized sweeperApi.invalidSignature) := by
  unfold verify verifySigner
  rw [canonicalInput_toy]
  by_cases h : signature = toySigned <;>
    simp [Env.toy, toyMessage, toyPresented, h, bind, Except.bind]

end OnchainInvoice.SignedRequests
