import OnchainInvoice.Lib.Fees
import OnchainInvoice.Lib.Handlers
import OnchainInvoice.Server.Effects
import OnchainInvoice.Server.Routes

/-!
# The sweeper worker

`tick` of `worker.ts` with what it uses of the SDKs, over the server's database and the chains.  The
worker waits for an answer many times in a tick; each time is a turn, in which others may act and
the worker's request may fail.
-/

namespace OnchainInvoice.SweeperWorker

open Lib.Handlers Server Function

/-! ## Configuration -/

inductive SweeperRole
  | evm | tron | solana | all
deriving DecidableEq, Repr

-- Tokens are pairs of a symbol and an address.
structure EvmChainConfig where
  chainId : String
  rpcUrl : String
  sweeperAddress : String
  privateKey : String
  tokens : List (String × String)

structure TronSweeperConfig where
  chainId : Option String
  usdtAddress : Option String
  tokens : List (String × String)
  -- the address that the master secret gives to an invoice of a chain
  deriveTronInvoiceAddress : String → String → String

structure SolanaChain where
  chainId : String
  feeBps : Option Int
  tokens : List (String × String)

structure SolanaSweeperConfig where
  chains : List SolanaChain
  feeBps : Option Int

-- Tron and Solana as they are after `start`, which drops what is not set up.  `address` is the
-- sweeper's wallet, `registered` the chains the server has it registered for.
structure SweeperConfig where
  address : String
  registered : Option (List String)
  claimLeaseMs : Int
  maxRetries : Nat
  role : SweeperRole
  chains : List EvmChainConfig
  tron : Option TronSweeperConfig
  solana : Option SolanaSweeperConfig

-- A secret that is empty or still a placeholder.
def isUnsetSecret (value : String) : Bool :=
  let v := trim value
  v = "" ∨ v = "_PRIVATE_KEY_" ∨ startsWith (lowerCase v) "change-me" ∨
    startsWith (upperCase v) "PLACEHOLDER"

def filterEvmObserveChains (chains : List EvmChainConfig) : List EvmChainConfig :=
  chains.filter fun c => trim c.rpcUrl ≠ ""

def NATIVE_TOKEN : String := "0x0000000000000000000000000000000000000000"

def filterEvmSweepChains (chains : List EvmChainConfig) : List EvmChainConfig :=
  chains.filter fun c => trim c.rpcUrl ≠ "" ∧ trim c.sweeperAddress ≠ "" ∧
    lowerCase (trim c.sweeperAddress) ≠ NATIVE_TOKEN ∧ isUnsetSecret c.privateKey = false

variable (cfg : SweeperConfig)

def observeChains : List EvmChainConfig :=
  filterEvmObserveChains (if cfg.role ∈ [SweeperRole.tron, .solana] then [] else cfg.chains)

def sweepChains : List EvmChainConfig := filterEvmSweepChains (observeChains cfg)

def tron : Option TronSweeperConfig :=
  if cfg.role ∈ [SweeperRole.evm, .solana] then none else cfg.tron

def solana : Option SolanaSweeperConfig :=
  if cfg.role ∈ [SweeperRole.evm, .tron] then none else cfg.solana

/-! ## The world -/

-- The fees that the contracts take.
structure Fees where
  evmFeeBps : Nat
  evmMinFee : Nat
  solanaFeeBps : Nat

-- `quoteFee` of the EVM sweeper, and the fee of `settle` of the Solana program.
def Fees.evm (fees : Fees) (amount : Nat) : Nat :=
  Lib.Fees.fee 10000 fees.evmFeeBps fees.evmMinFee amount

def Fees.solana (fees : Fees) (amount : Nat) : Nat := amount * fees.solanaFeeBps / 10000

-- A sweep that the worker has sent, with what it knew of it and the fee that was taken.  A sweep of an
-- EVM chain or of Solana has gone through; a transfer on Tron is yet to be carried out, if ever.
inductive Sweep
  | evm (balance quoted fee : Nat)
  | tron (balance amount : Nat)
  | solana (balance : Nat) (feeBps : Int) (amount fee : Nat)
deriving DecidableEq, Repr

-- What the worker has read and done.  With a sweep comes the total that it takes what has been swept
-- from the address to.
inductive Action
  | observed (invoiceId : String) (balance : Nat)
  | sent (invoiceId : String) (hash : String) (sweep : Sweep) (total : Nat)
  | reported (body : TrackBody)
deriving DecidableEq, Repr

-- `holds` and `swept` are what the address of an invoice has of its token, and what has been swept
-- from it by anybody.  `turn` counts the answers that the worker has waited for.  `landed` are the
-- places in the log of the transfers that Tron has carried out.
structure World where
  db : CommerceDb
  holds : String → Nat
  swept : String → Nat
  fees : Fees
  turn : Nat
  log : List Action
  landed : List Nat

def World.sweep (w : World) (invoiceId : String) (amount : Nat) : World :=
  { w with
    holds := update w.holds invoiceId (w.holds invoiceId - amount)
    swept := update w.swept invoiceId (w.swept invoiceId + amount) }

-- What others do.  Anybody may send a sweep, and Tron carries a transfer out when it comes to it.
inductive Other
  | pays (invoiceId : String) (amount : Nat)
  | sweeps (invoiceId : String) (amount : Nat)
  | carries (place : Nat)
  | sets (fees : Fees)
  | calls (call : Call)

-- The transfer at a place of the log that Tron has not carried out.
def World.pending (w : World) (place : Nat) : Option (String × Nat) :=
  match w.log[place]? with
  | some (.sent invoiceId _ (.tron _ amount) _) =>
    if place ∈ w.landed then none else some (invoiceId, amount)
  | _ => none

-- It is reverted if the address does not hold the amount.
def World.carry (w : World) (place : Nat) : World :=
  match w.pending place with
  | none => w
  | some (invoiceId, amount) =>
    if amount ≤ w.holds invoiceId then
      { w.sweep invoiceId amount with landed := place :: w.landed }
    else w

def World.apply (w : World) : Other → World
  | .pays invoiceId amount =>
    { w with holds := update w.holds invoiceId (w.holds invoiceId + amount) }
  | .sweeps invoiceId amount => w.sweep invoiceId (min amount (w.holds invoiceId))
  | .carries place => w.carry place
  | .sets fees => { w with fees := fees }
  | .calls call => { w with db := Lib.Runs.commit step w.db call }

-- What becomes of a request: it is answered, or with a server error; it never arrives, or its
-- answer does not; or the worker stops before it or after it.
inductive Fate
  | answered | failed | unsent | unanswered | stopped | stoppedAfter
deriving DecidableEq, Repr

structure Turn where
  others : List Other
  fate : Fate
  now : Reads
  hash : String
  gasSpentWei : Nat

-- An error may be caught, a stop may not.
inductive Failure
  | thrown (message : String)
  | stopped
deriving DecidableEq, Repr

abbrev Work (α : Type) : Type := Handler Failure World α

variable (script : Nat → Turn)

-- The worker waits, and others act.
def wait : Work Turn := do
  let w ← get
  let turn := script w.turn
  set { turn.others.foldl World.apply w with turn := w.turn + 1 }
  return turn

def interact {α : Type} (act : Turn → StateM World α) : Work (Option α) := do
  let turn ← wait script
  match turn.fate with
  | .answered =>
    let a ← (act turn : StateM World α)
    return some a
  | .failed => return none
  | .unsent => throw (.thrown "fetch failed")
  | .unanswered =>
    let _ ← (act turn : StateM World α)
    throw (.thrown "fetch failed")
  | .stopped => throw .stopped
  | .stoppedAfter =>
    let _ ← (act turn : StateM World α)
    throw .stopped

def note (action : Action) : Work Unit := modify fun w => { w with log := w.log ++ [action] }

def orThrow {α : Type} (message : String) : Option α → Work α
  | some a => return a
  | none => throw (.thrown message)

def caught {α : Type} (x : Work α) (h : String → Work α) : Work α :=
  rescue x fun
    | .thrown message => h message
    | .stopped => throw .stopped

/-! ## Requests -/

def serve {α : Type} (handle : CommerceDb → Except HttpError (α × CommerceDb)) :
    StateM World (Except HttpError α) := fun w =>
  match handle w.db with
  | .ok (a, db) => (.ok a, { w with db := db })
  | .error e => (.error e, w)

def signedFetch {α : Type} (handle : Turn → CommerceDb → Except HttpError (α × CommerceDb)) :
    Work (Except HttpError α) := do
  let answer ← interact script fun turn => serve (handle turn)
  return answer.getD (.error (httpError 500 ""))

def listInvoices (_turn : Turn) (db : CommerceDb) : Except HttpError (List Invoice × CommerceDb) :=
  .ok (listWorkerInvoices db workerStatuses cfg.registered, db)

def claim (invoiceId : String) (version : Int) (turn : Turn) (db : CommerceDb) :
    Except HttpError (Invoice × CommerceDb) :=
  claimInvoice db ⟨invoiceId, cfg.address, some version, cfg.claimLeaseMs⟩ turn.now.check

-- The answer is the row once the callback has been posted, with nobody acting in between.
def track (body : TrackBody) (turn : Turn) (db : CommerceDb) :
    Except HttpError (Option Invoice × CommerceDb) := do
  let (_, db) ← applyTrack db body (some cfg.address) turn.now
  return (body.invoiceId.bind (getInvoice db), db)

def fetchInvoices : Work (List Invoice) := do
  match ← signedFetch script (listInvoices cfg) with
  | .ok invoices => return invoices
  | .error _ => throw (.thrown "Sweeper invoice list failed")

-- The loop of `claimWithRetry`, with the attempts that are left.
def claimAttempts (invoiceId : String) : Nat → Int → Work (Option Invoice)
  | 0, _ => return none
  | n + 1, version => do
    match ← signedFetch script (claim cfg invoiceId version) with
    | .ok invoice => return some invoice
    | .error e =>
      if e.statusCode = 409 then
        match e.invoice with
        | none => return none
        | some current =>
          if current.status = .swept then return none
          else claimAttempts invoiceId n current.version
      else if 500 ≤ e.statusCode then claimAttempts invoiceId n version
      else throw (.thrown "Claim failed")

def claimWithRetry (invoice : Invoice) : Work (Option Invoice) :=
  claimAttempts cfg script invoice.id cfg.maxRetries invoice.version

-- The loop of `trackWithRetry`.
def trackAttempts (body : TrackBody) : Nat → Option Number → Work (Option Invoice)
  | 0, _ => return none
  | n + 1, expectedVersion => do
    let payload := { body with expectedVersion := expectedVersion }
    note (.reported payload)
    match ← signedFetch script (track cfg payload) with
    | .ok invoice => return invoice
    | .error e =>
      if e.statusCode = 409 then
        match e.invoice.filter fun invoice => invoice.status = .swept with
        | some invoice => return some invoice
        | none => trackAttempts body n (e.invoice.map fun invoice => some invoice.version)
      else if 500 ≤ e.statusCode then trackAttempts body n expectedVersion
      else throw (.thrown "Track failed")

def trackWithRetry (body : TrackBody) : Work (Option Invoice) :=
  trackAttempts cfg script body cfg.maxRetries body.expectedVersion

/-! ## Chains -/

def rpc {α : Type} (act : Turn → StateM World α) : Work α := do
  orThrow "call failed" (← interact script act)

def readBalance (invoiceId : String) : Work Nat := do
  let balance ← rpc script fun _ => do return (← get).holds invoiceId
  note (.observed invoiceId balance)
  return balance

-- A sweep transaction goes through if the address holds the amount, and then it is on record.
def execute (invoiceId : String) (amount : Nat) (sweep : World → Sweep) (hash : String) :
    StateM World (Option String) := fun w =>
  if amount ≤ w.holds invoiceId then
    (some hash, { w.sweep invoiceId amount with
      log := w.log ++ [.sent invoiceId hash (sweep w) (w.swept invoiceId + amount)] })
  else (none, w)

-- A Tron node takes any transfer, and nobody waits for it to be carried out.
def broadcast (invoiceId : String) (balance amount : Nat) (hash : String) :
    StateM World (Option String) := fun w =>
  (some hash, { w with
    log := w.log ++ [.sent invoiceId hash (.tron balance amount) (w.swept invoiceId + amount)] })

def isTronInvoice (invoice : Invoice) : Bool :=
  invoice.chainId.getD "" ∈ ["nile", "shasta", "tron", "3448148188", "728126428", "2494104990"]

def isSolanaInvoice (invoice : Invoice) : Bool :=
  invoice.chainId.getD "" ∈ ["devnet", "mainnet-beta", "solana", "solana-devnet"]

def findToken (tokens : List (String × String)) (symbol : String) : Option String :=
  (tokens.find? fun entry => lowerCase entry.1 = lowerCase symbol).map Prod.snd

-- A text that is there and not empty.
def given (value : Option String) : Option String := value.filter (· ≠ "")

-- `none` is the native token.
def resolveToken (chain : EvmChainConfig) (token : Option String) : Work (Option String) :=
  match given token with
  | none => return none
  | some token =>
    if token ∈ ["ETH", "native", NATIVE_TOKEN] then return none
    else if startsWith token "0x" ∧ token.length = 42 then return some token
    else some <$> orThrow "Token is not configured for chain" (findToken chain.tokens token)

def resolveTronToken (tron : TronSweeperConfig) (token : Option String) : Work String :=
  let usdt := given (tron.usdtAddress.or (findToken tron.tokens "USDT"))
  match given token with
  | none => orThrow "USDT address is not configured for Tron" usdt
  | some token =>
    if startsWith token "T" then return token
    else if upperCase token = "USDT" then orThrow "USDT address is not configured for Tron" usdt
    else orThrow "Token is not configured for Tron" (given (findToken tron.tokens token))

def resolveSweeperSolanaChain (solana : SolanaSweeperConfig) (chainId : String) :
    Option SolanaChain :=
  solana.chains.find? fun c => c.chainId = chainId

def resolveSweeperSolanaToken (chain : SolanaChain) (token : Option String) :
    Option (String × String) :=
  chain.tokens.find? fun entry => entry.1 = upperCase (token.getD "USDC")

/-! ## Looking at an invoice -/

-- An invoice whose address has something to sweep; `key` is its EVM chain.
inductive Ready
  | evm (key : String) (invoice : Invoice) (token : Option String) (balance : Nat)
  | tron (invoice : Invoice) (token : String) (balance : Nat)
  | solana (invoice : Invoice) (balance : Nat) (mint symbol chainId : String)

-- What an invoice has to have on it, and its chain.
def sweepable (invoice : Invoice) : Option String :=
  (given invoice.chainId).filter fun _ =>
    (given invoice.invoiceAddress).isSome ∧ (given invoice.selectedTo).isSome ∧
      invoice.status ≠ .swept

-- An empty address is not ready.
def whenPaid (read : Work Nat) (ready : Nat → Ready) : Work (Option Ready) := do
  let balance ← read
  if balance = 0 then return none
  else return some (ready balance)

def prepareInvoice (invoice : Invoice) : Work (Option Ready) := do
  match (sweepable invoice).bind fun chainId =>
      (observeChains cfg).find? fun entry => entry.chainId = chainId with
  | none => return none
  | some chain =>
    let token ← resolveToken chain invoice.token
    whenPaid (readBalance script invoice.id) fun balance =>
      .evm chain.chainId invoice token balance

def prepareTronInvoice (tron : TronSweeperConfig) (invoice : Invoice) : Work (Option Ready) := do
  let expectedChain := ((tron.chainId.map trim).filter (· ≠ "")).getD "nile"
  if sweepable invoice = some expectedChain then
    let token ← resolveTronToken tron invoice.token
    whenPaid (readBalance script invoice.id) fun balance => .tron invoice token balance
  else return none

-- `readInvoiceBalance` of the Solana SDK takes a failed read for an empty account.
def readInvoiceBalance (invoiceId : String) : Work Nat :=
  caught (readBalance script invoiceId) fun _ => return 0

def prepareSolanaInvoice (solana : SolanaSweeperConfig) (invoice : Invoice) :
    Work (Option Ready) := do
  match (sweepable invoice).bind (resolveSweeperSolanaChain solana) with
  | none => return none
  | some chain =>
    match resolveSweeperSolanaToken chain invoice.token with
    | none => return none
    | some (symbol, mint) =>
      whenPaid (readInvoiceBalance script invoice.id) fun balance =>
        .solana invoice balance mint symbol chain.chainId

def prepare (invoice : Invoice) : Work (Option Ready) :=
  if isTronInvoice invoice then
    match tron cfg with
    | some tron => prepareTronInvoice script tron invoice
    | none => return none
  else if isSolanaInvoice invoice then
    match solana cfg with
    | some solana => prepareSolanaInvoice script solana invoice
    | none => return none
  else prepareInvoice cfg script invoice

/-! ## Sweeping -/

-- A report without figures, of a failure or that the invoice is paid.
def errorReport (invoice : Invoice) : TrackBody where
  invoiceId := some invoice.id
  status := none
  amountPaid := none
  amountSwept := none
  feeCollected := none
  gasSpentWei := none
  sweepTx := none
  expectedVersion := some (some invoice.version)

def paidReport (invoice : Invoice) (balance : Nat) (version : Int) : TrackBody :=
  { errorReport invoice with
    status := some (if invoice.allowPartial then "paid_partial" else "paid")
    amountPaid := some (toString balance)
    expectedVersion := some (some version) }

def sweptReport (invoice : Invoice) (amountPaid amountSwept feeCollected : Int) (gasSpentWei : Nat)
    (sweepTx : String) (version : Int) : TrackBody where
  invoiceId := some invoice.id
  status := some "swept"
  amountPaid := some (toString amountPaid)
  amountSwept := some (toString amountSwept)
  feeCollected := some (toString feeCollected)
  gasSpentWei := some (toString gasSpentWei)
  sweepTx := some sweepTx
  expectedVersion := some (some version)

-- With `sweep` of the SDK, which looks at the balance again and asks for the fee.
def sweepOne (invoice : Invoice) (balance : Nat) (version : Int) : Work Unit := do
  let held ← readBalance script invoice.id
  if held < balance then throw (.thrown "Insufficient invoice balance")
  let fee ← rpc script fun _ => do return (← get).fees.evm balance
  let hash ← rpc script fun turn =>
    execute invoice.id balance (fun w => .evm balance fee (w.fees.evm balance)) turn.hash
  let hash ← orThrow "execution reverted" hash
  let gasSpentWei ← rpc script fun turn => return turn.gasSpentWei
  let _ ← trackWithRetry cfg script
    (sweptReport invoice balance balance fee gasSpentWei hash version)

-- With `sweepTrc20FromInvoice`, which reads the balance for itself.
def sweepTronOne (tron : TronSweeperConfig) (invoice : Invoice) (balance : Nat) (version : Int) :
    Work Unit := do
  if some (tron.deriveTronInvoiceAddress (invoice.chainId.getD "nile") invoice.id) ≠
      invoice.invoiceAddress then
    throw (.thrown "Tron invoice address mismatch")
  rpc script fun _ => return ()
  let amount ← readBalance script invoice.id
  if amount = 0 then throw (.thrown "Invoice TRC20 balance is zero")
  let hash ← rpc script fun turn => broadcast invoice.id balance amount turn.hash
  let hash ← orThrow "broadcast failed" hash
  let _ ← trackWithRetry cfg script (sweptReport invoice balance amount 0 0 hash version)

-- `settle` of the Solana program, which moves all that the account holds.
def settle (invoiceId : String) (balance : Nat) (feeBps : Int) (hash : String) :
    StateM World (Option String) := fun w =>
  let amount := w.holds invoiceId
  if amount = 0 then (none, w)
  else execute invoiceId amount (fun w => .solana balance feeBps amount (w.fees.solana amount)) hash w

def sweepSolanaOne (solana : SolanaSweeperConfig) (invoice : Invoice) (balance : Nat)
    (chainId : String) (version : Int) : Work Unit := do
  let chain ← orThrow "Solana chain not configured" (resolveSweeperSolanaChain solana chainId)
  let feeBps := (chain.feeBps.or solana.feeBps).getD 50
  let fee := ((balance : Int) * feeBps).tdiv 10000
  let hash ← rpc script fun turn => settle invoice.id balance feeBps turn.hash
  let hash ← orThrow "insufficient funds" hash
  let _ ← trackWithRetry cfg script (sweptReport invoice balance (balance - fee) fee 0 hash version)

-- Claim, report paid, sweep.  On Tron and Solana the version is guessed if the report got no answer.
def claimAndSweep (invoice : Invoice) (balance : Nat) (sweep : Int → Work Unit) : Work Unit := do
  match ← claimWithRetry cfg script invoice with
  | none => return ()
  | some claimed =>
    let afterPaid ← trackWithRetry cfg script (paidReport invoice balance claimed.version)
    sweep ((afterPaid.map Invoice.version).getD (claimed.version + 1))

-- On an EVM chain an invoice is reported paid once, and without a sweep key.
def markPaid (invoice : Invoice) (balance : Nat) : Work (Option Invoice) :=
  if invoice.status ∈ [InvoiceStatus.awaitingPayment, .created] then
    trackWithRetry cfg script (paidReport invoice balance invoice.version)
  else return some invoice

def sweepEvm (key : String) (invoice : Invoice) (balance : Nat) : Work Unit := do
  match ← markPaid cfg script invoice balance with
  | none => return ()
  | some afterPaid =>
    if (sweepChains cfg).any fun entry => entry.chainId = key then
      match ← claimWithRetry cfg script { invoice with version := afterPaid.version } with
      | none => return ()
      | some claimed => sweepOne cfg script invoice balance claimed.version

def Ready.invoice : Ready → Invoice
  | .evm _ invoice _ _ => invoice
  | .tron invoice _ _ => invoice
  | .solana invoice _ _ _ _ => invoice

def Ready.balance : Ready → Nat
  | .evm _ _ _ balance => balance
  | .tron _ _ balance => balance
  | .solana _ balance _ _ _ => balance

def sweepReady : Ready → Work Unit
  | .evm key invoice _ balance => sweepEvm cfg script key invoice balance
  | .tron invoice _ balance =>
    claimAndSweep cfg script invoice balance fun version => do
      sweepTronOne cfg script (← orThrow "" (tron cfg)) invoice balance version
  | .solana invoice balance _ _ chainId =>
    claimAndSweep cfg script invoice balance fun version => do
      sweepSolanaOne cfg script (← orThrow "" (solana cfg)) invoice balance chainId version

/-! ## A tick -/

def reportError (invoice : Invoice) : Work Unit := do
  let _ ← trackWithRetry cfg script (errorReport invoice)

def Ready.key : Ready → Option String
  | .evm key _ _ _ => some key
  | _ => none

def Ready.isTron : Ready → Bool
  | .tron .. => true
  | _ => false

def Ready.isSolana : Ready → Bool
  | .solana .. => true
  | _ => false

-- What is ready, one EVM chain after the other in the order in which they first came up, then Tron,
-- then Solana.
def inOrder (ready : List Ready) : List Ready :=
  let keys := (ready.filterMap Ready.key).reverse.dedup.reverse
  (keys.flatMap fun key => ready.filter fun r => r.key = some key) ++
    ready.filter Ready.isTron ++ ready.filter Ready.isSolana

-- An error in one invoice is reported and does not stop the others.
def examine (ready : List Ready) (invoice : Invoice) : Work (List Ready) :=
  caught (do return ready ++ (← prepare cfg script invoice).toList) fun _ =>
    caught (do reportError cfg script invoice; return ready) fun _ => return ready

def process (r : Ready) : Work Unit :=
  caught (sweepReady cfg script r) fun _ =>
    caught (reportError cfg script r.invoice) fun _ => return ()

def tick : Work Unit := do
  let invoices ← fetchInvoices cfg script
  let ready ← invoices.foldlM (examine cfg script) []
  (inOrder ready).forM (process cfg script)

end OnchainInvoice.SweeperWorker
