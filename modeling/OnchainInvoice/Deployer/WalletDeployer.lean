import OnchainInvoice.Lib.Awaits
import OnchainInvoice.Lib.Histories
import OnchainInvoice.Recovery.Server
import OnchainInvoice.Session.IdentityOnChain
import OnchainInvoice.Worker.SweeperWorker

/-!
# The wallet deployer

The recovery jobs of `worker.ts`: the deployer lists them, claims them one by one, sends the
transaction of each as the guardian of the identity store and reports what became of it.  The server
and the store go on while it waits, and a transaction that it sent may be mined at any later time.
-/

namespace OnchainInvoice.WalletDeployer

open Evm IdentityTypes Lib.Awaits Lib.Handlers Recovery Server WalletLog
open IdentityRoutes (addressOf bytes32)
open SweeperWorker (isUnsetSecret)
open WebAuthnSignature (getBytes)

/-! ## Configuration -/

-- The chain whose recovery address, where it is set, is the identity store's.
structure ChainConfig where
  chainId : String
  privateKey : String
  guardianPrivateKey : Option String
  recoveryAddress : Option String
  minBalance : Nat

-- `addressOfKey` is the address of a private key.
structure Config where
  workerId : String
  chain : ChainConfig
  addressOfKey : String → Address

variable (cfg : Config)

def ChainConfig.guardianKey (chain : ChainConfig) : String :=
  match chain.guardianPrivateKey.filter fun key => trim key ≠ "" ∧ isUnsetSecret key = false with
  | some key => key
  | none => chain.privateKey

def Config.guardian : Address := cfg.addressOfKey cfg.chain.guardianKey

def ChainConfig.recoveryAddr (chain : ChainConfig) : Option String :=
  (chain.recoveryAddress.map trim).filter (· ≠ "")

/-! ## The world -/

section World

variable (env : Recovery.Env) (contract : IdentityStore.Env) (s₀ : IdentityStore.State)

-- A transaction of the guardian, of the job it was sent for, with its receipt once it is mined:
-- `none` for a call of another contract than the store.
structure Submission where
  jobId : String
  call : Option IdentityStore.Call
  receipt : Option Bool

-- The server with the calls it has served, the store with the transactions it has seen, and what
-- the deployer has sent.
structure World where
  calls : List Recovery.Call
  server : RecoveryServer
  served : server = Lib.Histories.run (next env) .empty calls
  mined : List (Tx IdentityStore.Call)
  store : IdentityStore.State
  replayed : store = Lib.Runs.run (IdentityStore.step contract) s₀ mined
  sent : List Submission

def World.start : World env contract s₀ := ⟨[], .empty, rfl, [], s₀, rfl, []⟩

variable {env contract s₀}

def World.serve (w : World env contract s₀) (call : Recovery.Call) : World env contract s₀ :=
  { w with
    calls := w.calls ++ [call]
    server := next env w.server call
    served := by rw [w.served, Lib.Histories.run_concat] }

def World.mine (w : World env contract s₀) (tx : Tx IdentityStore.Call) : World env contract s₀ :=
  { w with
    mined := w.mined ++ [tx]
    store := Lib.Runs.commit (IdentityStore.step contract) w.store tx
    replayed := by rw [w.replayed, Lib.Runs.run_concat] }

def World.receive (w : World env contract s₀) (n : Nat) (succeeded : Bool) : World env contract s₀ :=
  { w with sent := w.sent.modify n fun sub => { sub with receipt := some succeeded } }

-- What others do: they call the server, send transactions of their own, or include one of the
-- deployer's, which succeeds as the store says, or as `succeeded` says where it is not the store's.
inductive Other
  | calls (call : Recovery.Call)
  | transacts (tx : Tx IdentityStore.Call)
  | includes (n : Nat) (timestamp : Uint256) (succeeded : Bool)

-- A transaction of the deployer is included.
def World.confirm (w : World env contract s₀) (n : Nat) (sub : Submission) (timestamp : Uint256)
    (succeeded : Bool) : World env contract s₀ :=
  match sub.call with
  | none => w.receive n succeeded
  | some call =>
    let tx : Tx IdentityStore.Call := ⟨cfg.guardian, timestamp, call⟩
    (w.mine tx).receive n (Lib.Runs.Succeeds (IdentityStore.step contract) w.store tx)

def World.apply (w : World env contract s₀) : Other → World env contract s₀
  | .calls call => w.serve call
  | .transacts tx => w.mine tx
  | .includes n timestamp succeeded =>
    match w.sent[n]?.filter fun sub => sub.receipt = none with
    | none => w
    | some sub => w.confirm cfg n sub timestamp succeeded

end World

-- What the deployer sees in a turn beside the server and the store: the clock of the server, the
-- latest block, the code and the balance at an address, what a wallet answers, the accounts that are
-- not deployed, and what the node says of a call that reverts.
structure Info where
  now : Time
  timestamp : Uint256
  deployed : Bool
  balance : Nat
  walletStore : Option String
  pendingOwner : Option Nat
  undeployed : List WalletAccount
  hash : String
  refusal : Error → String

variable {env : Recovery.Env} {contract : IdentityStore.Env} {s₀ : IdentityStore.State}
  (script : Nat → Turn Other Info)

abbrev Work (env : Recovery.Env) (contract : IdentityStore.Env) (s₀ : IdentityStore.State)
    (α : Type) : Type :=
  Process (World env contract s₀) α

def failed (message : String) : String := "Error: " ++ message

/-! ## Requests to the server -/

-- A route of the server, which answers from what it leaves.
def ask {α : Type} (call : Recovery.Call) (answer : RecoveryServer → Option α) :
    StateM (World env contract s₀) (Option α) := fun w =>
  let after := w.serve call
  match (Recovery.step env w.server call).1 with
  | .ok () => (answer after.server, after)
  | .error _ => (none, after)

def request {α : Type} (call : Info → Recovery.Call) (answer : RecoveryServer → Option α) :
    Work env contract s₀ (Option α) := do
  let reply ← interact (World.apply cfg) script fun turn => ask (call turn.info) answer
  return reply.join

def read {α : Type} (f : Turn Other Info → World env contract s₀ → α) :
    Work env contract s₀ (Option α) :=
  interact (World.apply cfg) script fun turn w => (f turn w, w)

-- `ORDER BY created_at ASC LIMIT 100`
def listWalletRecoveryJobs (db : RecoveryDb) (status : JobStatus) (chainId : String) : List Job :=
  ((db.jobs.rows.filter fun job => job.status = status ∧ job.chainId = chainId).insertionSort
    fun a b => a.createdAt ≤ b.createdAt).take 100

def fetchRecoveryJobs (status : JobStatus) : Work env contract s₀ (List Job) := do
  orThrow "Recovery jobs list failed" (← read cfg script fun _ w =>
    listWalletRecoveryJobs w.server.db status cfg.chain.chainId)

def checksumAddress (address : String) : Work env contract s₀ String :=
  orThrow "invalid address" (env.getAddress address)

-- An answer that is an error reads as no account; a request that gets none throws.
def fetchWalletAccount (address : String) : Work env contract s₀ (Option WalletAccount) := do
  let address ← checksumAddress address
  return (← read cfg script fun _ w => getWalletAccount w.server.db address).join

def claimRecoveryJob (job : Job) : Work env contract s₀ Job := do
  orThrow "Recovery claim failed" (← request cfg script
    (fun info => .claimJob true ⟨job.id, cfg.workerId, job.version, env.leaseMs⟩ info.now)
    fun server => server.db.jobs.find? job.id)

def trackRecoveryJob (job : Job) (status : JobStatus) (txHash error : Option String) :
    Work env contract s₀ Unit := do
  orThrow "Recovery track failed" (← request cfg script
    (fun info => .trackJob true
      ⟨job.id, some status, txHash, error, some (some job.version), some cfg.workerId⟩ info.now)
    fun _ => some ())

def fetchUndeployedAccounts : Work env contract s₀ (List WalletAccount) := do
  orThrow "Undeployed list failed" (← read cfg script fun turn _ => turn.info.undeployed)

-- The route answers 404 for an account that is not there.
def markDeployed (address : String) : Work env contract s₀ Unit := do
  orThrow "Mark deployed failed" (← request cfg script
    (fun info => .elsewhere ⟨.markWalletDeployed address cfg.chain.chainId, info.now, info.now⟩)
    fun server => (getWalletAccount server.db address).map fun _ => ())

/-! ## The chain -/

-- A call that returns, or throws what the node says.
def rpc {α : Type} (f : Turn Other Info → StateM (World env contract s₀) (Except String α)) :
    Work env contract s₀ α := do
  match ← interact (World.apply cfg) script f with
  | some (.ok a) => return a
  | some (.error message) => throw (.thrown message)
  | none => throw (.thrown "could not coalesce error")

def view {α : Type} (f : Turn Other Info → World env contract s₀ → α) : Work env contract s₀ α :=
  rpc cfg script fun turn w => (.ok (f turn w), w)

-- The node estimates the call before it is sent, and the store's may revert then.
def estimate (w : World env contract s₀) (timestamp : Uint256) :
    Option IdentityStore.Call → Except Error Unit
  | none => .ok ()
  | some call =>
    (IdentityStore.step contract w.store ⟨cfg.guardian, timestamp, call⟩).map fun _ => ()

def sendTo (job : Job) (call : Option IdentityStore.Call) (turn : Turn Other Info) :
    StateM (World env contract s₀) (Except String Nat) := fun w =>
  match estimate cfg w turn.info.timestamp call with
  | .error e => (.error (turn.info.refusal e), w)
  | .ok () => (.ok w.sent.length, { w with sent := w.sent ++ [⟨job.id, call, none⟩] })

def send (job : Job) (call : Option IdentityStore.Call) : Work env contract s₀ Nat :=
  rpc cfg script (sendTo cfg job call)

-- `tx.wait()`: the hash, if the transaction has been mined by then and has succeeded.
def wait (n : Nat) : Work env contract s₀ String :=
  rpc cfg script fun turn w =>
    (if w.sent[n]?.bind Submission.receipt = some true then .ok turn.info.hash
      else .error turn.message, w)

-- A call that the contract at the address does not have.
def reverting : Work env contract s₀ Unit := rpc cfg script fun turn w => (.error turn.message, w)

def chainNow : Work env contract s₀ Nat := view cfg script fun turn _ => turn.info.timestamp.toNat

def encoded {α : Type} (value : Option α) : Work env contract s₀ α :=
  orThrow "invalid BytesLike value" value

def present (value : Option String) : Option String := value.filter (· ≠ "")

def createAccount (job : Job) (address : String) : Work env contract s₀ Unit := do
  let n ← send cfg script job none
  let _ ← wait cfg script n
  markDeployed cfg script address

/-! ## Initiate -/

-- `/NotRecoveryOperator|awaiting_operator/i`
def namesOperator (message : String) : Bool :=
  let text := (lowerCase message).toList
  ["notrecoveryoperator", "awaiting_operator"].any fun part =>
    text.tails.any fun tail => part.toList.isPrefixOf tail

def ensureIdentityWalletDeployed (job : Job) (account : WalletAccount) :
    Work env contract s₀ Unit := do
  if ← view cfg script fun turn _ => turn.info.deployed then return
  else
    let balance ← view cfg script fun turn _ => turn.info.balance
    if balance < cfg.chain.minBalance then return
    else createAccount cfg script job account.address

def restoreFields (job : Job) : Option MethodFields := do
  let x ← job.newQx.bind bytes32
  let y ← job.newQy.bind bytes32
  return ⟨METHOD_WEBAUTHN, x, y, 0⟩

def awaitOperator (job : Job) : Work env contract s₀ Unit :=
  trackRecoveryJob cfg script job .pending none (some "awaiting_operator")

def startRestore (job : Job) (identityId : String) : Work env contract s₀ Unit := do
  let i ← encoded (bytes32 identityId)
  let f ← encoded (restoreFields job)
  let n ← send cfg script job (some (.initiateRestore i f))
  let hash ← wait cfg script n
  let delay ← view cfg script fun _ w => w.store.restoreDelay
  if delay = 0 then
    let n ← send cfg script job (some (.executeRestore i))
    let _ ← wait cfg script n
  trackRecoveryJob cfg script job .included (some hash) none

def initiateRestore (job : Job) (identityId : String) : Work env contract s₀ Unit := do
  let operator ← view cfg script fun _ w => w.store.recoveryOperator
  if operator ≠ cfg.guardian then awaitOperator cfg script job
  else startRestore cfg script job identityId

-- An account without an identity is recovered by the guardian's contract, which the store is not:
-- its calls revert.
def initiateOwnerRecovery (job : Job) : Work env contract s₀ Unit :=
  if cfg.chain.recoveryAddr = none then
    throw (.thrown "recoveryAddress not configured on deployer chain")
  else do
    if ← view cfg script fun turn _ => turn.info.deployed then reverting cfg script
    else
      let accounts ← fetchUndeployedAccounts cfg script
      match accounts.find? fun a => lowerCase a.address = lowerCase job.walletAddress with
      | none => trackRecoveryJob cfg script job .pending none (some "wallet_not_deployed_yet")
      | some undeployed =>
        let balance ← view cfg script fun turn _ => turn.info.balance
        if balance < cfg.chain.minBalance then
          trackRecoveryJob cfg script job .pending none (some "wallet_unfunded")
        else if (present undeployed.identityId).isNone then
          throw (.thrown "wallet account missing identityId")
        else
          createAccount cfg script job undeployed.address
          reverting cfg script

def initiateForIdentity (job : Job) (account : WalletAccount) (identityId : String) :
    Work env contract s₀ Unit := do
  ensureIdentityWalletDeployed cfg script job account
  if cfg.chain.recoveryAddr = none then
    throw (.thrown "recoveryAddress / IdentityStore not configured on deployer chain")
  else
    caught (initiateRestore cfg script job identityId) fun message =>
      if namesOperator message then awaitOperator cfg script job
      else throw (.thrown message)

def runInitiate (job : Job) : Work env contract s₀ Unit :=
  if (present job.newQx).isNone ∨ (present job.newQy).isNone then
    throw (.thrown "initiate job missing new owner coords")
  else do
    match ← fetchWalletAccount cfg script job.walletAddress with
    | none => initiateOwnerRecovery cfg script job
    | some account =>
      match present account.identityId with
      | none => initiateOwnerRecovery cfg script job
      | some identityId => initiateForIdentity cfg script job account identityId

/-! ## Cancel -/

def ZERO_ADDRESS : String := IdentityRoutes.ZERO_ADDRESS

-- The store that the wallet names, if it answers.
def identityStoreAddress (job : Job) : Work env contract s₀ (Option String) :=
  caught (do
    let _ ← checksumAddress job.walletAddress
    let store ← view cfg script fun turn _ => turn.info.walletStore
    match store.filter fun store => store ≠ "" ∧ store ≠ ZERO_ADDRESS with
    | none => return none
    | some store => some <$> checksumAddress store) fun _ => return none

-- A call of the store at the address, or of another contract.
def callAt (address : String) (call : IdentityStore.Call) : Option IdentityStore.Call :=
  if cfg.chain.recoveryAddr.map lowerCase = some (lowerCase address) then some call else none

def reportIncluded (job : Job) (n : Nat) : Work env contract s₀ Unit := do
  let hash ← wait cfg script n
  trackRecoveryJob cfg script job .included (some hash) none

def runCancel (job : Job) : Work env contract s₀ Unit := do
  let signature ← orThrow "cancel job missing signature" (present job.cancelSignature)
  match ((← fetchWalletAccount cfg script job.walletAddress).bind fun account =>
      present account.identityId) with
  | some identityId =>
    let named ← identityStoreAddress cfg script job
    let address ← orThrow "IdentityStore not configured for cancel"
      (named.or cfg.chain.recoveryAddr)
    let i ← encoded (bytes32 identityId)
    let authorization ← encoded (getBytes signature.toList)
    let n ← send cfg script job (callAt cfg address (.cancelRestore i authorization))
    reportIncluded cfg script job n
  | none =>
    let _ ← checksumAddress job.walletAddress
    let n ← send cfg script job none
    reportIncluded cfg script job n

/-! ## Execute -/

def runExecute (job : Job) : Work env contract s₀ Unit := do
  let account ← fetchWalletAccount cfg script job.walletAddress
  if cfg.chain.recoveryAddr = none then throw (.thrown "recoveryAddress not configured")
  else
    match account.bind fun account => present account.identityId with
    | some identityId =>
      let i ← encoded (bytes32 identityId)
      let pending ← view cfg script fun _ w => w.store.pendingRestores i
      if !pending.active then
        trackRecoveryJob cfg script job .rejected none (some "no_pending_restore")
      else
        let now ← chainNow cfg script
        if now < pending.executeAfter.toNat then
          trackRecoveryJob cfg script job .pending none (some "timelock_not_elapsed")
        else
          let n ← send cfg script job (some (.executeRestore i))
          reportIncluded cfg script job n
    | none =>
      let _ ← checksumAddress job.walletAddress
      match ← view cfg script fun turn _ => turn.info.pendingOwner with
      | none => trackRecoveryJob cfg script job .rejected none (some "no_pending_owner")
      | some executableAt =>
        let now ← chainNow cfg script
        if now < executableAt then
          trackRecoveryJob cfg script job .pending none (some "timelock_not_elapsed")
        else reverting cfg script

-- A restore that is ready is executed without a job of its own.
def queueExecute (job : Job) : Work env contract s₀ Unit := do
  match (← fetchWalletAccount cfg script job.walletAddress).bind fun account =>
      (present account.identityId).filter fun _ =>
        cfg.chain.recoveryAddr.any fun address => isUnsetSecret address = false with
  | some identityId =>
    let i ← encoded (bytes32 identityId)
    let pending ← view cfg script fun _ w => w.store.pendingRestores i
    if pending.active then
      let now ← chainNow cfg script
      if pending.executeAfter.toNat ≤ now then
        let n ← send cfg script job (some (.executeRestore i))
        let _ ← wait cfg script n
  | none =>
    let _ ← checksumAddress job.walletAddress
    let _ ← view cfg script fun turn _ => turn.info.pendingOwner
    -- what follows reverts, or is skipped
    return

def maybeQueueExecutes : Work env contract s₀ Unit := do
  let included ← fetchRecoveryJobs cfg script .included
  (included.filter fun job => job.kind = .initiate).foldlM
    (fun _ job => caught (queueExecute cfg script job) fun _ => return ()) ()

/-! ## A tick -/

def rank : JobKind → Nat
  | .cancel => 0
  | .initiate => 1
  | .execute => 2

def runJob (cancelWallets : List String) (job : Job) : Work env contract s₀ Unit :=
  match job.kind with
  | .initiate => runInitiate cfg script job
  | .cancel => runCancel cfg script job
  | .execute =>
    if lowerCase job.walletAddress ∈ cancelWallets then
      trackRecoveryJob cfg script job .rejected none (some "cancelled")
    else runExecute cfg script job

-- A job that cannot be claimed is passed over, and one that fails is reported.
def processJob (cancelWallets : List String) (job : Job) : Work env contract s₀ Unit := do
  if job.chainId = cfg.chain.chainId then
    match ← caught (some <$> claimRecoveryJob cfg script job) fun _ => return none with
    | none => return
    | some claimed =>
      caught (runJob cfg script cancelWallets claimed) fun message =>
        trackRecoveryJob cfg script claimed .failed none (some (failed message))

def processRecoveryJobs : Work env contract s₀ Unit := do
  let listed ← fetchRecoveryJobs cfg script .pending
  let jobs := listed.insertionSort fun a b => rank a.kind ≤ rank b.kind
  let cancelWallets := (jobs.filter fun job => job.kind = .cancel).map fun job =>
    lowerCase job.walletAddress
  if jobs ≠ [] ∧ cfg.chain.recoveryAddr.all fun address => isUnsetSecret address = false then
    jobs.foldlM (fun _ job => processJob cfg script cancelWallets job) ()
    maybeQueueExecutes cfg script

-- What the tick does about recovery; a failure is only noted.
def tick : Work env contract s₀ Unit := caught (processRecoveryJobs cfg script) fun _ => return ()

-- A deployer that has stopped is started again.
def ticks : Nat → Waiting (World env contract s₀)
  | 0 => ⟨World.start env contract s₀, 0⟩
  | n + 1 => (exec (tick cfg script) (ticks n)).2

end OnchainInvoice.WalletDeployer
