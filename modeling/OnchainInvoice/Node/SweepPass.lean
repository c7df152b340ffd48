import Mathlib.Data.List.Induction
import Mathlib.Logic.Function.Basic
import OnchainInvoice.Node.SweepCache

/-!
# The sweep passes of the node

`runOnce` of `sweep-node.ts` with everything that it calls, as a pass that is suspended at each await.
The timer starts a pass whether or not earlier ones are over, so any number of passes may be under
way, and every answer may be an error.
-/

namespace OnchainInvoice.SweepPass

open Lib.Tables

/-! ## Configuration -/

inductive Path
  | evm | tron | tronEoa
deriving DecidableEq

structure TronToken where
  symbol : String
  address : Option String
  isNative : Bool
deriving DecidableEq

structure Chain where
  id : String
  path : Path
  sweeperAddress : Option String
  sweepBatchSize : Option Nat
  batchSweepMaxInvoices : Option Nat
  tokens : List TronToken
deriving DecidableEq

structure Config where
  chains : List Chain
  reconcileReceiverLimitPerChain : Option Nat
  -- `BigInt` of a text
  bigInt : String → Option Int

def Chain.limit (chain : Chain) : Nat := chain.sweepBatchSize.getD 100

def Chain.max (chain : Chain) : Nat :=
  (chain.batchSweepMaxInvoices.or chain.sweepBatchSize).getD 50

/-! ## Reports -/

inductive ReportedStatus
  | confirmed | pending | failed
deriving DecidableEq

structure TxReport where
  chainId : String
  txHash : String
  blockNumber : Option Nat
  gasUsed : Option Nat
  status : ReportedStatus

structure TrackBody where
  status : String
  tx : Option TxReport
  forwarder : Option String
  paymentToken : Option String
  paymentAmount : Option String
  sweeperAddress : Option String
  sourcePayment : Option TxReport

-- What the receiver's `invoicePayment` answers.
structure Payment where
  token : String
  amount : Nat
  forwarder : String
  paid : Bool

structure Receipt where
  hash : String
  blockNumber : Nat
  gasUsed : Nat
  status : Nat

structure Sent where
  hash : String
  receipt : Option Receipt

def Sent.txHash (sent : Sent) : String := (sent.receipt.map Receipt.hash).getD sent.hash

def sourcePayment (chain : Chain) (paid : PaidInvoice) : TxReport :=
  ⟨chain.id, paid.txHash, paid.blockNumber, none, .confirmed⟩

/-! ## Stages of a pass -/

-- `TronSweepJobItem`
structure Item where
  invoice : Invoice
  token : String
  balance : Nat

inductive Reconcile
  | next
  | asked (invoice : Invoice)
  | status (invoice : Invoice) (payment : Payment)
  | track (invoice : Invoice) (body : TrackBody)

inductive Scan
  | next
  | address (paid : PaidInvoice) (data : String)

-- `trySweepEvm` and `trySweepTron`
inductive Try
  | asked
  | paidStatus (paid : Option PaidInvoice)
  | paidTrack (body : TrackBody)
  | balance
  | sweep
  | wait (hash : String)
  | status (sent : Sent) (paid : Option PaidInvoice)
  | track (sent : Sent) (body : TrackBody)
  | returned (attempt : SweepAttempt)

inductive Sweep
  | next
  | trying (invoice : Invoice) (point : Try)

-- `checkAndSweepTronEoa` with `planTronSweepBatch`
inductive Eoa
  | planning (invoices unread : List Invoice) (items : List Item)
  | deciding (invoices : List Invoice) (items : List Item)
  | executing (items : List Item)
  | status (item : Item) (hash : String) (amount : Nat) (items : List Item)
  | track (item : Item) (hash : String) (body : TrackBody) (items : List Item)

inductive Stage
  | ready
  | listing
  | reconciling (chain : Chain) (rest : List Invoice) (point : Reconcile)
  | scanning (chain : Chain) (point : Scan)
  | sweeping (chain : Chain) (rest : List Invoice) (point : Sweep)
  | eoa (chain : Chain) (point : Eoa)

inductive Task
  | sync
  | reconcile (chain : Chain)
  | scan (chain : Chain)
  | sweep (chain : Chain)
deriving DecidableEq

structure Pass where
  tasks : List Task
  stage : Stage

-- What an await comes to.
inductive Answer
  -- nothing but the await of one of the node's own functions
  | go
  -- the invoices, each with the time that passes before it is stored
  | page (invoices : List (Invoice × Nat)) (more : Bool)
  | payment (payment : Payment)
  | status (status : String)
  -- whether the API has accepted a track, and whether its answer arrives
  | posted (accepted answered : Bool)
  | log (paid : PaidInvoice) (data : String)
  | address (invoiceAddress : String)
  | balance (balance : Nat)
  | sent (hash : String) (amount : Nat)
  -- a transaction goes out but the call fails
  | lost (hash message : String)
  | receipt (receipt : Receipt)
  -- what the planner decides from the energy and the dollar value of the items
  | plan (sweeps : Bool)
  | throws (message : String)

-- What a pass does to the cache and to the world.
inductive Write
  | upsertInvoice (invoice : Invoice) (elapsed : Nat)
  | upsertPaidInvoice (paid : PaidInvoice)
  | recordSweepAttempt (attempt : SweepAttempt)
  | markInvoiceChecked (key : Key)
  | track (key : Key) (body : TrackBody) (accepted : Bool)
  | send (hash : String) (key : Key)
  -- an invoice is looked at
  | examine (key : Key)

-- What an answer makes of a stage; the pass is over without a stage.
abbrev Resumed := Option (List Write × Option Stage)

/-! ## The pass -/

variable (config : Config) (cache : Cache) (chain : Chain)

def syncInvoices : Answer → Resumed
  | .page invoices more =>
    some (invoices.map fun listed => .upsertInvoice listed.1 listed.2,
      some (if more then .listing else .ready))
  | .throws _ => some ([], none)
  | _ => none

def reconciledPlaceholderTx : String := "0x" ++ String.ofList (List.replicate 64 '0')

-- The addresses of the answer are taken as normalized.
def reconcileReceiverPaymentState (rest : List Invoice) : Reconcile → Answer → Resumed
  | .next, .go =>
    match rest with
    | [] => some ([], some .ready)
    | invoice :: rest =>
      some ([], some (.reconciling chain rest
        (if hasSuccessfulSweep cache invoice.key then .next else .asked invoice)))
  | .asked invoice, .payment payment =>
    if payment.paid then
      some (if isPaid cache invoice.key then [] else
          [.upsertPaidInvoice ⟨chain.id, invoice.invoiceId, payment.token, toString payment.amount,
            payment.forwarder, reconciledPlaceholderTx, 0, none, none⟩],
        some (.reconciling chain rest (.status invoice payment)))
    else some ([], some (.reconciling chain rest .next))
  | .status invoice payment, .status status =>
    some ([], some (.reconciling chain rest (.track invoice
      ⟨status, none, payment.forwarder, payment.token, toString payment.amount, chain.sweeperAddress,
        none⟩)))
  | .track invoice body, .posted accepted answered =>
    some (.track invoice.key body accepted ::
        if accepted && answered then [.recordSweepAttempt ⟨invoice.key, .swept, none, none⟩] else [],
      some (.reconciling chain rest .next))
  | .asked _, .throws _ | .status .., .throws _ => some ([], some (.reconciling chain rest .next))
  | _, _ => none

def scanPaidLogs : Scan → Answer → Resumed
  | .next, .go => some ([], some .ready)
  | .next, .log paid data =>
    let paid := { paid with chainId := chain.id }
    some ([.upsertPaidInvoice paid], some (.scanning chain
      (if chain.path = .evm ∧ (getInvoice cache paid.key).isNone then .address paid data else .next)))
  | .address paid data, .address invoiceAddress =>
    some ([.upsertInvoice ⟨chain.id, paid.invoiceId, invoiceAddress, data, some paid.token,
      some paid.amount, none⟩ 0], some (.scanning chain .next))
  | .address .., .throws _ => some ([], some (.scanning chain .next))
  | .next, .throws _ => some ([], none)
  | _, _ => none

-- `BigInt((invoice.amount ?? invoice.minAmount ?? 1).toString())`
def minAmount (invoice : Invoice) : Except String Int :=
  match invoice.amount.or invoice.minAmount with
  | some text =>
    match config.bigInt text with
    | some amount => .ok amount
    | none => .error ("Cannot convert " ++ text ++ " to a BigInt")
  | none => .ok 1

def failed (invoice : Invoice) (message : String) : SweepAttempt :=
  ⟨invoice.key, .failed, none, some message⟩

-- Where `trySweepEvm` and `trySweepTron` differ: what they report and whether they wait for the
-- receipt.
structure Manner where
  skipped : Option PaidInvoice → String → TrackBody
  swept : Sent → Option PaidInvoice → String → TrackBody
  waits : Bool

def evmManner : Manner where
  skipped paid status :=
    ⟨status, none, paid.map PaidInvoice.forwarder, paid.map PaidInvoice.token,
      paid.map PaidInvoice.amount, chain.sweeperAddress, paid.map (sourcePayment chain)⟩
  swept sent paid status :=
    ⟨status, some ⟨chain.id, sent.txHash, sent.receipt.map Receipt.blockNumber,
        sent.receipt.map Receipt.gasUsed,
        if sent.receipt.any (·.status = 1) then .confirmed else .failed⟩,
      paid.map PaidInvoice.forwarder, paid.map PaidInvoice.token, paid.map PaidInvoice.amount,
      chain.sweeperAddress, paid.map (sourcePayment chain)⟩
  waits := true

def tronManner : Manner where
  skipped _ status := ⟨status, none, none, none, none, chain.sweeperAddress, none⟩
  swept sent _ status :=
    ⟨status, some ⟨chain.id, sent.txHash, none, none, .pending⟩, none, none, none, none, none⟩
  waits := false

-- The first attempt at the receiver falls through to the sweep whatever goes wrong in it.
def trySweep (manner : Manner) (invoice : Invoice) : Try → Answer → Option (List Write × Try)
  | .asked, .payment payment =>
    some ([], if payment.paid then .paidStatus (getPaidInvoice cache invoice.key) else .balance)
  | .paidStatus paid, .status status => some ([], .paidTrack (manner.skipped paid status))
  | .asked, .throws _ | .paidStatus _, .throws _ => some ([], .balance)
  | .paidTrack body, .posted accepted _ =>
    some ([.track invoice.key body accepted], .returned ⟨invoice.key, .swept, none, none⟩)
  | .balance, .balance balance =>
    some ([],
      match minAmount config invoice with
      | .error message => .returned (failed invoice message)
      | .ok minAmount =>
        if balance < minAmount then
          .returned ⟨invoice.key, .skipped, none,
            some ("balance " ++ toString balance ++ " below " ++ toString minAmount)⟩
        else .sweep)
  | .sweep, .sent hash _ =>
    some ([.send hash invoice.key],
      if manner.waits then .wait hash
      else .status ⟨hash, none⟩ (getPaidInvoice cache invoice.key))
  | .sweep, .lost hash message =>
    some ([.send hash invoice.key], .returned (failed invoice message))
  | .wait hash, .receipt receipt =>
    some ([], .status ⟨hash, some receipt⟩ (getPaidInvoice cache invoice.key))
  | .status sent paid, .status status => some ([], .track sent (manner.swept sent paid status))
  | .track sent body, .posted accepted _ =>
    some ([.track invoice.key body accepted],
      .returned ⟨invoice.key, .swept, some sent.txHash, none⟩)
  | .balance, .throws message | .sweep, .throws message | .wait _, .throws message
  | .status .., .throws message => some ([], .returned (failed invoice message))
  | _, _ => none

def trySweepEvm := trySweep config cache (evmManner chain)

def trySweepTron := trySweep config cache (tronManner chain)

def checkAndSweep (rest : List Invoice) : Sweep → Answer → Resumed
  | .next, .go =>
    match rest with
    | [] => some ([], some .ready)
    | invoice :: rest =>
      some ([.examine invoice.key], some (.sweeping chain rest (.trying invoice .asked)))
  | .trying invoice (.returned attempt), .go =>
    some ([.recordSweepAttempt attempt, .markInvoiceChecked invoice.key],
      some (.sweeping chain rest .next))
  | .trying invoice point, answer =>
    (if chain.path = .evm then trySweepEvm config cache chain invoice point answer
      else trySweepTron config cache chain invoice point answer).map fun tried =>
        (tried.1, some (.sweeping chain rest (.trying invoice tried.2)))
  | _, _ => none

def markChecked (invoices : List Invoice) : List Write :=
  (invoices.take chain.max).map fun invoice => .markInvoiceChecked invoice.key

def tronNativeToken : String := "T9yD14Nj9j7xAB4dbGeiX9h8unkKHxuWwb"

def normalizePlannerToken (token : Option String) : String :=
  let token := token.getD ""
  if token = "" ∨ token = "native" then tronNativeToken
  else if token.toList.head? = some 'T' then token
  else
    match chain.tokens.find? (·.symbol = token) with
    | some hit =>
      if hit.isNative then tronNativeToken
      else if hit.address.any (· ≠ "") then hit.address.getD "" else token
    | none => token

-- An error ends the pass.
def planTronSweepBatch (invoices unread : List Invoice) (items : List Item) : Answer → Resumed
  | .go =>
    if unread = [] ∨ chain.max ≤ items.length then
      if items.isEmpty then some (markChecked chain invoices, some .ready)
      else some ([], some (.eoa chain (.deciding invoices items)))
    else none
  | .balance balance =>
    match unread with
    | [] => none
    | invoice :: unread =>
      if chain.max ≤ items.length then none
      else
        match minAmount config invoice with
        | .error _ => some ([], none)
        | .ok minAmount =>
          let item : Item := ⟨invoice, normalizePlannerToken chain invoice.token, balance⟩
          some ([.examine invoice.key], some (.eoa chain (.planning invoices unread
            (if balance < minAmount then items else items ++ [item]))))
  | .throws _ => some ([], none)
  | _ => none

def executionFails (item : Item) (message : String) : List Write :=
  [.recordSweepAttempt (failed item.invoice message), .markInvoiceChecked item.invoice.key]

def checkAndSweepTronEoa : Eoa → Answer → Resumed
  | .planning invoices unread items, answer =>
    planTronSweepBatch config chain invoices unread items answer
  | .deciding invoices _, .plan false => some (markChecked chain invoices, some .ready)
  | .deciding _ items, .plan true => some ([], some (.eoa chain (.executing items)))
  | .deciding .., .throws _ => some ([], none)
  | .executing [], .go => some ([], some .ready)
  | .executing (item :: items), .sent hash amount =>
    some ([.send hash item.invoice.key, .upsertPaidInvoice
        ⟨chain.id, item.invoice.invoiceId, item.token, toString amount,
          item.invoice.invoiceAddress, hash, 0, none, none⟩],
      some (.eoa chain (.status item hash amount items)))
  | .executing (item :: items), .lost hash message =>
    some (.send hash item.invoice.key :: executionFails item message,
      some (.eoa chain (.executing items)))
  | .status item hash amount items, .status status =>
    some ([], some (.eoa chain (.track item hash
      ⟨status, some ⟨chain.id, hash, none, none, .confirmed⟩, item.invoice.invoiceAddress,
        item.token, toString amount, none,
        some ⟨chain.id, hash, none, none, .confirmed⟩⟩ items)))
  | .track item hash body items, .posted accepted _ =>
    some ([.track item.invoice.key body accepted,
        .recordSweepAttempt ⟨item.invoice.key, .swept, some hash, none⟩,
        .markInvoiceChecked item.invoice.key],
      some (.eoa chain (.executing items)))
  | .executing (item :: items), .throws message | .status item _ _ items, .throws message =>
    some (executionFails item message, some (.eoa chain (.executing items)))
  | _, _ => none

def Task.start : Task → Stage
  | .sync => .listing
  | .reconcile chain =>
    if chain.path = .evm then
      .reconciling chain (listInvoicesByChain cache chain.id
        (config.reconcileReceiverLimitPerChain.getD 500)) .next
    else .ready
  | .scan chain => if chain.path = .tronEoa then .ready else .scanning chain .next
  | .sweep chain =>
    if chain.path = .tronEoa then
      let invoices := listAwaitingSweepInvoices cache chain.id (chain.max * 2)
      .eoa chain (.planning invoices invoices [])
    else .sweeping chain (listAwaitingSweepInvoices cache chain.id chain.limit) .next

def runOnce : List Task :=
  .sync :: (config.chains.map .reconcile ++ config.chains.flatMap fun chain =>
    [.scan chain, .sweep chain])

-- A stage between two tasks awaits nothing.
def Stage.resume : Stage → Answer → Resumed
  | .ready, _ => none
  | .listing, answer => syncInvoices answer
  | .reconciling chain rest point, answer =>
    reconcileReceiverPaymentState cache chain rest point answer
  | .scanning chain point, answer => scanPaidLogs cache chain point answer
  | .sweeping chain rest point, answer => checkAndSweep config cache chain rest point answer
  | .eoa chain point, answer => checkAndSweepTronEoa config chain point answer

-- A pass is over when it has no more tasks, or by an error.
def Pass.resume (pass : Pass) (answer : Answer) : Option (List Write × Option Pass) :=
  match pass.stage, answer, pass.tasks with
  | .ready, .go, [] => some ([], none)
  | .ready, .go, task :: tasks => some ([], some ⟨tasks, task.start config cache⟩)
  | stage, answer, tasks =>
    (stage.resume config cache answer).map fun resumed =>
      (resumed.1, resumed.2.map fun stage => ⟨tasks, stage⟩)

end OnchainInvoice.SweepPass
