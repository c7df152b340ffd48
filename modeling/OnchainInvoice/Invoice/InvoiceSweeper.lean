import OnchainInvoice.Evm.Create2
import OnchainInvoice.Lib.Revert
import OnchainInvoice.Lib.Tokens

/-!
# `Receiver`, `Forwarder` and `InvoiceSweeper`

One receiver, the sweeper that deploys the forwarders of its invoices, and everybody else's
transfers.  Amounts are natural numbers: they are balances, and the supply of a token fits in a
`uint256`.

Callers choose the tokens.  A plain ERC-20 moves what it is asked to and calls nobody; any other
contract answers as it likes, from one call to the next.  What such a contract does to these ones
when it is called is a transaction of its own, before the one that called it or after: where a token
is called, nothing is half done that a transaction could tell from nothing done.
-/

namespace OnchainInvoice.Invoice

open Evm Lib.Tokens

-- `NATIVE_TOKEN` stands for ETH in the ledger as it does in a payment record.
def NATIVE_TOKEN : Address := 0

-- `type(uint256).max`
def MAX_UINT256 : Nat := 2 ^ 256 - 1

structure InvoicePayment where
  token : Address
  amount : Nat
  forwarder : Address
  paid : Bool
deriving DecidableEq

def InvoicePayment.zero : InvoicePayment := ⟨0, 0, 0, false⟩

-- The deployment.  `executeInvoice` is the `_executeInvoice` of the receiver, which answers or
-- reverts; `accepts` are the accounts that take plain ETH, and `isToken` the plain ERC-20 contracts.
structure Env where
  crypto : Crypto
  receiver : Address
  sweeper : Address
  forwarderImplementation : Address
  isToken : Address → Bool
  accepts : Address → Bool
  executeInvoice : Bytes32 → Address → Nat → Bytes → Option Bytes

-- What a call to another token returns, if it does not revert.
abbrev Answer := Option Nat

-- `code` holds at the forwarders that have been deployed, `owner` is the receiver's.  `answers` are
-- those that other tokens are going to give in the transaction.
structure State where
  ledger : Ledger Address Address
  code : Address → Bool
  invoicePayments : Bytes32 → InvoicePayment
  owner : Address
  answers : List Answer

inductive Error
  | invalidInvoiceData | invoiceAlreadyPaid | noPayment | noBalance
  | ownableUnauthorizedAccount | ownableInvalidOwner
  | executionReverted | transferFailed | noCode | panic
deriving DecidableEq

end OnchainInvoice.Invoice

namespace OnchainInvoice.Receiver

open Evm Invoice Lib.Revert Lib.Tokens Function

variable (env : Env) (s : State)

def isErc20 (token : Address) : Bool := token != NATIVE_TOKEN && env.isToken token

-- A plain transfer of another token changes nothing here.
def erc20 (token : Address) : Except Error Unit := revertIf (!isErc20 env token) .noCode

-- There is no contract at the native token's address.
def ask (token : Address) : Except Error (Nat × State) := do
  revertIf (token == NATIVE_TOKEN) .noCode
  match s.answers with
  | some answer :: answers => return (answer, { s with answers := answers })
  | _ => throw .executionReverted

def balanceOf (token account : Address) : Except Error (Nat × State) :=
  if isErc20 env token then return (s.ledger.balanceOf token account, s) else ask s token

-- The receiver itself is the spender.
def safeTransferFrom (token src : Address) (amount : Nat) : Except Error State :=
  if isErc20 env token then do
    let ledger ← orRevert .transferFailed
      (transferFrom MAX_UINT256 s.ledger env.receiver ⟨token, src, env.receiver, amount⟩)
    return { s with ledger := ledger }
  else do
    let (_, s) ← ask s token
    return s

def verifyInvoiceData (invoiceId : Bytes32) (data : Bytes) : Except Error Unit :=
  revertIf (env.crypto.keccak256 data != invoiceId) .invalidInvoiceData

def assignPayment (invoiceId : Bytes32) (token forwarder : Address) (amount : Nat) :
    Except Error State := do
  revertIf (s.invoicePayments invoiceId).paid .invoiceAlreadyPaid
  return { s with
    invoicePayments := update s.invoicePayments invoiceId ⟨token, amount, forwarder, true⟩ }

def handleInvoice (invoiceId : Bytes32) (token forwarder : Address) (amount : Nat) (data : Bytes) :
    Except Error State := do
  verifyInvoiceData env invoiceId data
  let s ← assignPayment s invoiceId token forwarder amount
  let _result ← orRevert .executionReverted (env.executeInvoice invoiceId token amount data)
  return s

-- The value moves before the body runs.
def receiveEthInvoice (sender : Address) (value : Nat) (invoiceId : Bytes32) (data : Bytes) :
    Except Error State := do
  let ledger ← orRevert .transferFailed
    (transfer s.ledger ⟨NATIVE_TOKEN, sender, env.receiver, value⟩)
  let s := { s with ledger := ledger }
  revertIf (value == 0) .noPayment
  handleInvoice env s invoiceId NATIVE_TOKEN sender value data

def receiveTokenInvoice (sender token : Address) (invoiceId : Bytes32) (amount : Nat)
    (data : Bytes) : Except Error State := do
  revertIf (amount == 0) .noPayment
  let (before, s) ← balanceOf env s token env.receiver
  let s ← safeTransferFrom env s token sender amount
  let (held, s) ← balanceOf env s token env.receiver
  revertIf (held < before) .panic
  let received := held - before
  revertIf (received == 0) .noPayment
  handleInvoice env s invoiceId token sender received data

-- The owner may run the hook of an invoice at any time; it records nothing.
def executeInvoice (sender : Address) (invoiceId : Bytes32) (token : Address) (amount : Nat)
    (data : Bytes) : Except Error State := do
  revertIf (sender != s.owner) .ownableUnauthorizedAccount
  verifyInvoiceData env invoiceId data
  let _result ← orRevert .executionReverted (env.executeInvoice invoiceId token amount data)
  return s

def transferOwnership (sender newOwner : Address) : Except Error State := do
  revertIf (sender != s.owner) .ownableUnauthorizedAccount
  revertIf (newOwner == 0) .ownableInvalidOwner
  return { s with owner := newOwner }

def renounceOwnership (sender : Address) : Except Error State := do
  revertIf (sender != s.owner) .ownableUnauthorizedAccount
  return { s with owner := 0 }

end OnchainInvoice.Receiver

namespace OnchainInvoice.Forwarder

open Evm Invoice Receiver Lib.Revert Lib.Tokens

variable (env : Env) (s : State) (this : Address)

-- Nothing answers at an address without a forwarder.
def sweepEth (invoiceId : Bytes32) (data : Bytes) : Except Error (Nat × State) := do
  revertIf (!s.code this) .noCode
  let amount := s.ledger.balanceOf NATIVE_TOKEN this
  revertIf (amount == 0) .noBalance
  let s ← receiveEthInvoice env s this amount invoiceId data
  return (amount, s)

-- Where an approval fails, the allowance is set to zero first.
def forceApprove (token spender : Address) (amount : Nat) : Except Error State :=
  if isErc20 env token then
    return { s with ledger := approve s.ledger token this spender amount }
  else
    match s.answers with
    | some _ :: answers => return { s with answers := answers }
    | none :: some _ :: some _ :: answers => return { s with answers := answers }
    | _ => throw .executionReverted

def sweepToken (token : Address) (invoiceId : Bytes32) (data : Bytes) :
    Except Error (Nat × State) := do
  revertIf (!s.code this) .noCode
  let (amount, s) ← balanceOf env s token this
  revertIf (amount == 0) .noBalance
  let s ← forceApprove env s this token env.receiver amount
  let s ← receiveTokenInvoice env s this token invoiceId amount data
  let s ← forceApprove env s this token env.receiver 0
  return (amount, s)

end OnchainInvoice.Forwarder

namespace OnchainInvoice.InvoiceSweeper

open Evm Invoice Lib.Revert Function

variable (env : Env) (s : State)

structure SweepCall where
  invoiceId : Bytes32
  token : Address
  data : Bytes
deriving DecidableEq

def invoiceSalt (invoiceId : Bytes32) : Bytes32 := env.crypto.keccak256 (wordBytes invoiceId)

def getInvoiceAddress (invoiceId : Bytes32) : Address :=
  cloneAddress env.crypto env.forwarderImplementation (invoiceSalt env invoiceId) env.sweeper

def createInvoice (invoiceId : Bytes32) : Address × State :=
  let forwarder := getInvoiceAddress env invoiceId
  (forwarder, if s.code forwarder then s else { s with code := update s.code forwarder true })

def sweepEth (invoiceId : Bytes32) (data : Bytes) : Except Error (Address × Nat × State) := do
  let (forwarder, s) := createInvoice env s invoiceId
  let (amount, s) ← Forwarder.sweepEth env s forwarder invoiceId data
  return (forwarder, amount, s)

def sweepToken (invoiceId : Bytes32) (token : Address) (data : Bytes) :
    Except Error (Address × Nat × State) := do
  let (forwarder, s) := createInvoice env s invoiceId
  let (amount, s) ← Forwarder.sweepToken env s forwarder token invoiceId data
  return (forwarder, amount, s)

def execute (s : State) (call : SweepCall) : Except Error (Address × Nat × State) :=
  if call.token = 0 then sweepEth env s call.invoiceId call.data
  else sweepToken env s call.invoiceId call.token call.data

def bulkExecute (calls : List SweepCall) : Except Error (List Nat × State) :=
  calls.foldlM (fun (amounts, s) call => do
    let (_, amount, s) ← execute env s call
    return (amounts ++ [amount], s)) ([], s)

end OnchainInvoice.InvoiceSweeper

namespace OnchainInvoice.Invoice

open Evm Lib.Revert

/-! ## Transactions -/

-- With the answers that the tokens give which are no plain ERC-20.
inductive Call
  | createInvoice (invoiceId : Bytes32)
  | sweepEth (invoiceId : Bytes32) (data : Bytes)
  | sweepToken (invoiceId : Bytes32) (token : Address) (data : Bytes) (answers : List Answer)
  | bulkExecute (calls : List InvoiceSweeper.SweepCall) (answers : List Answer)
  | forwarderSweepEth (forwarder : Address) (invoiceId : Bytes32) (data : Bytes)
  | forwarderSweepToken (forwarder token : Address) (invoiceId : Bytes32) (data : Bytes)
    (answers : List Answer)
  | receiveEthInvoice (value : Nat) (invoiceId : Bytes32) (data : Bytes)
  | receiveTokenInvoice (token : Address) (invoiceId : Bytes32) (amount : Nat) (data : Bytes)
    (answers : List Answer)
  | executeInvoice (invoiceId : Bytes32) (token : Address) (amount : Nat) (data : Bytes)
  | transferOwnership (newOwner : Address)
  | renounceOwnership
  | send (dst : Address) (value : Nat)
  | transfer (token dst : Address) (amount : Nat)
  | approve (token spender : Address) (amount : Nat)
  | transferFrom (token src dst : Address) (amount : Nat)
deriving DecidableEq

variable (env : Env) (s : State)

-- Plain transfers, of ETH and of tokens.
def send (sender dst : Address) (value : Nat) : Except Error State := do
  revertIf (!env.accepts dst) .transferFailed
  let ledger ← orRevert .transferFailed
    (Lib.Tokens.transfer s.ledger ⟨NATIVE_TOKEN, sender, dst, value⟩)
  return { s with ledger := ledger }

def transfer (sender token dst : Address) (amount : Nat) : Except Error State := do
  Receiver.erc20 env token
  let ledger ← orRevert .transferFailed
    (Lib.Tokens.transfer s.ledger ⟨token, sender, dst, amount⟩)
  return { s with ledger := ledger }

def approve (sender token spender : Address) (amount : Nat) : Except Error State := do
  Receiver.erc20 env token
  return { s with ledger := Lib.Tokens.approve s.ledger token sender spender amount }

def transferFrom (sender token src dst : Address) (amount : Nat) : Except Error State := do
  Receiver.erc20 env token
  let ledger ← orRevert .transferFailed
    (Lib.Tokens.transferFrom MAX_UINT256 s.ledger sender ⟨token, src, dst, amount⟩)
  return { s with ledger := ledger }

def Call.answers : Call → List Answer
  | .sweepToken _ _ _ answers => answers
  | .bulkExecute _ answers => answers
  | .forwarderSweepToken _ _ _ _ answers => answers
  | .receiveTokenInvoice _ _ _ _ answers => answers
  | _ => []

def step (tx : Tx Call) : Except Error State :=
  let s := { s with answers := tx.call.answers }
  match tx.call with
  | .createInvoice invoiceId => .ok (InvoiceSweeper.createInvoice env s invoiceId).2
  | .sweepEth invoiceId data => do
    let (_, _, s) ← InvoiceSweeper.sweepEth env s invoiceId data
    return s
  | .sweepToken invoiceId token data _ => do
    let (_, _, s) ← InvoiceSweeper.sweepToken env s invoiceId token data
    return s
  | .bulkExecute calls _ => do
    let (_, s) ← InvoiceSweeper.bulkExecute env s calls
    return s
  | .forwarderSweepEth forwarder invoiceId data => do
    let (_, s) ← Forwarder.sweepEth env s forwarder invoiceId data
    return s
  | .forwarderSweepToken forwarder token invoiceId data _ => do
    let (_, s) ← Forwarder.sweepToken env s forwarder token invoiceId data
    return s
  | .receiveEthInvoice value invoiceId data =>
    Receiver.receiveEthInvoice env s tx.sender value invoiceId data
  | .receiveTokenInvoice token invoiceId amount data _ =>
    Receiver.receiveTokenInvoice env s tx.sender token invoiceId amount data
  | .executeInvoice invoiceId token amount data =>
    Receiver.executeInvoice env s tx.sender invoiceId token amount data
  | .transferOwnership newOwner => Receiver.transferOwnership s tx.sender newOwner
  | .renounceOwnership => Receiver.renounceOwnership s tx.sender
  | .send dst value => send env s tx.sender dst value
  | .transfer token dst amount => transfer env s tx.sender token dst amount
  | .approve token spender amount => approve env s tx.sender token spender amount
  | .transferFrom token src dst amount => transferFrom env s tx.sender token src dst amount

end OnchainInvoice.Invoice
