import OnchainInvoice.Evm.Create2
import OnchainInvoice.Lib.Revert
import OnchainInvoice.Lib.Tokens

/-!
# `CommerceForwarder` and `CommerceInvoiceSweeper`

The sweeper, the forwarders it deploys, and everybody else's transfers.  In the ledger the zero
address stands for ETH, as it does in a sweep.  Recipients take what they are sent and do nothing
with it.
-/

namespace OnchainInvoice.CommerceInvoiceSweeper

open Evm Lib.Tokens

-- The deployment.  `accepts` are the accounts that take plain ETH, `isToken` the ERC-20 contracts.
structure Env where
  crypto : Crypto
  sweeper : Address
  forwarderImplementation : Address
  isToken : Address → Bool
  accepts : Address → Bool

-- `code` holds at the forwarders that have been deployed.
structure State where
  ledger : Ledger Address Address
  code : Address → Bool
  feeRecipient : Address
  feeBps : Uint16
  minFeeByToken : Address → Uint256
  owner : Address

inductive Error
  | invalidTo | invalidAmount | invalidFeeRecipient | feeBpsTooHigh | feeExceedsAmount
  | onlySweeper | zeroAmount | insufficientBalance | ethTransferFailed
  | ownableUnauthorizedAccount | ownableInvalidOwner
  | panic | transferFailed | noCode
deriving DecidableEq

structure SweepCall where
  token : Address
  amount : Uint256
  to_ : Address
  invoiceId : Bytes32
deriving DecidableEq

end OnchainInvoice.CommerceInvoiceSweeper

namespace OnchainInvoice.CommerceForwarder

open Evm CommerceInvoiceSweeper Lib.Revert Lib.Tokens

variable (env : Env) (s : State) (this sender : Address)

-- A call to an account that is no ERC-20 contract reverts.
def erc20 (token : Address) : Except Error Unit :=
  revertIf (token == 0 || !env.isToken token) .noCode

def sweepEth (to_ : Address) (amount : Uint256) : Except Error (Uint256 × State) := do
  revertIf (!s.code this) .noCode
  revertIf (sender != env.sweeper) .onlySweeper
  revertIf (amount == 0) .zeroAmount
  revertIf (decide (s.ledger.balanceOf 0 this < amount.toNat)) .insufficientBalance
  revertIf (!env.accepts to_) .ethTransferFailed
  let ledger ← orRevert .ethTransferFailed (transfer s.ledger ⟨0, this, to_, amount.toNat⟩)
  return (amount, { s with ledger := ledger })

def sweepToken (token to_ : Address) (amount : Uint256) : Except Error (Uint256 × State) := do
  revertIf (!s.code this) .noCode
  revertIf (sender != env.sweeper) .onlySweeper
  revertIf (amount == 0) .zeroAmount
  erc20 env token
  revertIf (decide (s.ledger.balanceOf token this < amount.toNat)) .insufficientBalance
  let ledger ← orRevert .transferFailed (transfer s.ledger ⟨token, this, to_, amount.toNat⟩)
  return (amount, { s with ledger := ledger })

end OnchainInvoice.CommerceForwarder

namespace OnchainInvoice.CommerceInvoiceSweeper

open Evm Lib.Revert Lib.Tokens Function

variable (env : Env) (s : State)

def MAX_FEE_BPS : Uint16 := 1000

def BPS_DENOMINATOR : Uint16 := 10000

-- The constructor, on a chain that is already there.
def deploy (ledger : Ledger Address Address) (code : Address → Bool) (feeRecipient : Address)
    (feeBps : Uint16) (initialOwner : Address) : Except Error State := do
  revertIf (initialOwner == 0) .ownableInvalidOwner
  revertIf (feeRecipient == 0) .invalidFeeRecipient
  revertIf (decide (MAX_FEE_BPS < feeBps)) .feeBpsTooHigh
  return ⟨ledger, code, feeRecipient, feeBps, fun _ => 0, initialOwner⟩

def invoiceSalt (to_ : Address) (invoiceId : Bytes32) : Bytes32 :=
  env.crypto.keccak256 (addressBytes to_ ++ wordBytes invoiceId)

def getInvoiceAddress (to_ : Address) (invoiceId : Bytes32) : Address :=
  cloneAddress env.crypto env.forwarderImplementation (invoiceSalt env to_ invoiceId) env.sweeper

def createInvoice (to_ : Address) (invoiceId : Bytes32) : Except Error (Address × State) := do
  revertIf (to_ == 0) .invalidTo
  let forwarder := getInvoiceAddress env to_ invoiceId
  return (forwarder,
    if s.code forwarder then s else { s with code := update s.code forwarder true })

def quoteFee (token : Address) (amount : Uint256) : Except Error Uint256 := do
  let product ← checkedMul .panic amount (s.feeBps.setWidth 256)
  let fee := product / BPS_DENOMINATOR.setWidth 256
  let minFee := s.minFeeByToken token
  let fee := if fee < minFee then minFee else fee
  return if amount < fee then amount else fee

-- One leg of a sweep, which is left out when it is zero.
def pay (forwarder token to_ : Address) (amount : Uint256) : Except Error State :=
  if amount = 0 then return s
  else if token = 0 then do
    let (_, s) ← CommerceForwarder.sweepEth env s forwarder env.sweeper to_ amount
    return s
  else do
    let (_, s) ← CommerceForwarder.sweepToken env s forwarder env.sweeper token to_ amount
    return s

def sweep (token : Address) (amount : Uint256) (to_ : Address) (invoiceId : Bytes32) :
    Except Error (Address × Uint256 × State) := do
  revertIf (to_ == 0) .invalidTo
  revertIf (amount == 0) .invalidAmount
  let fee ← quoteFee s token amount
  revertIf (decide (amount < fee)) .feeExceedsAmount
  let (forwarder, s) ← createInvoice env s to_ invoiceId
  let toMerchant ← checkedSub .panic amount fee
  let s ← pay env s forwarder token s.feeRecipient fee
  let s ← pay env s forwarder token to_ toMerchant
  return (forwarder, fee, s)

def bulkSweep (calls : List SweepCall) : Except Error (List Uint256 × State) :=
  calls.foldlM (fun (fees, s) call => do
    let (_, fee, s) ← sweep env s call.token call.amount call.to_ call.invoiceId
    return (fees ++ [fee], s)) ([], s)

def onlyOwner (sender : Address) : Except Error Unit :=
  revertIf (sender != s.owner) .ownableUnauthorizedAccount

def setFeeRecipient (sender feeRecipient : Address) : Except Error State := do
  onlyOwner s sender
  revertIf (feeRecipient == 0) .invalidFeeRecipient
  return { s with feeRecipient := feeRecipient }

def setFeeBps (sender : Address) (feeBps : Uint16) : Except Error State := do
  onlyOwner s sender
  revertIf (decide (MAX_FEE_BPS < feeBps)) .feeBpsTooHigh
  return { s with feeBps := feeBps }

def setMinFee (sender token : Address) (minFee : Uint256) : Except Error State := do
  onlyOwner s sender
  return { s with minFeeByToken := update s.minFeeByToken token minFee }

def transferOwnership (sender newOwner : Address) : Except Error State := do
  onlyOwner s sender
  revertIf (newOwner == 0) .ownableInvalidOwner
  return { s with owner := newOwner }

def renounceOwnership (sender : Address) : Except Error State := do
  onlyOwner s sender
  return { s with owner := 0 }

/-! ## Transactions -/

inductive Call
  | createInvoice (to_ : Address) (invoiceId : Bytes32)
  | sweep (token : Address) (amount : Uint256) (to_ : Address) (invoiceId : Bytes32)
  | bulkSweep (calls : List SweepCall)
  | setFeeRecipient (feeRecipient : Address)
  | setFeeBps (feeBps : Uint16)
  | setMinFee (token : Address) (minFee : Uint256)
  | transferOwnership (newOwner : Address)
  | renounceOwnership
  | forwarderSweepEth (forwarder to_ : Address) (amount : Uint256)
  | forwarderSweepToken (forwarder token to_ : Address) (amount : Uint256)
  | send (dst : Address) (value : Nat)
  | transfer (token dst : Address) (amount : Nat)
  | approve (token spender : Address) (amount : Nat)
  | transferFrom (token src dst : Address) (amount : Nat)
deriving DecidableEq

-- Plain transfers, of ETH and of tokens.
def send (sender dst : Address) (value : Nat) : Except Error State := do
  revertIf (!env.accepts dst) .transferFailed
  let ledger ← orRevert .transferFailed (Lib.Tokens.transfer s.ledger ⟨0, sender, dst, value⟩)
  return { s with ledger := ledger }

def transfer (sender token dst : Address) (amount : Nat) : Except Error State := do
  CommerceForwarder.erc20 env token
  let ledger ← orRevert .transferFailed
    (Lib.Tokens.transfer s.ledger ⟨token, sender, dst, amount⟩)
  return { s with ledger := ledger }

def approve (sender token spender : Address) (amount : Nat) : Except Error State := do
  CommerceForwarder.erc20 env token
  return { s with ledger := Lib.Tokens.approve s.ledger token sender spender amount }

def transferFrom (sender token src dst : Address) (amount : Nat) : Except Error State := do
  CommerceForwarder.erc20 env token
  let ledger ← orRevert .transferFailed
    (Lib.Tokens.transferFrom (2 ^ 256 - 1) s.ledger sender ⟨token, src, dst, amount⟩)
  return { s with ledger := ledger }

def step (tx : Tx Call) : Except Error State :=
  match tx.call with
  | .createInvoice to_ invoiceId => do
    let (_, s) ← createInvoice env s to_ invoiceId
    return s
  | .sweep token amount to_ invoiceId => do
    let (_, _, s) ← sweep env s token amount to_ invoiceId
    return s
  | .bulkSweep calls => do
    let (_, s) ← bulkSweep env s calls
    return s
  | .setFeeRecipient feeRecipient => setFeeRecipient s tx.sender feeRecipient
  | .setFeeBps feeBps => setFeeBps s tx.sender feeBps
  | .setMinFee token minFee => setMinFee s tx.sender token minFee
  | .transferOwnership newOwner => transferOwnership s tx.sender newOwner
  | .renounceOwnership => renounceOwnership s tx.sender
  | .forwarderSweepEth forwarder to_ amount => do
    let (_, s) ← CommerceForwarder.sweepEth env s forwarder tx.sender to_ amount
    return s
  | .forwarderSweepToken forwarder token to_ amount => do
    let (_, s) ← CommerceForwarder.sweepToken env s forwarder tx.sender token to_ amount
    return s
  | .send dst value => send env s tx.sender dst value
  | .transfer token dst amount => transfer env s tx.sender token dst amount
  | .approve token spender amount => approve env s tx.sender token spender amount
  | .transferFrom token src dst amount => transferFrom env s tx.sender token src dst amount

end OnchainInvoice.CommerceInvoiceSweeper
