import OnchainInvoice.Server.Routes

/-!
# The ledger of token transfers

`upsertWalletTransfer` of `db.ts` with the three sources of its drafts: the calls of an included user
operation, an executed proposal (`wallet-transfers.ts`) and the rows of an explorer
(`wallet-transfer-sync.ts`).
-/

namespace OnchainInvoice.Transfers

open Server

/-! ## Drafts -/

inductive Direction
  | incoming | outgoing
deriving DecidableEq

inductive TransferSource
  | userop | proposal | explorer
deriving DecidableEq

structure TransferDraft where
  walletAddress : String
  chainId : String
  direction : Direction
  tokenAddress : String
  tokenSymbol : String
  tokenDecimals : Nat
  amount : String
  counterparty : String
  txHash : String
  logIndex : Nat
  blockNumber : Nat
  source : TransferSource
  userOpHash : Option String
  proposalId : Option String
  createdAt : Nat
deriving DecidableEq

structure WalletStableToken where
  symbol : String
  address : String
  decimals : Nat

structure BatchCall where
  target : String
  value : Nat
  data : String

structure Erc20Transfer where
  recipient : String
  amount : Nat

-- What is left to ethers: checksums and the decoding of call data.
structure Ethers where
  getAddress : String → Option String
  decodeExecuteCalls : String → List BatchCall
  decodeErc20TransferCall : String → Option Erc20Transfer

variable (ethers : Ethers)

-- `new Map(...)`: of two tokens at one address the later one counts.
def tokenMap (stables : List WalletStableToken) (address : String) : Option WalletStableToken :=
  stables.reverse.find? fun token => lowerCase token.address = address

-- An empty text is as good as none.
def isBundlerFeeTransfer (tokenAddress recipient : String)
    (feeTokenAddress bundlerBeneficiary : Option String) : Bool :=
  match feeTokenAddress, bundlerBeneficiary with
  | some fee, some beneficiary =>
    fee ≠ "" && beneficiary ≠ "" && lowerCase tokenAddress = lowerCase fee &&
      lowerCase recipient = lowerCase beneficiary
  | _, _ => false

/-! ## Operations and proposals -/

-- What the drafts of one transaction share.
structure Executed where
  walletAddress : String
  chainId : String
  txHash : String
  stables : List WalletStableToken
  feeTokenAddress : Option String
  bundlerBeneficiary : Option String
  now : Nat

variable (executed : Executed)

def draftOut (token : WalletStableToken) (xfer : Erc20Transfer) (logIndex : Nat)
    (source : TransferSource) (userOpHash proposalId : Option String) : Option TransferDraft := do
  let walletAddress ← ethers.getAddress executed.walletAddress
  let tokenAddress ← ethers.getAddress token.address
  let counterparty ← ethers.getAddress xfer.recipient
  return {
    walletAddress := lowerCase walletAddress
    chainId := executed.chainId
    direction := .outgoing
    tokenAddress := lowerCase tokenAddress
    tokenSymbol := token.symbol
    tokenDecimals := token.decimals
    amount := toString xfer.amount
    counterparty := lowerCase counterparty
    txHash := lowerCase executed.txHash
    logIndex, source, proposalId
    blockNumber := 0
    userOpHash := userOpHash.map lowerCase
    createdAt := executed.now }

-- The transfer that a call makes, if it is one to record.
def outgoingTransfer (target data : String) : Option (WalletStableToken × Erc20Transfer) := do
  let token ← tokenMap executed.stables (lowerCase target)
  let xfer ← ethers.decodeErc20TransferCall data
  if isBundlerFeeTransfer target xfer.recipient executed.feeTokenAddress executed.bundlerBeneficiary then
    none
  else
    return (token, xfer)

-- The loop over the calls; `logIndex` counts the drafts.
def draftsOfCalls (userOpHash : String) (logIndex : Nat) :
    List BatchCall → Option (List TransferDraft)
  | [] => some []
  | call :: calls =>
    match outgoingTransfer ethers executed call.target call.data with
    | none => draftsOfCalls userOpHash logIndex calls
    | some (token, xfer) => do
      let draft ← draftOut ethers executed token xfer logIndex .userop (some userOpHash) none
      let drafts ← draftsOfCalls userOpHash (logIndex + 1) calls
      return draft :: drafts

def outgoingTransfersFromUserOp (userOpHash callData : String) : Option (List TransferDraft) :=
  draftsOfCalls ethers executed userOpHash 0 (ethers.decodeExecuteCalls callData)

def outgoingTransferFromProposal (proposalId target data : String) :
    Option (Option TransferDraft) :=
  match outgoingTransfer ethers executed target data with
  | none => some none
  | some (token, xfer) =>
    (draftOut ethers executed token xfer 0 .proposal none (some proposalId)).map some

/-! ## Explorer rows -/

-- The numbers are texts in the explorer's answer.
structure ExplorerTokentx where
  blockNumber : Option Nat
  timeStamp : Option Nat
  hash : Option String
  sender : Option String
  recipient : Option String
  contractAddress : Option String
  value : Option String
  logIndex : Option Nat
deriving DecidableEq

def ExplorerTokentx.block (row : ExplorerTokentx) : Nat := row.blockNumber.getD 0

def ExplorerTokentx.log (row : ExplorerTokentx) : Nat := row.logIndex.getD 0

def ExplorerTokentx.token (row : ExplorerTokentx) : String := lowerCase (row.contractAddress.getD "")

-- `wallet`, `feeToken` and `beneficiary` are in lower case.
structure ExplorerContext where
  wallet : String
  chainId : String
  stables : List WalletStableToken
  feeToken : Option String
  beneficiary : Option String
  now : Nat

-- `beneficiary && feeToken && to === beneficiary && tokenAddr === feeToken`
def ExplorerContext.isFee (ctx : ExplorerContext) (recipient token : String) : Bool :=
  match ctx.feeToken, ctx.beneficiary with
  | some fee, some beneficiary =>
    fee ≠ "" && beneficiary ≠ "" && recipient = beneficiary && token = fee
  | _, _ => false

def draftFromExplorer (ctx : ExplorerContext) (row : ExplorerTokentx) : Option TransferDraft := do
  let hash := lowerCase (row.hash.getD "")
  let sender := lowerCase (row.sender.getD "")
  let recipient := lowerCase (row.recipient.getD "")
  guard (startsWith hash "0x" && startsWith row.token "0x")
  let token ← tokenMap ctx.stables row.token
  guard (recipient = ctx.wallet || sender = ctx.wallet)
  guard (!(sender = ctx.wallet && ctx.isFee recipient row.token))
  let tokenAddress ← ethers.getAddress row.token
  let counterparty ← ethers.getAddress (if recipient = ctx.wallet then sender else recipient)
  return {
    walletAddress := ctx.wallet
    chainId := ctx.chainId
    direction := if recipient = ctx.wallet then .incoming else .outgoing
    tokenAddress := lowerCase tokenAddress
    tokenSymbol := token.symbol
    tokenDecimals := token.decimals
    amount := row.value.getD "0"
    counterparty := lowerCase counterparty
    txHash := hash
    logIndex := row.log
    blockNumber := row.block
    source := .explorer
    userOpHash := none
    proposalId := none
    createdAt := if 0 < row.timeStamp.getD 0 then row.timeStamp.getD 0 * 1000 else ctx.now }

/-! ## The table -/

-- `wallet_transfers`, less the ids: a row's id is fresh, so the row found is the row updated.
abbrev WalletTransfers := List TransferDraft

def TransferDraft.lower (draft : TransferDraft) : TransferDraft :=
  { draft with
    walletAddress := lowerCase draft.walletAddress
    txHash := lowerCase draft.txHash
    tokenAddress := lowerCase draft.tokenAddress
    counterparty := lowerCase draft.counterparty }

-- The columns of the first query of `upsertWalletTransfer`.
structure SemanticKey where
  chainId : String
  txHash : String
  tokenAddress : String
  amount : String
  direction : Direction
  counterparty : String
deriving DecidableEq

def TransferDraft.semantic (row : TransferDraft) : SemanticKey :=
  ⟨row.chainId, row.txHash, row.tokenAddress, row.amount, row.direction, row.counterparty⟩

-- The columns of the second one, and of the unique index.
structure LogKey where
  chainId : String
  txHash : String
  logIndex : Nat
deriving DecidableEq

def TransferDraft.logKey (row : TransferDraft) : LogKey := ⟨row.chainId, row.txHash, row.logIndex⟩

def TransferDraft.managed (row : TransferDraft) : Bool :=
  row.source = .userop || row.source = .proposal

def TransferDraft.merge (input row : TransferDraft) : TransferDraft :=
  { row with
    logIndex := if row.logIndex < input.logIndex then input.logIndex else row.logIndex
    blockNumber := if row.blockNumber < input.blockNumber then input.blockNumber else row.blockNumber
    source := if row.managed then row.source else input.source
    userOpHash := row.userOpHash.or input.userOpHash
    proposalId := row.proposalId.or input.proposalId }

def updateFirst (found : TransferDraft → Bool) (update : TransferDraft → TransferDraft) :
    WalletTransfers → Option WalletTransfers
  | [] => none
  | row :: rows =>
    if found row then some (update row :: rows) else (updateFirst found update rows).map (row :: ·)

-- `none` where the update breaks the unique index.
def upsertWalletTransfer (rows : WalletTransfers) (draft : TransferDraft) :
    Option WalletTransfers :=
  let input := draft.lower
  let updated := (updateFirst (fun row => row.semantic = input.semantic) input.merge rows).or
    (updateFirst (fun row => row.logKey = input.logKey) input.merge rows)
  match updated with
  | some updated => if (updated.map TransferDraft.logKey).Nodup then some updated else none
  | none => some (rows ++ [input])

end OnchainInvoice.Transfers
