import OnchainInvoice.Lib.Paging
import OnchainInvoice.Transfers.WalletTransfers

/-!
# Reading transfers from an explorer

`syncWalletTransfersFromExplorer` and `touchSync` of `wallet-transfer-sync.ts` for one wallet on one
chain, with `getWalletTransferSync` and `upsertWalletTransferSync` of `db.ts`.
-/

namespace OnchainInvoice.Transfers

open Server

/-! ## The explorer -/

def PAGE_SIZE : Nat := 100

def PAGES_PER_TICK : Nat := 3

-- The query of `explorerUrl`: token transfers, in ascending order.
structure ExplorerQuery where
  chainid : String
  address : String
  startblock : Nat
  endblock : Nat
  page : Nat
  offset : Nat
  apikey : String

def explorerUrl (chainId wallet : String) (startBlock page : Nat) (apiKey : String) :
    ExplorerQuery :=
  ⟨chainId, wallet, startBlock, 99999999, page, PAGE_SIZE, apiKey⟩

inductive ExplorerResult
  | rows (rows : List ExplorerTokentx)
  | text (text : String)
  | other

structure ExplorerBody where
  status : Option String
  message : Option String
  result : ExplorerResult

-- `body` is `none` where `json()` rejects.
structure ExplorerResponse where
  status : Nat
  body : Option ExplorerBody

-- `none` where the request rejects.
abbrev ExplorerHttp := ExplorerQuery → Option ExplorerResponse

def ExplorerResult.resultText : ExplorerResult → String
  | .text said => said
  | _ => ""

def ExplorerBody.rows (body : ExplorerBody) : List ExplorerTokentx :=
  match body.result with
  | .rows rows => rows
  | _ => []

-- `body.status === "0" && /rate limit/i.test(...)`
def ExplorerBody.rateLimited (body : ExplorerBody) : Bool :=
  body.status = some "0" &&
    (lowerCase (body.message.getD "" ++ " " ++ body.result.resultText)).toList.tails.any
      fun rest => "rate limit".toList.isPrefixOf rest

/-! ## The database -/

structure WalletTransferSyncCursor where
  lastBlock : Nat
  lastLogIndex : Nat
  lastFetchedAt : Nat

-- `ingested` lists the rows that went through the loop, with no column of its own.
structure SyncDb where
  transfers : WalletTransfers
  cursor : Option WalletTransferSyncCursor
  ingested : List ExplorerTokentx

def SyncDb.lastBlock (db : SyncDb) : Nat := (db.cursor.map (·.lastBlock)).getD 0

def SyncDb.lastLogIndex (db : SyncDb) : Nat := (db.cursor.map (·.lastLogIndex)).getD 0

def upsertWalletTransferSync (db : SyncDb) (lastBlock lastLogIndex now : Nat) : SyncDb :=
  { db with cursor := some ⟨lastBlock, lastLogIndex, now⟩ }

/-! ## One call -/

variable (ethers : Ethers) (etherscanApiKey : Option String) (context : ExplorerContext)

-- What the loops carry along.
structure Reading where
  db : SyncDb
  lastBlock : Nat
  lastLog : Nat
  advanced : Bool

inductive Outcome
  | done | limited | failed
deriving DecidableEq

-- Where a call ends early.
structure Stop where
  outcome : Outcome
  db : SyncDb

def readCursor (reading : Reading) (row : ExplorerTokentx) : Reading :=
  if reading.lastBlock < row.block ∨ row.block = reading.lastBlock ∧ reading.lastLog < row.log then
    { reading with lastBlock := row.block, lastLog := row.log, advanced := true }
  else
    reading

def readRow (reading : Reading) (row : ExplorerTokentx) : Except Stop Reading :=
  let ingested := reading.db.ingested ++ [row]
  match draftFromExplorer ethers context row with
  | none => .ok (readCursor { reading with db := { reading.db with ingested } } row)
  | some draft =>
    match upsertWalletTransfer reading.db.transfers draft with
    | none => .error ⟨.failed, reading.db⟩
    | some transfers =>
      .ok (readCursor { reading with
        db := { reading.db with transfers, ingested }
        advanced := true } row)

def readRows (reading : Reading) (rows : List ExplorerTokentx) : Except Stop Reading :=
  rows.foldlM (readRow ethers context) reading

variable (http : ExplorerHttp)

-- A page and whether it is the last one.
def readPage (apiKey : String) (startBlock page : Nat) (reading : Reading) :
    Except Stop (Reading × Bool) :=
  match http (explorerUrl context.chainId context.wallet startBlock page apiKey) with
  | none => .error ⟨.failed, reading.db⟩
  | some res =>
    if res.status = 429 then .error ⟨.limited, reading.db⟩
    else match res.body with
    | none => .error ⟨.failed, reading.db⟩
    | some body =>
      if 400 ≤ res.status ∨ body.rateLimited = true then .error ⟨.limited, reading.db⟩
      else do
        let reading ← readRows ethers context reading body.rows
        return (reading, body.rows.length < PAGE_SIZE)

def readPages (apiKey : String) (startBlock : Nat) :
    Nat → Nat → Reading → Except Stop Reading
  | 0, _, reading => .ok reading
  | left + 1, page, reading => do
    let (reading, last) ← readPage ethers context http apiKey startBlock page reading
    if last then return reading else readPages apiKey startBlock left (page + 1) reading

def touchSync (db : SyncDb) (cursor : Option WalletTransferSyncCursor) (now : Nat) : SyncDb :=
  upsertWalletTransferSync db ((cursor.map (·.lastBlock)).getD 0)
    ((cursor.map (·.lastLogIndex)).getD 0) now

def syncWalletTransfersFromExplorer (db : SyncDb) : SyncDb × Outcome :=
  let now := context.now
  match etherscanApiKey with
  | none => (db, .done)
  | some apiKey =>
    if apiKey = "" then (db, .done)
    else if context.stables.isEmpty then (touchSync db db.cursor now, .done)
    else
      match readPages ethers context http apiKey db.lastBlock PAGES_PER_TICK 1
        ⟨db, db.lastBlock, db.lastLogIndex, false⟩ with
      | .ok reading =>
        (if reading.advanced then
            upsertWalletTransferSync reading.db reading.lastBlock reading.lastLog now
          else upsertWalletTransferSync reading.db db.lastBlock db.lastLogIndex now, .done)
      | .error stop =>
        if stop.outcome = .limited then (touchSync stop.db db.cursor now, .limited)
        else (stop.db, .failed)

end OnchainInvoice.Transfers
