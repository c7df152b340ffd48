import OnchainInvoice.Lib.Histories
import OnchainInvoice.Lib.Revert
import OnchainInvoice.Lib.Tables

/-!
# The sweep node's scan of the paid logs

`validateSweepNodeConfig` of `config.ts`, the progress of a chain in `cache.ts` and `scanEvmPaidLogs`
of `sweep-node.ts`.  A tick takes the chains of the configuration one after the other, and all share
one cache.  It does not wait for the tick before, so several scans of a chain may be under way at
once, each at a query of its own.
-/

namespace OnchainInvoice.Node

open Lib.Revert Lib.Tables

/-! ## Configuration -/

-- The numbers that may be left out are block counts; no check looks at them.
structure EvmChainConfig where
  id : Option String
  rpcUrl : Option String
  privateKey : Option String
  sweeperAddress : Option String
  receiverAddress : Option String
  startBlock : Option Int
  confirmations : Option Int
  logScanChunkSize : Option Int
  logScanOverlap : Option Int

inductive SweepMode
  | eoa | contract
deriving DecidableEq

structure TronChainConfig where
  id : Option String
  fullHost : Option String
  privateKey : Option String
  sweepMode : Option SweepMode
  invoiceMasterSecret : Option String
  sweeperAddress : Option String
  receiverAddress : Option String

inductive ChainConfig
  | evm (chain : EvmChainConfig)
  | tron (chain : TronChainConfig)
  | unsupported (id : Option String)

structure SweepNodeConfig where
  baseUrl : Option String
  nodeApiKey : Option String
  sqlitePath : Option String
  chains : List ChainConfig

-- A text that is there and not empty.
def given (value : Option String) : Bool := value.any (· ≠ "")

def required (value : Option String) (what : String) : Except String Unit :=
  revertIf (!given value) (what ++ " is required")

def validateChain (chain : ChainConfig) : Except String Unit :=
  match chain with
  | .evm chain => do
    required chain.id "chain.id"
    let id := chain.id.getD ""
    required chain.sweeperAddress (id ++ ": sweeperAddress")
    required chain.receiverAddress (id ++ ": receiverAddress")
    required chain.rpcUrl (id ++ ": rpcUrl")
    required chain.privateKey (id ++ ": privateKey")
  | .tron chain => do
    required chain.id "chain.id"
    let id := chain.id.getD ""
    required chain.fullHost (id ++ ": fullHost")
    required chain.privateKey (id ++ ": privateKey")
    if chain.sweepMode ≠ some .contract then
      revertIf (!given chain.invoiceMasterSecret)
        (id ++ ": invoiceMasterSecret is required for TRON EOA sweep")
    else
      revertIf (!given chain.sweeperAddress)
        (id ++ ": sweeperAddress is required for contract mode")
      revertIf (!given chain.receiverAddress)
        (id ++ ": receiverAddress is required for contract mode")
  | .unsupported id => do
    required id "chain.id"
    .error (id.getD "chain" ++ ": unsupported chain type")

def validateSweepNodeConfig (config : SweepNodeConfig) : Except String Unit := do
  required config.baseUrl "webServer.baseUrl"
  required config.nodeApiKey "webServer.nodeApiKey"
  required config.sqlitePath "cache.sqlitePath"
  revertIf config.chains.isEmpty "At least one chain is required"
  config.chains.forM validateChain

/-! ## Progress -/

structure ChainProgress where
  chainId : String
  lastScannedBlock : Option Int

abbrev Cache := Table ChainProgress String ChainProgress.chainId

def getLastScannedBlock (cache : Cache) (chainId : String) (fallback : Int) : Int :=
  ((cache.find? chainId).bind ChainProgress.lastScannedBlock).getD fallback

def setLastScannedBlock (cache : Cache) (chainId : String) (block : Int) : Cache :=
  cache.upsert ⟨chainId, some block⟩ (fun old => { old with lastScannedBlock := some block })
    fun _ => rfl

/-! ## Scans -/

variable (chain : EvmChainConfig)

def EvmChainConfig.key : String := chain.id.getD ""

def EvmChainConfig.start : Int := chain.startBlock.getD 0

def EvmChainConfig.chunk : Int := chain.logScanChunkSize.getD 2000

def EvmChainConfig.overlap : Int := chain.logScanOverlap.getD 100

-- A scan before its next query.
structure Scan where
  latest : Int
  fromBlock : Int

-- The loop's condition.
def Scan.going (scan : Scan) : Option Scan := if scan.fromBlock ≤ scan.latest then some scan else none

def Scan.toBlock (scan : Scan) : Int := min scan.latest (scan.fromBlock + chain.chunk - 1)

-- `head` is what `getBlockNumber` answers.
def startScan (cache : Cache) (head : Nat) : Option Scan :=
  let latest := max 0 (head - chain.confirmations.getD 3)
  let lastScanned := getLastScannedBlock cache chain.key chain.start
  Scan.going ⟨latest, max chain.start (lastScanned - chain.overlap + 1)⟩

-- What a query comes to: its logs, an error, or logs that one of the handlers fails on.
inductive Outcome
  | logs | queryFails | handlerFails
deriving DecidableEq

-- The rest of the loop's round; an error ends the scan.
def nextScan (scan : Scan) (outcome : Outcome) : Option Scan :=
  if outcome = .logs then Scan.going ⟨scan.latest, scan.toBlock chain + 1⟩ else none

structure Query where
  chain : EvmChainConfig
  fromBlock : Int
  toBlock : Int

-- What is left of a tick: it is at the first of the chains, and has no scan before it has heard the
-- number of the latest block.
structure Tick where
  chains : List EvmChainConfig
  scan : Option Scan

-- The node and the queries that succeeded.
structure SweepNode where
  cache : Cache
  ticks : List Tick
  queries : List Query

def SweepNode.new : SweepNode := ⟨.empty, [], []⟩

-- The scan of a chain goes on, or the tick does.
def goOn (chain : EvmChainConfig) (rest : List EvmChainConfig) (scan : Option Scan) : Tick :=
  match scan with
  | some scan => ⟨chain :: rest, some scan⟩
  | none => ⟨rest, none⟩

-- An error anywhere ends the tick.
def Tick.over : Tick := ⟨[], none⟩

inductive Event
  | tick
  -- a tick hears the number of the latest block
  | head (n : Nat) (head : Nat)
  -- the query of a tick comes back
  | answer (n : Nat) (outcome : Outcome)
  -- something else that a tick waits for fails
  | fails (n : Nat)
  -- the process ends, and with it its ticks
  | restart

-- The other chains keep no block.
def SweepNodeConfig.evmChains (config : SweepNodeConfig) : List EvmChainConfig :=
  config.chains.filterMap fun
    | .evm chain => some chain
    | _ => none

variable (chains : List EvmChainConfig)

def step (node : SweepNode) (event : Event) : SweepNode :=
  match event with
  | .tick => { node with ticks := node.ticks ++ [⟨chains, none⟩] }
  | .head n head =>
    match node.ticks[n]? with
    | some ⟨chain :: rest, none⟩ =>
      { node with ticks := node.ticks.set n (goOn chain rest (startScan chain node.cache head)) }
    | _ => node
  | .answer n outcome =>
    match node.ticks[n]? with
    | some ⟨chain :: rest, some scan⟩ =>
      { cache := if outcome = .logs then
          setLastScannedBlock node.cache chain.key (scan.toBlock chain) else node.cache
        ticks := node.ticks.set n
          (if outcome = .logs then goOn chain rest (nextScan chain scan outcome) else .over)
        queries := if outcome = .queryFails then node.queries
          else node.queries ++ [⟨chain, scan.fromBlock, scan.toBlock chain⟩] }
    | _ => node
  | .fails n => { node with ticks := node.ticks.set n .over }
  | .restart => { node with ticks := [] }

end OnchainInvoice.Node
