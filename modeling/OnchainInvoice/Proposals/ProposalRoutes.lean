import OnchainInvoice.Lib.Tables
import OnchainInvoice.Server.Routes

/-!
# Proposals of advanced wallets

The routes of `wallet-advanced-routes.ts` that create, prepare, sign and execute a proposal, with its
two tables in `db.ts`.  A handler waits for its body and for every answer of the node, and others run
meanwhile.
-/

namespace OnchainInvoice.Proposals

open Lib.Tables Server

/-! ## Records -/

inductive ProposalStatus
  | draft | signing | ready | executed | cancelled
deriving DecidableEq

structure WalletProposal where
  id : String
  walletAddress : String
  chainId : String
  target : String
  value : String
  data : String
  nonce : Option Nat
  status : ProposalStatus
  txHash : Option String
deriving DecidableEq

-- `answered` is no column: the preparation whose hash the signer had been given.
structure WalletProposalSig where
  proposalId : String
  entityId : String
  keyId : String
  keyType : Int
  signature : String
  createdAt : Nat
  answered : Option WalletProposal
deriving DecidableEq

def WalletProposalSig.key (sig : WalletProposalSig) : String × String := (sig.proposalId, sig.entityId)

structure ProposalDb where
  proposals : Table WalletProposal String WalletProposal.id
  sigs : Table WalletProposalSig (String × String) WalletProposalSig.key

def ProposalDb.empty : ProposalDb := ⟨.empty, .empty⟩

def createWalletProposal (db : ProposalDb) (id walletAddress chainId target value data : String) :
    ProposalDb :=
  { db with
    proposals := (db.proposals.insert ⟨id, lowerCase walletAddress, chainId, lowerCase target, value,
      data, none, .draft, none⟩).getD db.proposals }

def WalletProposal.preparable (proposal : WalletProposal) : Bool :=
  proposal.status = .draft || proposal.status = .signing || proposal.status = .ready ||
    proposal.status = .executed && proposal.txHash.isNone

def WalletProposal.prepare (proposal : WalletProposal) (nonce : Nat) : WalletProposal :=
  if proposal.preparable then { proposal with nonce := some nonce, status := .signing } else proposal

theorem WalletProposal.id_prepare (nonce : Nat) (proposal : WalletProposal) :
    (proposal.prepare nonce).id = proposal.id := by
  unfold WalletProposal.prepare
  split <;> rfl

-- The row is answered if the update changed one.
def prepareWalletProposal (db : ProposalDb) (id : String) (nonce : Nat) :
    ProposalDb × Option WalletProposal :=
  let proposals := db.proposals.modify id (·.prepare nonce) (WalletProposal.id_prepare nonce)
  ({ db with proposals }, ((db.proposals.find? id).filter (·.preparable)).map (·.prepare nonce))

def updateWalletProposalTxHash (db : ProposalDb) (id txHash : String) : ProposalDb :=
  { db with
    proposals := db.proposals.modify id
      (fun proposal => { proposal with txHash := some txHash, status := .executed }) fun _ => rfl }

def addWalletProposalSig (db : ProposalDb) (sig : WalletProposalSig) : ProposalDb :=
  { db with sigs := db.sigs.set sig }

-- `ORDER BY created_at ASC`
def listWalletProposalSigs (db : ProposalDb) (proposalId : String) : List WalletProposalSig :=
  (db.sigs.rows.filter fun sig => sig.proposalId = proposalId).insertionSort
    fun a b => a.createdAt ≤ b.createdAt

/-! ## Operations -/

structure BatchCall where
  target : String
  value : Int
  data : String

-- The fields beside are the same for every proposal.
structure UserOp where
  sender : String
  nonce : Nat
  callData : String
  signature : String
deriving DecidableEq

structure WalletChainEntry where
  chainId : String
  rpcUrl : Option String
  feeTokenAddress : Option String

-- `fallback` is the wallet's own chain, for a chain that is not in the list.
structure AppConfig where
  chains : List WalletChainEntry
  fallback : WalletChainEntry
  bundlerBeneficiary : Option String
  bundlerFeeUsdc : Nat

-- ethers, `BigInt` of a text, and the hash that the entry point makes of all but the signature.
structure Ethers where
  isAddress : String → Bool
  getAddress : String → Option String
  bigInt : String → Option Int
  encodeErc20Transfer : String → Nat → Option String
  encodeExecuteCallData : List BatchCall → Option String
  encodeSignatures : List (String × String) → Option String
  decodeAdvancedSignature : String → Option (List (String × String))
  getUserOpHash : String → Nat → String → Nat

variable (ethers : Ethers) (config : AppConfig)

def UserOp.hash (op : UserOp) : Nat := ethers.getUserOpHash op.sender op.nonce op.callData

def AppConfig.chainOf (chainId : String) : WalletChainEntry :=
  (config.chains.find? fun chain => chain.chainId = chainId).getD config.fallback

def buildProposalUserOp (proposal : WalletProposal) (signature : String) : Option UserOp := do
  let feeToken ← ((config.chainOf proposal.chainId).feeTokenAddress).filter (· ≠ "")
  let beneficiary ← config.bundlerBeneficiary.filter (· ≠ "")
  let feeTarget ← ethers.getAddress feeToken
  let feeData ← ethers.encodeErc20Transfer beneficiary config.bundlerFeeUsdc
  let target ← ethers.getAddress proposal.target
  let value ← ethers.bigInt proposal.value
  let callData ← ethers.encodeExecuteCallData
    [⟨feeTarget, 0, feeData⟩, ⟨target, value, proposal.data⟩]
  let sender ← ethers.getAddress proposal.walletAddress
  return ⟨sender, proposal.nonce.getD 0, callData, signature⟩

def ADVANCED_SIG_MAGIC : String := "0x41574431"

-- The loop of `unwrapAdvancedInnerSig`.
def unwrapLayers (keyId : String) : Nat → String → String
  | 0, current => current
  | layers + 1, current =>
    if !startsWith (lowerCase current) ADVANCED_SIG_MAGIC then current
    else match ethers.decodeAdvancedSignature current with
    | none => current
    | some parts =>
      let named := if keyId = "" then none
        else parts.find? fun part => lowerCase part.1 = lowerCase keyId
      match (named.or parts.head?).filter (·.2 ≠ "") with
      | none => current
      | some part => unwrapLayers keyId layers part.2

def unwrapAdvancedInnerSig (stored keyId : String) : String := unwrapLayers ethers keyId 3 stored

def WalletProposalSig.inner (sig : WalletProposalSig) : String :=
  unwrapAdvancedInnerSig ethers sig.signature sig.keyId

/-! ## The server -/

structure ProposalBody where
  target : String
  value : Option String
  data : Option String
  chainId : String

structure SignBody where
  entityId : String
  keyId : String
  keyType : Int
  signature : String

-- A handler that waits, for the nonce, for the hash or for its body.
inductive Waiting
  | prepareNonce (proposalId : String)
  | prepareHash (prepared : WalletProposal)
  | signBody (proposalId : String) (body : SignBody) (answered : Option WalletProposal)
  | executeBody (proposal : WalletProposal)
  | executeNonce (proposal : WalletProposal) (sigs : List WalletProposalSig)
      (signature : Option String)
  | executeHash (record : WalletProposal) (op : UserOp) (packed : List WalletProposalSig)

-- An operation handed to `createWalletUserOp` or `requeueWalletUserOp`, and the stored signatures in
-- its own.
structure Submission where
  op : UserOp
  packed : List WalletProposalSig

structure ProposalServer where
  db : ProposalDb
  waiting : List Waiting
  answered : String → Option WalletProposal
  submitted : List Submission

def ProposalServer.empty : ProposalServer := ⟨.empty, [], fun _ => none, []⟩

-- What the user operations have under the hash: one that included, one that a bundler still has, or
-- none that stands in the way.
inductive Existing
  | included (txHash : Option String)
  | underWay
  | free
deriving DecidableEq

-- What a handler that waits is given; `none` stands for a request to the node that fails.
inductive Answer
  | nonce (nonce : Option Nat)
  | hash (answered : Bool)
  | signBody (now : Nat)
  | executeBody (signature : Option String)
  | userOp (existing : Option Existing)
deriving DecidableEq

inductive Event
  | post (wallet id : String) (body : ProposalBody)
  | patch (wallet id txHash : String)
  | prepare (wallet id : String)
  | sign (wallet id : String) (body : SignBody)
  | execute (wallet id : String)
  | resume (n : Nat) (answer : Answer)

abbrev Reply := Except HttpError Unit × ProposalServer

variable (server : ProposalServer)

def refuse (code : Nat) (error : String) : Reply := (.error (httpError code error), server)

-- What is thrown and not caught in the route.
def thrown : Reply := refuse server 500 "Internal server error"

def ProposalServer.wait (waiting : Waiting) : Reply :=
  (.ok (), { server with waiting := server.waiting ++ [waiting] })

def withProposal (wallet id : String) (handle : WalletProposal → Reply) : Reply :=
  match server.db.proposals.find? id with
  | none => refuse server 404 "proposal_not_found"
  | some proposal =>
    if lowerCase proposal.walletAddress = lowerCase wallet then handle proposal
    else refuse server 404 "proposal_not_found"

def postProposal (wallet id : String) (body : ProposalBody) : Reply :=
  let target := trim body.target
  if ethers.isAddress target then
    (.ok (), { server with
      db := createWalletProposal server.db id wallet body.chainId target (body.value.getD "0")
        (body.data.getD "0x") })
  else refuse server 400 "invalid_target"

def patchProposal (wallet id txHash : String) : Reply :=
  withProposal server wallet id fun _ =>
    if trim txHash = "" then refuse server 400 "tx_hash_required"
    else (.ok (), { server with db := updateWalletProposalTxHash server.db id (trim txHash) })

def prepareProposal (wallet id : String) : Reply :=
  withProposal server wallet id fun proposal =>
    if (config.chainOf proposal.chainId).rpcUrl.isNone then refuse server 503 "rpc_unavailable"
    else server.wait (.prepareNonce id)

-- The nonce is stored before the operation is built.
def prepareWith (id : String) (nonce : Nat) : Reply :=
  let prepared := prepareWalletProposal server.db id nonce
  let server := { server with db := prepared.1 }
  match prepared.2 with
  | none => thrown server
  | some proposal =>
    if (buildProposalUserOp ethers config proposal "0x").isNone then thrown server
    else server.wait (.prepareHash proposal)

def answerHash (prepared : WalletProposal) : Reply :=
  (.ok (), { server with
    answered := fun id => if id = prepared.id then some prepared else server.answered id })

def storeSig (id : String) (body : SignBody) (answered : Option WalletProposal) (now : Nat) : Reply :=
  let entityId := trim body.entityId
  let keyId := trim body.keyId
  let signature := trim body.signature
  if entityId = "" ∨ keyId = "" ∨ signature = "" ∨ body.keyType < 0 then
    refuse server 400 "invalid_signature"
  else
    (.ok (), { server with
      db := addWalletProposalSig server.db
        ⟨id, entityId, keyId, body.keyType, signature, now, answered⟩ })

-- The rest of execute once it has its record.
def submit (record : WalletProposal) (sigs : List WalletProposalSig) (signature : Option String) :
    Reply :=
  match ethers.encodeSignatures (sigs.map fun sig => (sig.keyId, sig.inner ethers)) with
  | none => thrown server
  | some packedSig =>
    match buildProposalUserOp ethers config record (signature.getD packedSig) with
    | none => thrown server
    | some op => server.wait (.executeHash record op (if signature.isSome then [] else sigs))

def executeProposal (proposal : WalletProposal) (signature : Option String) : Reply :=
  if proposal.txHash.any (· ≠ "") then refuse server 409 "already_executed"
  else if proposal.status = .cancelled then refuse server 409 "proposal_cancelled"
  else
    let sigs := listWalletProposalSigs server.db proposal.id
    if sigs.isEmpty then refuse server 400 "no_signatures"
    else if proposal.nonce.isNone ∨ proposal.status = .executed then
      if (config.chainOf proposal.chainId).rpcUrl.isNone then refuse server 503 "rpc_unavailable"
      else server.wait (.executeNonce proposal sigs signature)
    else submit ethers config server proposal sigs signature

def executeWith (proposal : WalletProposal) (sigs : List WalletProposalSig)
    (signature : Option String) (nonce : Nat) : Reply :=
  let prepared := prepareWalletProposal server.db proposal.id nonce
  submit ethers config { server with db := prepared.1 } (prepared.2.getD proposal) sigs signature

def answerUserOp (record : WalletProposal) (op : UserOp) (packed : List WalletProposalSig)
    (existing : Existing) : Reply :=
  match existing with
  | .included txHash =>
    match txHash.filter (· ≠ "") with
    | some txHash =>
      (.ok (), { server with db := updateWalletProposalTxHash server.db record.id txHash })
    | none => (.ok (), server)
  | .underWay => (.ok (), server)
  | .free => (.ok (), { server with submitted := server.submitted ++ [⟨op, packed⟩] })

-- `server` is the one that the handler has left the list of; `none` is a request that failed.
def resumed : Waiting → Answer → Reply
  | .prepareNonce id, .nonce (some nonce) => prepareWith ethers config server id nonce
  | .prepareHash prepared, .hash true => answerHash server prepared
  | .signBody id body answered, .signBody now => storeSig server id body answered now
  | .executeBody proposal, .executeBody signature =>
    executeProposal ethers config server proposal signature
  | .executeNonce proposal sigs signature, .nonce (some nonce) =>
    executeWith ethers config server proposal sigs signature nonce
  | .executeHash record op packed, .userOp (some existing) =>
    answerUserOp server record op packed existing
  | _, _ => thrown server

def step : Event → Reply
  | .post wallet id body => postProposal ethers server wallet id body
  | .patch wallet id txHash => patchProposal server wallet id txHash
  | .prepare wallet id => prepareProposal config server wallet id
  | .sign wallet id body => withProposal server wallet id fun _ =>
    server.wait (.signBody id body (server.answered id))
  | .execute wallet id => withProposal server wallet id fun proposal =>
    server.wait (.executeBody proposal)
  | .resume n answer =>
    match server.waiting[n]? with
    | none => (.ok (), server)
    | some waiting =>
      resumed ethers config { server with waiting := server.waiting.eraseIdx n } waiting answer

def next (event : Event) : ProposalServer := (step ethers config server event).2

end OnchainInvoice.Proposals
