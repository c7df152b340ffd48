import OnchainInvoice.Lib.Tables
import OnchainInvoice.Server.CommerceDb

/-!
# User operations and the bundlers that send them

The table of user operations in `db.ts` and the part of `BundlerWorker.processUserOp` that talks to
the server: the claim, the report before the broadcast, the broadcast and the report after it, with
the retries of `claimWithRetry` and `trackWithRetry`.
-/

namespace OnchainInvoice.Bundler

open Lib.Tables Server

/-! ## The table -/

inductive UserOpStatus
  | pending | claimed | submitted | included | failed | rejected
deriving DecidableEq

structure WalletUserOp where
  userOpHash : String
  walletAddress : String
  chainId : String
  userOp : String
  status : UserOpStatus
  claimedBy : Option String
  claimedUntil : Option Time
  version : Nat
  txHash : Option String
  rejectReason : Option String
  gasSpentWei : Option String
deriving DecidableEq

abbrev UserOps := Table WalletUserOp String WalletUserOp.userOpHash

-- What is thrown, with the row of a conflict.
structure Refusal where
  statusCode : Nat
  message : String
  userOp : Option WalletUserOp

abbrev Served := Except Refusal (WalletUserOp × UserOps)

variable (ops : UserOps)

structure NewUserOp where
  walletAddress : String
  chainId : String
  userOpHash : String
  userOp : String

def getWalletUserOpByHash (userOpHash : String) : Option WalletUserOp :=
  ops.find? (lowerCase userOpHash)

-- An operation that is there already is answered as it is.
def createWalletUserOp (input : NewUserOp) : UserOps :=
  (ops.insert ⟨lowerCase input.userOpHash, lowerCase input.walletAddress, input.chainId, input.userOp,
    .pending, none, none, 1, none, none, none⟩).getD ops

def requeued (input : NewUserOp) (row : WalletUserOp) : WalletUserOp :=
  if row.status = .rejected ∨ row.status = .failed then
    { row with
      walletAddress := lowerCase input.walletAddress
      chainId := input.chainId
      userOp := input.userOp
      status := .pending
      claimedBy := none
      claimedUntil := none
      txHash := none
      rejectReason := none
      gasSpentWei := none
      version := row.version + 1 }
  else row

def requeueWalletUserOp (input : NewUserOp) : UserOps :=
  ops.modify (lowerCase input.userOpHash) (requeued input) fun row => by
    unfold requeued
    split <;> rfl

structure ClaimUserOp where
  userOpHash : String
  bundlerAddress : String
  expectedVersion : Number
  leaseMs : Time

-- The `WHERE` of the claim.
def claimable (row : WalletUserOp) (input : ClaimUserOp) (now : Time) : Bool :=
  some (row.version : Int) = input.expectedVersion &&
    (row.status = .pending || row.status = .claimed) &&
    (row.claimedBy.isNone || row.claimedBy = some (lowerCase input.bundlerAddress) ||
      row.claimedUntil.any fun claimedUntil => claimedUntil < now)

def WalletUserOp.claim (input : ClaimUserOp) (now : Time) (row : WalletUserOp) : WalletUserOp :=
  { row with
    claimedBy := some (lowerCase input.bundlerAddress)
    claimedUntil := some (now + input.leaseMs)
    status := .claimed
    version := row.version + 1 }

def claimWalletUserOp (input : ClaimUserOp) (now : Time) : Served :=
  match getWalletUserOpByHash ops input.userOpHash with
  | none => .error ⟨409, "UserOp claim conflict", none⟩
  | some row =>
    if claimable row input now then
      .ok (row.claim input now, ops.modify row.userOpHash (·.claim input now) fun _ => rfl)
    else .error ⟨409, "UserOp claim conflict", some row⟩

structure TrackUserOp where
  userOpHash : String
  status : Option UserOpStatus
  txHash : Option String
  rejectReason : Option String
  gasSpentWei : Option String
  expectedVersion : Option Number
  bundlerAddress : String

def terminal (status : Option UserOpStatus) : Bool :=
  status = some .included || status = some .failed || status = some .rejected

def WalletUserOp.track (input : TrackUserOp) (row : WalletUserOp) : WalletUserOp :=
  { row with
    status := input.status.getD row.status
    txHash := input.txHash.or row.txHash
    rejectReason := input.rejectReason.or row.rejectReason
    gasSpentWei := input.gasSpentWei.or row.gasSpentWei
    version := row.version + 1
    claimedBy := if terminal input.status then none else row.claimedBy
    claimedUntil := if terminal input.status then none else row.claimedUntil }

def trackWalletUserOp (input : TrackUserOp) : Served :=
  match getWalletUserOpByHash ops input.userOpHash with
  | none => .error ⟨404, "UserOp not found", none⟩
  | some row =>
    if input.expectedVersion.any (· ≠ some (row.version : Int)) then
      .error ⟨409, "UserOp version conflict", some row⟩
    else if input.bundlerAddress ≠ "" ∧
        row.claimedBy.any (fun holder => holder ≠ "" && holder ≠ lowerCase input.bundlerAddress) then
      .error ⟨409, "UserOp claimed by another bundler", some row⟩
    else .ok (row.track input, ops.modify row.userOpHash (·.track input) fun _ => rfl)

-- The signed routes of a bundler.
inductive Call
  | claim (input : ClaimUserOp) (now : Time)
  | track (input : TrackUserOp)

def serve : Call → Served
  | .claim input now => claimWalletUserOp ops input now
  | .track input => trackWalletUserOp ops input

-- The table after a call.
def served (call : Call) : UserOps :=
  match serve ops call with
  | .ok answer => answer.2
  | .error _ => ops

/-! ## A worker's job -/

-- How far a job has come.  `left` counts the attempts left of a request; `accepted` tells whether the
-- server has accepted the report before the broadcast, which the worker need not know.
inductive Phase
  | rejecting (reason : String) (left : Nat) (expectedVersion : Option Number)
  | claiming (left version : Nat)
  | submitting (claimed : WalletUserOp) (accepted : Bool) (left : Nat) (expectedVersion : Option Number)
  | broadcasting (claimed : WalletUserOp) (accepted : Bool)
  | mining (claimed : WalletUserOp)
  | reporting (opSuccess : Bool) (txHash : String) (gasSpentWei : Option String) (left : Nat)
      (expectedVersion : Option Number)

structure Job where
  bundler : String
  named : bundler ≠ ""
  maxRetries : Nat
  record : WalletUserOp
  phase : Phase

-- What becomes of a request; it may be served although its answer fails or is lost.
inductive Fate
  | answered | failed | failedAfter | unsent | lost
deriving DecidableEq

inductive Fetched
  | ok (row : WalletUserOp)
  | refused (refusal : Refusal)
  | down
  | threw

def fetched (ops : UserOps) (call : Call) : Fate → Fetched
  | .answered =>
    match serve ops call with
    | .ok answer => .ok answer.1
    | .error refusal => .refused refusal
  | .failed | .failedAfter => .down
  | .unsent | .lost => .threw

def Fate.reaches (fate : Fate) : Bool := fate ≠ .failed && fate ≠ .unsent

-- What the loops of the worker make of an answer.
inductive Attempt
  | accepted (row : WalletUserOp)
  | settled
  | again (version : Option Number)
  | threw

-- `conflict.userOp?.version`
def versionOf (userOp : Option WalletUserOp) : Option Number :=
  userOp.map fun row => some (row.version : Int)

def attemptOf (version : Option Number) : Fetched → Attempt
  | .ok row => .accepted row
  | .refused refusal =>
    if refusal.statusCode = 409 then
      if refusal.userOp.any (·.status = .included) then .settled else .again (versionOf refusal.userOp)
    else if 500 ≤ refusal.statusCode then .again version
    else .threw
  | .down => .again version
  | .threw => .threw

def Phase.expectedVersion : Phase → Option Number
  | .rejecting _ _ version | .submitting _ _ _ version | .reporting _ _ _ _ version => version
  | .claiming _ version => some (some (version : Int))
  | _ => none

-- The request that a job makes next.
def Job.request (leaseMs : Time) (job : Job) (now : Time) : Option Call :=
  let hash := job.record.userOpHash
  match job.phase with
  | .rejecting reason (_ + 1) version =>
    some (.track ⟨hash, some .rejected, none, some reason, none, version, job.bundler⟩)
  | .claiming (_ + 1) version => some (.claim ⟨hash, job.bundler, some (version : Int), leaseMs⟩ now)
  | .submitting _ _ (_ + 1) version =>
    some (.track ⟨hash, some .submitted, none, none, none, version, job.bundler⟩)
  | .reporting opSuccess txHash gasSpentWei (_ + 1) version =>
    some (.track ⟨hash, some (if opSuccess then .included else .failed), some txHash,
      if opSuccess then none else some "execution_reverted", gasSpentWei, version, job.bundler⟩)
  | _ => none

-- The phase after an attempt that the server may have accepted; without an attempt the loop has run
-- out.  `none` ends the job.
def Phase.after (maxRetries : Nat) (attempt : Option Attempt) (taken : Bool) : Phase → Option Phase
  | .rejecting reason left _ =>
    match attempt with
    | some (.again version) => some (.rejecting reason (left - 1) version)
    | _ => none
  | .claiming left version =>
    match attempt with
    | some (.accepted row) => some (.submitting row false maxRetries (some (some (row.version : Int))))
    | some (.again (some (some expected))) => some (.claiming (left - 1) expected.toNat)
    | some (.again (some none)) => some (.claiming (left - 1) version)
    | _ => none
  | .submitting claimed accepted left _ =>
    match attempt with
    | some (.again version) => some (.submitting claimed (accepted || taken) (left - 1) version)
    | some .threw => none
    | _ => some (.broadcasting claimed (accepted || taken))
  | .reporting opSuccess txHash gasSpentWei left _ =>
    match attempt with
    | some (.again version) => some (.reporting opSuccess txHash gasSpentWei (left - 1) version)
    | _ => none
  | phase => some phase

end OnchainInvoice.Bundler
