import OnchainInvoice.Bundler.FeeBatch
import OnchainInvoice.Bundler.UserOps
import OnchainInvoice.Lib.AtomicBatches
import Mathlib.Algebra.Order.BigOperators.Group.List
import Mathlib.Algebra.Order.Ring.Nat

/-!
# What a broadcast pays

`BundlerWorker.processUserOp` from its record to `handleOps`, over a chain whose contracts are
parameters.  `handleOps` keeps an operation whose inner execution has reverted, and the wallet runs its
batch under ERC-7821, all or nothing; so the fee that the worker has read off the call data is paid just
when nothing in the batch fails.
-/

namespace OnchainInvoice.Bundler

open Server Lib.AtomicBatches

-- A `Transfer` event.
structure TransferEvent where
  token : String
  sender : String
  recipient : String
  amount : Nat
deriving DecidableEq

/-! ## The chain -/

structure Chain (World : Type) where
  getUserOpHash : World → PackedUserOperation → Option String
  balanceOf : World → String → String → Option Nat
  -- `ensureAccountPrefund`
  prefund : World → String → PackedUserOperation → Option World
  -- The entry point's checks, deployment and prefund; an error reverts `handleOps`, with what
  -- `userOpSimulationRejectReason` reads off it.
  validate : World → PackedUserOperation → Except String World
  -- The wallet's reading of its call data.
  decodeExecute : String → Option (String × String)
  decodeBatch : String → Option (List BatchCall)
  supportsExecutionMode : String → Bool
  -- A call from the wallet; `none` reverts.
  call : World → String → BatchCall → Option (World × List TransferEvent)
  -- Call data that is no `execute`.
  other : World → PackedUserOperation → Option (World × List TransferEvent)

namespace Chain

variable {World : Type} (chain : Chain World) (world : World) (userOp : PackedUserOperation)

def execute : Option (World × List TransferEvent) :=
  match chain.decodeExecute userOp.callData with
  | none => chain.other world userOp
  | some (mode, executionData) =>
    if chain.supportsExecutionMode mode then do
      let calls ← chain.decodeBatch executionData
      runBatch (fun world call => chain.call world userOp.sender call) world calls
    else none

def handleOps : Except String (World × List TransferEvent) := do
  let validated ← chain.validate world userOp
  pure ((chain.execute validated userOp).getD (validated, []))

end Chain

/-! ## The worker -/

inductive Verdict (World : Type)
  | rejected (rejectReason : String)
  | threw
  | unclaimed
  | sent (world : World)
deriving DecidableEq

structure BundlerChainConfig where
  bundlerAddress : String
  beneficiary : Option String
  feeTokenAddress : Option String
  feeUsdc : Option Int

-- `a || b` of texts
def orElseText (a : Option String) (b : String) : String := ((a.filter (· ≠ ""))).getD b

def feeConfig (chain : BundlerChainConfig) : BundlerFeeConfig where
  feeTokenAddress := chain.feeTokenAddress.getD ""
  bundlerBeneficiary := orElseText chain.beneficiary chain.bundlerAddress
  minFeeUsdc := chain.feeUsdc.getD 100000

section Worker

variable {World : Type} (coder : Coder) (chain : Chain World) (config : BundlerChainConfig)
  (record : WalletUserOp) (userOp : PackedUserOperation) (world : World)

-- What the main calls of a batch transfer of the fee token; `none` where `getAddress` throws.
def transferred (feeToken : String) : List BatchCall → Option Nat
  | [] => some 0
  | call :: rest => do
    let target ← coder.getAddress call.target
    let token ← coder.getAddress feeToken
    let amount := if target = token then ((coder.parseTransfer call.data).map Prod.snd).getD 0 else 0
    let others ← transferred feeToken rest
    pure (amount + others)

-- `claimed` and `reported`: the claim succeeds, and the report before the broadcast does not throw.
def processUserOp (claimed reported : Bool) : Verdict World :=
  match validateUserOpFee coder userOp (feeConfig config) with
  | none => .threw
  | some (.error refusal) => .rejected refusal.reason
  | some (.ok decoded) =>
    match chain.getUserOpHash world userOp with
    | none => .threw
    | some onChainHash =>
      if lowerCase onChainHash ≠ lowerCase record.userOpHash then .rejected "invalid_user_op_hash"
      else
        let feeToken := (feeConfig config).feeTokenAddress
        match chain.balanceOf world feeToken record.walletAddress,
            transferred coder feeToken decoded.mainCalls with
        | some balance, some mainAmount =>
          if balance < decoded.feeAmount + mainAmount then .rejected "insufficient_balance"
          else
            match coder.getAddress (feeConfig config).bundlerBeneficiary with
            | none => .threw
            | some _ =>
              match chain.prefund world record.walletAddress userOp with
              | none => .rejected "prefund_failed"
              | some funded =>
                match chain.handleOps funded userOp with
                | .error rejectReason => .rejected rejectReason
                | .ok _ =>
                  if !claimed then .unclaimed
                  else if !reported then .threw
                  else .sent funded
        | _, _ => .threw

end Worker

/-! ## What is paid -/

def moved (events : List TransferEvent) (token sender recipient : String) : Nat :=
  ((events.filter fun event =>
    event.token = token ∧ event.sender = sender ∧ event.recipient = recipient).map (·.amount)).sum

section Paid

variable {World : Type} (coder : Coder) (chain : Chain World) (config : BundlerChainConfig)
  (world : World) (userOp : PackedUserOperation)

/-- The transaction moves the fee from the wallet to the beneficiary. -/
def Paid : Prop :=
  ∃ token beneficiary included events,
    coder.getAddress (feeConfig config).feeTokenAddress = some token ∧
    coder.getAddress (feeConfig config).bundlerBeneficiary = some beneficiary ∧
    chain.handleOps world userOp = .ok (included, events) ∧
    (feeConfig config).minFeeUsdc ≤ moved events token userOp.sender beneficiary

/-- Nothing in the operation reverts once it is validated. -/
def RunsThrough : Prop :=
  ∃ validated mode executionData calls, chain.validate world userOp = .ok validated ∧
    chain.decodeExecute userOp.callData = some (mode, executionData) ∧
    chain.decodeBatch executionData = some calls ∧ chain.supportsExecutionMode mode = true ∧
    NoneFails (fun world call => chain.call world userOp.sender call) validated calls

/-- The wallet reads what `ethers` reads. -/
structure Reads : Prop where
  execute : ∀ callData parsed, coder.parseExecute callData = some parsed →
    chain.decodeExecute callData = some parsed
  batch : ∀ executionData calls, decodeBatchFromExecutionData coder executionData = some calls →
    chain.decodeBatch executionData = some calls

/-- A `transfer` of the fee token that goes through moves its amount. -/
def Moves : Prop :=
  ∀ world world' sender call token transfer recipient events,
    coder.getAddress (feeConfig config).feeTokenAddress = some token →
    coder.getAddress call.target = some token → decodeTransfer coder call.data = some transfer →
    coder.getAddress transfer.recipient = some recipient →
    chain.call world sender call = some (world', events) →
    ⟨token, sender, recipient, transfer.amount⟩ ∈ events

variable {coder chain config world userOp}

theorem amount_le_moved {events : List TransferEvent} {token sender recipient : String} {amount : Nat}
    (h : ⟨token, sender, recipient, amount⟩ ∈ events) :
    amount ≤ moved events token sender recipient := by
  apply List.le_sum_of_mem
  rw [List.mem_map]
  exact ⟨_, List.mem_filter.mpr ⟨h, by simp⟩, rfl⟩

/-- What the worker sends has passed the fee check and the static call. -/
theorem checked_of_sent {record : WalletUserOp} {start : World} {claimed reported : Bool}
    (h : processUserOp coder chain config record userOp start claimed reported = .sent world) :
    (∃ decoded, validateUserOpFee coder userOp (feeConfig config) = some (.ok decoded)) ∧
      ∃ result, chain.handleOps world userOp = .ok result := by
  unfold processUserOp at h
  split at h
  · exact absurd h (by simp)
  · exact absurd h (by simp)
  next decoded hfee =>
  refine And.intro ⟨decoded, hfee⟩ ?_
  split at h
  · exact absurd h (by simp)
  split at h
  · exact absurd h (by simp)
  dsimp only at h
  split at h
  · split at h
    · exact absurd h (by simp)
    split at h
    · exact absurd h (by simp)
    split at h
    · exact absurd h (by simp)
    next funded _ =>
    cases hops : chain.handleOps funded userOp with
    | error rejectReason =>
      rw [hops] at h
      exact absurd h (by simp)
    | ok result =>
      rw [hops] at h
      dsimp only at h
      split at h
      · exact absurd h (by simp)
      split at h
      · exact absurd h (by simp)
      · cases h
        exact ⟨result, hops⟩
  · exact absurd h (by simp)

theorem execute_of_reads {mode executionData : String} {calls : List BatchCall} {validated : World}
    (hdecode : chain.decodeExecute userOp.callData = some (mode, executionData))
    (hbatch : chain.decodeBatch executionData = some calls) :
    chain.execute validated userOp =
      if chain.supportsExecutionMode mode then
        runBatch (fun world call => chain.call world userOp.sender call) validated calls
      else none := by
  unfold Chain.execute
  rw [hdecode]
  simp only [hbatch, Option.bind_eq_bind, Option.bind_some]

/-- The fee is paid just when the wallet takes the mode and no call of the batch reverts. -/
theorem paid_iff {record : WalletUserOp} {start : World} {claimed reported : Bool}
    (hreads : Reads coder chain) (hmoves : Moves coder chain config)
    (hsent : processUserOp coder chain config record userOp start claimed reported = .sent world) :
    Paid coder chain config world userOp ↔
      (feeConfig config).minFeeUsdc ≤ 0 ∨ RunsThrough chain world userOp := by
  obtain ⟨⟨decoded, hfee⟩, ⟨included, events⟩, hops⟩ := checked_of_sent hsent
  obtain ⟨mode, executionData, first, token, transfer, recipient, beneficiary, hparse, hbatch, htarget,
    htoken, htransfer, hrecipient, hbeneficiary, hsame, hamount⟩ := validateUserOpFee_ok hfee
  have hdecode := hreads.execute _ _ hparse
  have hcalls := hreads.batch _ _ hbatch
  cases hvalidate : chain.validate world userOp with
  | error rejectReason => simp [Chain.handleOps, hvalidate, bind, Except.bind] at hops
  | ok validated =>
    have hresult : (chain.execute validated userOp).getD (validated, []) = (included, events) := by
      simpa [Chain.handleOps, hvalidate, bind, Except.bind, pure, Except.pure] using hops
    apply Iff.intro
    · rintro ⟨token', beneficiary', included', events', htoken', hbeneficiary', hops', hpaid⟩
      by_cases hzero : (feeConfig config).minFeeUsdc ≤ 0
      · exact .inl hzero
      rw [hops] at hops'
      obtain ⟨rfl, rfl⟩ := Prod.mk.inj (Except.ok.inj hops')
      refine .inr ⟨validated, mode, executionData, _, hvalidate, hdecode, hcalls, ?_⟩
      rw [← isSome_runBatch_iff]
      cases hexecute : chain.execute validated userOp with
      | none =>
        -- A reverted execution has no events.
        rw [hexecute] at hresult
        obtain ⟨-, rfl⟩ := Prod.mk.inj hresult
        exact absurd hpaid (by simpa [moved] using hzero)
      | some result =>
        rw [execute_of_reads hdecode hcalls] at hexecute
        split at hexecute
        · next hmode => exact ⟨hmode, by rw [hexecute]; rfl⟩
        · exact absurd hexecute (by simp)
    · intro h
      refine ⟨token, beneficiary, included, events, htoken, hbeneficiary, hops, ?_⟩
      rcases h with hzero | hruns
      · omega
      · obtain ⟨validated', mode', executionData', calls, hvalidate', hdecode', hcalls', hmode, hnone⟩ :=
          hruns
        rw [hvalidate] at hvalidate'
        obtain rfl := Except.ok.inj hvalidate'
        rw [hdecode] at hdecode'
        obtain ⟨rfl, rfl⟩ := Prod.mk.inj (Option.some.inj hdecode')
        rw [hcalls] at hcalls'
        obtain rfl := Option.some.inj hcalls'
        obtain ⟨result, hrun⟩ := Option.isSome_iff_exists.mp (isSome_runBatch_iff.mpr hnone)
        have hexecute : chain.execute validated userOp = _ := execute_of_reads hdecode hcalls
        rw [if_pos hmode, hrun] at hexecute
        rw [hexecute, Option.getD_some] at hresult
        subst hresult
        obtain ⟨after, hfirst, hevents⟩ := emits_first hrun
        have hmoved : transfer.amount ≤ moved events token userOp.sender recipient :=
          amount_le_moved (hevents _ (hmoves _ _ _ _ _ _ _ _ htoken htarget htransfer hrecipient hfirst))
        rw [← hsame]
        omega

end Paid

/-! ## A fee and another call -/

-- The token and the beneficiary have plain addresses here, and data of two calls.
def plainCoder : Coder where
  getAddress := some
  parseExecute callData :=
    if callData = "0xe9ae5c53" then some ("0x01", "0xb0")
    else if callData = "0xe9ae5c53ff" then some ("0x01", "0xb1") else none
  decodeCalls executionData :=
    let fee := ⟨"0xfee", 0, "0xa9059cbb"⟩
    if executionData = "0xb0" then some [fee]
    else if executionData = "0xb1" then some [fee, ⟨"0xdead", 0, "0x"⟩] else none
  parseTransfer data := if data = "0xa9059cbb" then some ("0xbe", 100000) else none

-- The state is the wallet's balance; only the token answers calls.
def plainChain : Chain Nat where
  getUserOpHash _ _ := some "0xabc"
  balanceOf balance _ _ := some balance
  prefund balance _ _ := some balance
  validate balance _ := .ok balance
  decodeExecute := plainCoder.parseExecute
  decodeBatch := decodeBatchFromExecutionData plainCoder
  supportsExecutionMode mode := mode = "0x01"
  call balance sender call :=
    if call.target = "0xfee" ∧ call.data = "0xa9059cbb" ∧ 100000 ≤ balance then
      some (balance - 100000, [⟨"0xfee", sender, "0xbe", 100000⟩])
    else none
  other _ _ := none

def plainConfig : BundlerChainConfig := ⟨"0xb1", some "0xbe", some "0xfee", none⟩

def operation (callData : String) : PackedUserOperation :=
  ⟨"0x77", "0", "0x", callData, "0x", "0", "0x", "0x", "0x"⟩

def pendingRow : WalletUserOp :=
  ⟨"0xabc", "0x77", "8453", "{}", .pending, none, none, 1, none, none, none⟩

theorem reads_plain : Reads plainCoder plainChain :=
  ⟨fun _ _ h => h, fun _ _ h => h⟩

theorem moves_plain : Moves plainCoder plainChain plainConfig := by
  intro balance balance' sender call token transfer recipient events _ htarget htransfer hrecipient
    hcall
  obtain rfl : call.target = token := Option.some.inj htarget
  obtain rfl : transfer.recipient = recipient := Option.some.inj hrecipient
  simp only [plainChain, Option.ite_none_right_eq_some, Option.some.injEq, Prod.mk.injEq] at hcall
  obtain ⟨⟨htoken, hdata, -⟩, -, rfl⟩ := hcall
  rw [hdata] at htransfer
  obtain rfl : (⟨"0xbe", 100000⟩ : TransferCall) = transfer := by
    simpa [decodeTransfer, plainCoder, show startsWith (lowerCase "0xa9059cbb") TRANSFER_SELECTOR = true by decide]
      using htransfer
  rw [htoken]
  exact List.mem_singleton.mpr rfl

theorem paid_iff_alone : Paid plainCoder plainChain plainConfig 100000 (operation "0xe9ae5c53") ↔
    (feeConfig plainConfig).minFeeUsdc ≤ 0 ∨
      RunsThrough plainChain 100000 (operation "0xe9ae5c53") :=
  paid_iff reads_plain moves_plain
    (by decide : processUserOp plainCoder plainChain plainConfig pendingRow
      (operation "0xe9ae5c53") 100000 true true = .sent 100000)

/-- A second call that reverts takes the fee back, and the operation is sent all the same. -/
theorem reverted_with_fee :
    Reads plainCoder plainChain ∧ Moves plainCoder plainChain plainConfig ∧
      processUserOp plainCoder plainChain plainConfig pendingRow (operation "0xe9ae5c53ff") 100000
        true true = .sent 100000 ∧
      ¬Paid plainCoder plainChain plainConfig 100000 (operation "0xe9ae5c53ff") := by
  refine ⟨reads_plain, moves_plain, by decide, ?_⟩
  rintro ⟨token, beneficiary, included, events, -, -, hops, hpaid⟩
  have hreverted : plainChain.handleOps 100000 (operation "0xe9ae5c53ff") = .ok (100000, []) := by
    decide
  rw [hreverted] at hops
  obtain ⟨-, rfl⟩ := Prod.mk.inj (Except.ok.inj hops)
  exact absurd (show (100000 : Int) ≤ 0 from hpaid) (by decide)

end OnchainInvoice.Bundler
