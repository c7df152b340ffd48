import OnchainInvoice.Server.Routes

/-!
# The fee of a user operation

`userop-fee.ts`: how the bundler reads the call data of an operation, and when it takes the first call
of its batch for the fee.  The coder of `ethers` is a parameter.
-/

namespace OnchainInvoice.Bundler

open Server

structure BatchCall where
  target : String
  value : Nat
  data : String
deriving DecidableEq

structure PackedUserOperation where
  sender : String
  nonce : String
  initCode : String
  callData : String
  accountGasLimits : String
  preVerificationGas : String
  gasFees : String
  paymasterAndData : String
  signature : String
deriving DecidableEq

structure BundlerFeeConfig where
  feeTokenAddress : String
  bundlerBeneficiary : String
  minFeeUsdc : Int

-- What the worker uses of `ethers`; `none` where it throws.
structure Coder where
  getAddress : String → Option String
  -- mode and execution data of call data that parses as a call of `execute`
  parseExecute : String → Option (String × String)
  -- `tuple(address target, uint256 value, bytes data)[]`
  decodeCalls : String → Option (List BatchCall)
  -- recipient and amount of data that parses as a call of `transfer`
  parseTransfer : String → Option (String × Nat)

abbrev TRANSFER_SELECTOR : String := "0xa9059cbb"

variable (coder : Coder)

def decodeBatchFromExecutionData (executionData : String) : Option (List BatchCall) := do
  let raw ← coder.decodeCalls executionData
  raw.mapM fun row => do
    let target ← coder.getAddress row.target
    pure { row with target := target }

def decodeExecuteBatch (callData : String) : Option (List BatchCall) :=
  if callData = "" ∨ callData = "0x" then none
  else do
    let parsed ← coder.parseExecute callData
    decodeBatchFromExecutionData coder parsed.2

structure TransferCall where
  recipient : String
  amount : Nat

def decodeTransfer (data : String) : Option TransferCall :=
  if startsWith (lowerCase data) TRANSFER_SELECTOR then do
    let parsed ← coder.parseTransfer data
    let recipient ← coder.getAddress parsed.1
    pure ⟨recipient, parsed.2⟩
  else none

structure DecodedFeeBatch where
  feeAmount : Nat
  feeToken : String
  beneficiary : String
  mainCalls : List BatchCall

structure FeeRefusal where
  reason : String
  message : String

-- `none` where an address of the configuration throws.
def validateFeeBatch (calls : List BatchCall) (config : BundlerFeeConfig) :
    Option (Except FeeRefusal DecodedFeeBatch) :=
  match calls with
  | [] => some (.error ⟨"invalid_batch", "Empty or undecodable batch"⟩)
  | first :: mainCalls => do
    let target ← coder.getAddress first.target
    let feeToken ← coder.getAddress config.feeTokenAddress
    if target ≠ feeToken then
      pure (.error ⟨"wrong_fee_token", "First call must pay bundler fee token"⟩)
    else
      match decodeTransfer coder first.data with
      | none => pure (.error ⟨"fee_missing", "First batch call must be ERC20 transfer"⟩)
      | some transfer => do
        let recipient ← coder.getAddress transfer.recipient
        let beneficiary ← coder.getAddress config.bundlerBeneficiary
        if recipient ≠ beneficiary then
          pure (.error ⟨"wrong_beneficiary", "Fee must be sent to bundler beneficiary"⟩)
        else if (transfer.amount : Int) < config.minFeeUsdc then
          pure (.error ⟨"fee_too_low", "Fee " ++ toString transfer.amount ++ " below minimum " ++
            toString config.minFeeUsdc⟩)
        else pure (.ok ⟨transfer.amount, target, transfer.recipient, mainCalls⟩)

def validateUserOpFee (userOp : PackedUserOperation) (config : BundlerFeeConfig) :
    Option (Except FeeRefusal DecodedFeeBatch) :=
  match decodeExecuteBatch coder userOp.callData with
  | none => some (.error ⟨"invalid_call_data", "callData must be execute(batch)"⟩)
  | some calls => validateFeeBatch coder calls config

/-- What a batch that passes looks like. -/
theorem validateUserOpFee_ok {coder : Coder} {userOp : PackedUserOperation}
    {config : BundlerFeeConfig} {decoded : DecodedFeeBatch}
    (h : validateUserOpFee coder userOp config = some (.ok decoded)) :
    ∃ mode executionData first feeToken transfer recipient beneficiary,
      coder.parseExecute userOp.callData = some (mode, executionData) ∧
      decodeBatchFromExecutionData coder executionData = some (first :: decoded.mainCalls) ∧
      coder.getAddress first.target = some feeToken ∧
      coder.getAddress config.feeTokenAddress = some feeToken ∧
      decodeTransfer coder first.data = some transfer ∧
      coder.getAddress transfer.recipient = some recipient ∧
      coder.getAddress config.bundlerBeneficiary = some beneficiary ∧ recipient = beneficiary ∧
      config.minFeeUsdc ≤ transfer.amount := by
  unfold validateUserOpFee at h
  cases hcalls : decodeExecuteBatch coder userOp.callData with
  | none =>
    rw [hcalls] at h
    exact absurd h (by simp)
  | some calls =>
    rw [hcalls] at h
    unfold decodeExecuteBatch at hcalls
    split at hcalls
    · exact absurd hcalls (by simp)
    · simp only [Option.bind_eq_bind, Option.bind_eq_some_iff] at hcalls
      obtain ⟨parsed, hparsed, hbatch⟩ := hcalls
      obtain ⟨mode, executionData⟩ := parsed
      cases calls with
      | nil => exact absurd h (by simp [validateFeeBatch])
      | cons first mainCalls =>
        simp only [validateFeeBatch, Option.bind_eq_bind, Option.bind_eq_some_iff, Option.pure_def] at h
        obtain ⟨target, htarget, feeToken, hfeeToken, h⟩ := h
        split at h
        · exact absurd h (by simp)
        · next heq =>
          obtain rfl := not_not.mp heq
          cases htransfer : decodeTransfer coder first.data with
          | none =>
            rw [htransfer] at h
            exact absurd h (by simp)
          | some transfer =>
            rw [htransfer] at h
            simp only [Option.bind_eq_some_iff] at h
            obtain ⟨recipient, hrecipient, beneficiary, hbeneficiary, h⟩ := h
            split at h
            · exact absurd h (by simp)
            · next hsame =>
              split at h
              · exact absurd h (by simp)
              · next hamount =>
                obtain rfl := Except.ok.inj (Option.some.inj h)
                exact ⟨mode, executionData, first, target, transfer, recipient, beneficiary, hparsed,
                  hbatch, htarget, hfeeToken, htransfer, hrecipient, hbeneficiary, not_not.mp hsame,
                  not_lt.mp hamount⟩

end OnchainInvoice.Bundler
