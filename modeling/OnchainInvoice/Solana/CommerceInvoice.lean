import OnchainInvoice.Evm.Words
import OnchainInvoice.Lib.Revert
import OnchainInvoice.Lib.Runs

/-!
# The `commerce-invoice` program

The Solana program that settles an invoice: what its token account holds goes to the merchant, less
a fee.  The runtime, the token program and the associated token program are parameters; the program
sees them through the calls that it makes.
-/

namespace OnchainInvoice.CommerceInvoice

open Evm Lib.Revert

/-! ## Data -/

-- `[u8; 32]`
abbrev U8x32 := { bytes : Bytes // bytes.length = 32 }

abbrev Pubkey := U8x32

inductive ProgramError
  | invalidInstructionData | invalidArgument | notEnoughAccountKeys | missingRequiredSignature
  | invalidSeeds | accountAlreadyInitialized | invalidAccountData | custom (code : Nat)
  | insufficientFunds | incorrectProgramId | borshIoError
  -- what a call outside the program fails with
  | failed
deriving DecidableEq

structure Config where
  authority : Pubkey
  feeRecipient : Pubkey
  feeBps : Uint16
  bump : UInt8
deriving DecidableEq

inductive CommerceInstruction
  | initialize_ (feeBps : Uint16) (authority feeRecipient : Pubkey)
  | settle (invoiceId : U8x32)
deriving DecidableEq

/-! ## Borsh -/

def array32 (data : Bytes) : Option (U8x32 × Bytes) :=
  if h : 32 ≤ data.length then
    some (⟨data.take 32, by rw [List.length_take, Nat.min_eq_left h]⟩, data.drop 32)
  else none

-- Little endian.
def u16 : Bytes → Option (Uint16 × Bytes)
  | low :: high :: rest => some (BitVec.ofNat 16 (low.toNat + 256 * high.toNat), rest)
  | _ => none

def u8 : Bytes → Option (UInt8 × Bytes)
  | byte :: rest => some (byte, rest)
  | [] => none

def u16Bytes (n : Uint16) : Bytes := [UInt8.ofNat n.toNat, UInt8.ofNat (n.toNat / 256)]

def Config.serialize (config : Config) : Bytes :=
  config.authority.val ++ (config.feeRecipient.val ++ (u16Bytes config.feeBps ++ [config.bump]))

-- What follows the fields is not read.
def Config.deserialize (data : Bytes) : Option Config := do
  let (authority, data) ← array32 data
  let (feeRecipient, data) ← array32 data
  let (feeBps, data) ← u16 data
  let (bump, _) ← u8 data
  return ⟨authority, feeRecipient, feeBps, bump⟩

-- `try_from_slice`: nothing may follow.
def CommerceInstruction.tryFromSlice (data : Bytes) : Option CommerceInstruction := do
  let (tag, data) ← u8 data
  if tag = 0 then
    let (feeBps, data) ← u16 data
    let (authority, data) ← array32 data
    let (feeRecipient, data) ← array32 data
    if data = [] then some (.initialize_ feeBps authority feeRecipient) else none
  else if tag = 1 then
    let (invoiceId, data) ← array32 data
    if data = [] then some (.settle invoiceId) else none
  else none

/-! ## The chain -/

structure Account where
  owner : Pubkey
  data : Bytes
deriving DecidableEq

abbrev Chain := Pubkey → Account

structure AccountInfo where
  key : Pubkey
  isSigner : Bool
deriving DecidableEq

-- The fields of a token account that the program reads.
structure TokenAccount where
  mint : Pubkey
  owner : Pubkey
  amount : Uint64
deriving DecidableEq

inductive Instruction
  | createAccount (payer account : Pubkey) (lamports space : Nat) (owner : Pubkey)
  | transfer (source destination authority : Pubkey) (amount : Uint64)
  | closeAccount (account destination authority : Pubkey)
deriving DecidableEq

/-- What the program calls.  The token instructions run the token program, whose id the builders
of the instructions insist on. -/
structure Runtime where
  tokenProgram : Pubkey
  findProgramAddress : List Bytes → Pubkey → Pubkey × UInt8
  getAssociatedTokenAddress : Pubkey → Pubkey → Pubkey
  unpack : Bytes → Option TokenAccount
  minimumBalance : Nat → Nat
  invokeSigned : Instruction → List AccountInfo → List Bytes → Chain → Option Chain

variable (rt : Runtime) (programId : Pubkey)

-- "config" and "invoice"
def CONFIG_SEED : Bytes := [0x63, 0x6f, 0x6e, 0x66, 0x69, 0x67]
def INVOICE_SEED : Bytes := [0x69, 0x6e, 0x76, 0x6f, 0x69, 0x63, 0x65]

def configPda : Pubkey × UInt8 := rt.findProgramAddress [CONFIG_SEED] programId

def invoicePda (invoiceId : U8x32) (merchant mint : Pubkey) : Pubkey × UInt8 :=
  rt.findProgramAddress [INVOICE_SEED, invoiceId.val, merchant.val, mint.val] programId

def nextAccountInfo : List AccountInfo → Except ProgramError (AccountInfo × List AccountInfo)
  | info :: iter => .ok (info, iter)
  | [] => .error .notEnoughAccountKeys

def invokeSigned (instruction : Instruction) (infos : List AccountInfo) (seeds : List Bytes)
    (chain : Chain) : Except ProgramError Chain :=
  orRevert .failed (rt.invokeSigned instruction infos seeds chain)

-- `check_program_account` of `spl_token`
def checkProgramAccount (tokenProgram : Pubkey) : Except ProgramError Unit :=
  revertIf (tokenProgram != rt.tokenProgram) .incorrectProgramId

/-! ## Instructions -/

-- The bytes are written over the first ones of the account.
def writeConfig (config : Config) (key : Pubkey) (chain : Chain) : Except ProgramError Chain := do
  let bytes := config.serialize
  revertIf ((chain key).data.length < bytes.length) .borshIoError
  return Function.update chain key
    { chain key with data := bytes ++ (chain key).data.drop bytes.length }

def initialize_ (accounts : List AccountInfo) (feeBps : Uint16) (authority feeRecipient : Pubkey)
    (chain : Chain) : Except ProgramError Chain := do
  revertIf (10000 < feeBps) .invalidArgument
  let (payer, iter) ← nextAccountInfo accounts
  let (configInfo, iter) ← nextAccountInfo iter
  let (systemProgram, _) ← nextAccountInfo iter
  revertIf (!payer.isSigner) .missingRequiredSignature
  let (expected, bump) := configPda rt programId
  revertIf (configInfo.key != expected) .invalidSeeds
  revertIf ((chain configInfo.key).owner == programId) .accountAlreadyInitialized
  let space := 128
  let lamports := rt.minimumBalance space
  let chain ← invokeSigned rt
    (.createAccount payer.key configInfo.key lamports space programId)
    [payer, configInfo, systemProgram] [CONFIG_SEED, [bump]] chain
  writeConfig ⟨authority, feeRecipient, feeBps, bump⟩ configInfo.key chain

-- The fee in 128 bits, cut to 64.
def feeOf (amount : Uint64) (feeBps : Uint16) : Except ProgramError Uint64 := do
  let product ← checkedMul .invalidArgument (amount.setWidth 128) (feeBps.setWidth 128)
  return (product / 10000#128).setWidth 64

def saturatingSub (a b : Uint64) : Uint64 := if b ≤ a then a - b else 0

structure SettleAccounts where
  authority : AccountInfo
  configInfo : AccountInfo
  merchant : AccountInfo
  invoiceInfo : AccountInfo
  invoiceAta : AccountInfo
  merchantAta : AccountInfo
  feeAta : AccountInfo
  mint : AccountInfo
  tokenProgram : AccountInfo
  rentDestination : AccountInfo

def settleAccounts (accounts : List AccountInfo) : Except ProgramError SettleAccounts := do
  let (authority, iter) ← nextAccountInfo accounts
  let (configInfo, iter) ← nextAccountInfo iter
  let (merchant, iter) ← nextAccountInfo iter
  let (invoiceInfo, iter) ← nextAccountInfo iter
  let (invoiceAta, iter) ← nextAccountInfo iter
  let (merchantAta, iter) ← nextAccountInfo iter
  let (feeAta, iter) ← nextAccountInfo iter
  let (mint, iter) ← nextAccountInfo iter
  let (tokenProgram, iter) ← nextAccountInfo iter
  let (rentDestination, _) ← nextAccountInfo iter
  return ⟨authority, configInfo, merchant, invoiceInfo, invoiceAta, merchantAta, feeAta, mint,
    tokenProgram, rentDestination⟩

-- A share of the invoice goes to `destination`, unless it is zero.
def pay (a : SettleAccounts) (destination : AccountInfo) (expectedInvoice : Pubkey)
    (signerSeeds : List Bytes) (amount : Uint64) (chain : Chain) : Except ProgramError Chain := do
  if 0 < amount then
    checkProgramAccount rt a.tokenProgram.key
    invokeSigned rt (.transfer a.invoiceAta.key destination.key expectedInvoice amount)
      [a.invoiceAta, destination, a.invoiceInfo, a.tokenProgram] signerSeeds chain
  else return chain

def settle (accounts : List AccountInfo) (invoiceId : U8x32) (chain : Chain) :
    Except ProgramError Chain := do
  let a ← settleAccounts accounts
  revertIf (!a.authority.isSigner) .missingRequiredSignature
  let config ← orRevert .invalidAccountData (Config.deserialize (chain a.configInfo.key).data)
  let (expectedConfig, _) := configPda rt programId
  revertIf (a.configInfo.key != expectedConfig || (chain a.configInfo.key).owner != programId)
    .invalidAccountData
  revertIf (a.authority.key != config.authority) (.custom 1)
  let (expectedInvoice, invoiceBump) :=
    invoicePda rt programId invoiceId a.merchant.key a.mint.key
  revertIf (a.invoiceInfo.key != expectedInvoice) .invalidSeeds
  let expectedInvoiceAta := rt.getAssociatedTokenAddress expectedInvoice a.mint.key
  revertIf (a.invoiceAta.key != expectedInvoiceAta) .invalidAccountData
  let expectedMerchantAta := rt.getAssociatedTokenAddress a.merchant.key a.mint.key
  revertIf (a.merchantAta.key != expectedMerchantAta) .invalidAccountData
  let expectedFeeAta := rt.getAssociatedTokenAddress config.feeRecipient a.mint.key
  revertIf (a.feeAta.key != expectedFeeAta) .invalidAccountData
  let ata ← orRevert .failed (rt.unpack (chain a.invoiceAta.key).data)
  revertIf (ata.mint != a.mint.key || ata.owner != expectedInvoice) .invalidAccountData
  let amount := ata.amount
  revertIf (amount == 0) .insufficientFunds
  let fee ← feeOf amount config.feeBps
  let toMerchant := saturatingSub amount fee
  let signerSeeds :=
    [INVOICE_SEED, invoiceId.val, a.merchant.key.val, a.mint.key.val, [invoiceBump]]
  let chain ← pay rt a a.merchantAta expectedInvoice signerSeeds toMerchant chain
  let chain ← pay rt a a.feeAta expectedInvoice signerSeeds fee chain
  checkProgramAccount rt a.tokenProgram.key
  invokeSigned rt (.closeAccount a.invoiceAta.key a.rentDestination.key expectedInvoice)
    [a.invoiceAta, a.rentDestination, a.invoiceInfo, a.tokenProgram] signerSeeds chain

def processInstruction (accounts : List AccountInfo) (data : Bytes) (chain : Chain) :
    Except ProgramError Chain := do
  let ix ← orRevert .invalidInstructionData (CommerceInstruction.tryFromSlice data)
  match ix with
  | .initialize_ feeBps authority feeRecipient =>
    initialize_ rt programId accounts feeBps authority feeRecipient chain
  | .settle invoiceId => settle rt programId accounts invoiceId chain

/-! ## Events -/

-- An instruction for the program, or what happens on the chain without it.
inductive Event
  | instruction (accounts : List AccountInfo) (data : Bytes)
  | outside (change : Chain → Chain)

def step (chain : Chain) : Event → Except ProgramError Chain
  | .instruction accounts data => processInstruction rt programId accounts data chain
  | .outside change => .ok (change chain)

end OnchainInvoice.CommerceInvoice
