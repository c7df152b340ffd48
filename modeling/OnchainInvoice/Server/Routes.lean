import OnchainInvoice.Server.CommerceDb

/-!
# The invoice routes

`createInvoice` and `applyTrack` of `routes.ts` over the database, with what they use of
`invoice.ts`, `payment-mode.ts` and `commerce-addresses.ts`.
-/

namespace OnchainInvoice.Server

open Lib.Revert Lib.Tables

/-! ## Text -/

-- `trim`, `split(",")` and `toUpperCase`
def trim (s : String) : String :=
  String.ofList (Lib.Trimming.trimmed Lib.Casing.isWhite s.toList)

def splitList (s : String) : List String :=
  ((s.toList.splitOn ',').map fun item => trim (String.ofList item)).filter (· ≠ "")

def upperCase (s : String) : String := String.ofList (Lib.Casing.upper s.toList)

/-! ## Chains and payment modes -/

inductive ChainKind
  | evm | tron | solana
deriving DecidableEq, Repr

def chainKind (chainId : String) : ChainKind :=
  if chainId ∈ ["nile", "shasta", "tron", "3448148188", "2494104990", "728126428"] then .tron
  else if chainId ∈ ["devnet", "mainnet-beta", "solana", "solana-devnet"] then .solana
  else .evm

def tokenAllowedOnChain (chainId token : String) : Bool :=
  let symbol := upperCase (trim token)
  match chainKind chainId with
  | .tron => symbol = "USDT"
  | .solana => symbol ∈ ["USDC", "USDT"]
  | .evm => if chainId = "8453" then symbol = "USDC" else symbol ∈ ["USDC", "USDT"]

def PAY_IN_CHAIN_ID : String := "8453"
def PAY_IN_TOKEN : String := "USDC"

def isPayInSettlement (chainId token : String) : Bool :=
  chainId = PAY_IN_CHAIN_ID ∧ upperCase (trim token) = PAY_IN_TOKEN

def parsePaymentMode : Option String → Except HttpError PaymentMode
  | none | some "" | some "crypto" => .ok .crypto
  | some "crypto_or_fiat" => .ok .cryptoOrFiat
  | some "fiat" => .ok .fiat
  | some value => .error (httpError 400 ("Invalid paymentMode: " ++ value))

def paymentModeAllowsFiat : PaymentMode → Bool
  | .fiat | .cryptoOrFiat => true
  | .crypto => false

/-! ## Requests -/

-- The properties of a JSON body that are not null, each as `String(value)`; a list is joined by
-- commas.
abbrev Body := String → Option String

-- The configuration and the address libraries.  `none` where a library call throws.
structure Env where
  onrampEnabled : Bool
  evmTokens : String → Option (List String)
  normalizeMerchantAddress : String → Option String
  getAddress : String → Option String
  addressesEqual : String → String → Bool
  looksLikeSolanaAddress : String → Bool
  isHexAddress : String → Bool
  getCommerceInvoiceId : String → List String → Option String

variable (env : Env)

-- A parameter that is absent or blank counts as missing.
def optionalParam (value : Option String) : Option String := (value.map trim).filter (· ≠ "")

def parseBoolean (value : Option String) : Bool :=
  match value with
  | none => false
  | some value => value = "1" ∨ lowerCase value = "true" ∨ lowerCase value = "yes"

-- A thrown `Error` without a status code is answered with 500.
def thrown (message : String) : HttpError := httpError 500 message

-- `normalizePayLinkFields`, which goes through `decodePayLink`.  A seed is never taken over.
def normalizePayLinkFields (body : Body) : Except HttpError PayLinkFields := do
  let normalizeTo (value : String) : String :=
    ((env.normalizeMerchantAddress value).or (env.getAddress value)).getD value
  let paymentMode ← parsePaymentMode
    (optionalParam ((body "paymentMode").or (body "payment_mode")))
  let price ← orRevert (thrown "Missing pay-link parameter: price") (optionalParam (body "price"))
  return {
    price := price
    to_ := (splitList ((body "to").getD "")).map normalizeTo
    chains := splitList ((body "chains").getD "11155111")
    tokens := (splitList ((body "tokens").getD "USDC")).map upperCase
    invoiceSeed := none
    clientInvoiceId := optionalParam ((body "clientInvoiceId").or (body "client_invoice_id"))
    callback := optionalParam (body "callback")
    title := optionalParam (body "title")
    description := optionalParam (body "description")
    allowPartial := parseBoolean ((body "allowPartial").or (body "allow_partial"))
    paymentMode := paymentMode
    displayFiat := (optionalParam ((body "displayFiat").or (body "display_fiat"))).map upperCase
    displayAmount := optionalParam ((body "displayAmount").or (body "display_amount")) }

def assertPaymentModeAllowed (paymentMode : PaymentMode) (fields : PayLinkFields) :
    Except HttpError Unit := do
  if paymentMode = .crypto then return ()
  revertIf (!env.onrampEnabled)
    (httpError 400 "Card and bank payments are not enabled on this instance")
  revertIf (!(fields.chains.any (· = PAY_IN_CHAIN_ID) &&
      fields.tokens.any fun token => upperCase token = PAY_IN_TOKEN))
    (httpError 400 "Fiat invoices settle as USDC on Base")
  revertIf (!fields.to_.any env.isHexAddress)
    (httpError 400 "Fiat invoices require an EVM merchant address")

def assertTokenChainPair (chainId token : String) : Except HttpError Unit := do
  revertIf (!tokenAllowedOnChain chainId token)
    (httpError 400 ("Token " ++ token ++ " is not allowed on chain " ++ chainId))
  if chainKind chainId ≠ .evm then return ()
  let symbol := upperCase (trim token)
  match env.evmTokens chainId with
  | none => return ()
  | some tokens =>
    revertIf (symbol ∉ tokens)
      (httpError 400 ("Token " ++ symbol ++ " is not configured for EVM chain " ++ chainId))

def startsWith (s start : String) : Bool := start.toList.isPrefixOf s.toList

-- Whether an address can be of the chain.
def fitsChain (kind : ChainKind) (address : String) : Bool :=
  match kind with
  | .tron => startsWith address "T"
  | .solana => env.looksLikeSolanaAddress address
  | .evm => startsWith address "0x"

def wrongChain : ChainKind → HttpError
  | .tron => httpError 400 "selectedTo must be a Tron address for Nile/Tron chains"
  | .evm => httpError 400 "selectedTo must be an EVM address for this chain"
  | .solana => httpError 400 "selectedTo must be a Solana address for this chain"

def pickDefaultTo (fields : PayLinkFields) (chainId : String) : Option String :=
  (fields.to_.find? (fitsChain env (chainKind chainId))).or fields.to_.head?

def resolveSelectedTo (body : Body) (fields : PayLinkFields) (chainId : String) :
    Except HttpError String := do
  let raw := ((body "selectedTo").or
    ((body "selected_to").or (pickDefaultTo env fields chainId))).getD ""
  let selectedTo ← orRevert (httpError 400 "selectedTo is not a valid merchant address")
    (env.normalizeMerchantAddress raw)
  revertIf (!fields.to_.any fun value => env.addressesEqual value selectedTo)
    (httpError 400 "selectedTo is not in the pay-link merchant address list")
  revertIf (!fitsChain env (chainKind chainId) selectedTo) (wrongChain (chainKind chainId))
  return selectedTo

/-! ## `createInvoice` -/

-- A request that waits for the address of its invoice.
structure Prepared where
  invoiceId : String
  fields : PayLinkFields
  chainId : String
  token : String
  selectedTo : String
deriving DecidableEq, Repr

def isUpperCode (s : String) : Bool := s.length = 3 ∧ s.toList.all Char.isUpper

-- The handler from the captcha to the address, with the seed it draws.
def prepare (body : Body) (seed : String) : Except HttpError Prepared := do
  revertIf ((body "invoiceSeed").isSome || (body "invoice_seed").isSome)
    (httpError 400 "invoiceSeed is server-assigned; do not provide it in the request")
  let paymentMode ← parsePaymentMode ((body "paymentMode").or (body "payment_mode"))
  let payIn : Body := fun name =>
    if name = "price" then some (((body "price").or (body "priceUsd")).getD "0")
    else if name = "chains" then some PAY_IN_CHAIN_ID
    else if name = "tokens" then some PAY_IN_TOKEN
    else body name
  let baseFields ← normalizePayLinkFields env
    (if paymentModeAllowsFiat paymentMode then payIn else body)
  assertPaymentModeAllowed env paymentMode baseFields
  let displayFiat :=
    (optionalParam ((body "displayFiat").or (body "display_fiat"))).map upperCase
  let displayAmount := optionalParam ((body "displayAmount").or (body "display_amount"))
  revertIf (baseFields.price = "" ∨ baseFields.price = "0") (httpError 400 "price is required")
  revertIf (displayAmount.isSome && displayFiat.isNone)
    (httpError 400 "displayFiat is required when displayAmount is set")
  revertIf (displayFiat.any fun code => !isUpperCode code)
    (httpError 400 "displayFiat must be a 3-letter currency code")
  let fields := { baseFields with
    invoiceSeed := some seed
    paymentMode := paymentMode
    displayFiat := displayFiat.or baseFields.displayFiat
    displayAmount := displayAmount.or baseFields.displayAmount }
  let payInOr (name : String) (value : Option String) : Option String :=
    if paymentModeAllowsFiat paymentMode then some name else value
  let chainId := (payInOr PAY_IN_CHAIN_ID
    ((body "chainId").or ((body "chain_id").or fields.chains.head?))).getD "undefined"
  let token := upperCase ((payInOr PAY_IN_TOKEN
    ((body "token").or fields.tokens.head?)).getD "undefined")
  assertTokenChainPair env chainId token
  revertIf (paymentModeAllowsFiat paymentMode && !isPayInSettlement chainId token)
    (httpError 400 "Fiat invoices settle as USDC on Base")
  let selectedTo ← resolveSelectedTo env body fields chainId
  let invoiceId ← orRevert (thrown "Invalid merchant address")
    (env.getCommerceInvoiceId seed fields.to_)
  return ⟨invoiceId, fields, chainId, token, selectedTo⟩

-- The handler from the address on.
def Prepared.create (p : Prepared) (invoiceAddress paySessionId idempotencyKey : Option String) :
    CreateInvoice :=
  ⟨p.invoiceId, p.fields, p.chainId, p.token, p.selectedTo, invoiceAddress, paySessionId,
    idempotencyKey⟩

/-! ## `applyTrack` -/

-- The body of a report; `status` and `expectedVersion` are `none` when they are left out.
structure TrackBody where
  invoiceId : Option String
  status : Option String
  amountPaid : Option String
  amountSwept : Option String
  feeCollected : Option String
  gasSpentWei : Option String
  sweepTx : Option String
  expectedVersion : Option Number
deriving DecidableEq, Repr

def parseInvoiceStatus : Option String → Except HttpError (Option InvoiceStatus)
  | none => .ok none
  | some "created" => .ok (some .created)
  | some "awaiting_payment" => .ok (some .awaitingPayment)
  | some "paid" => .ok (some .paid)
  | some "paid_partial" => .ok (some .paidPartial)
  | some "swept" => .ok (some .swept)
  | some _ => .error (httpError 400 "Invalid invoice status")

-- What `postCallback` sends: the address and the invoice.
structure Callback where
  url : String
  invoice : Invoice
deriving DecidableEq, Repr

-- The callback is due on a transition into a paid-like status.
def callbackDue (before : Option Invoice) (invoice : Invoice) : Option Callback :=
  let becamePaidLike := isPaidLikeStatus invoice.status ∧
    ∀ b ∈ before, isPaidLikeStatus b.status = false ∨ b.status ≠ invoice.status
  if becamePaidLike then (invoice.callbackUrl.filter (· ≠ "")).map fun url => ⟨url, invoice⟩
  else none

def TrackBody.input (body : TrackBody) (invoiceId : String) (status : Option InvoiceStatus)
    (sweeperAddress : Option String) : TrackInvoice where
  invoiceId := invoiceId
  status := status
  amountPaid := body.amountPaid
  amountSwept := body.amountSwept
  feeCollected := body.feeCollected
  gasSpentWei := body.gasSpentWei
  sweepTx := body.sweepTx
  expectedVersion := body.expectedVersion
  sweeperAddress := sweeperAddress

def applyTrack (db : CommerceDb) (body : TrackBody) (sweeperAddress : Option String) (now : Reads) :
    Except HttpError (Option Callback × CommerceDb) := do
  let invoiceId ← orRevert (httpError 400 "invoiceId is required") body.invoiceId
  let before := getInvoice db invoiceId
  let status ← parseInvoiceStatus body.status
  let (invoice, db) ← trackInvoice db (body.input invoiceId status sweeperAddress) now
  return (callbackDue before invoice, db)

end OnchainInvoice.Server
