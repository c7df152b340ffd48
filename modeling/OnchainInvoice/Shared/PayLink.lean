import OnchainInvoice.Lib.UrlEncoding
import OnchainInvoice.Persist.PersistLog

/-!
# Pay links

`decodePayLink` and `encodePayLink` of `invoice.ts`, with what they use of `payment-mode.ts` and of
`commerce-addresses.ts`.  Texts are lists of characters.  The address libraries, the case mappings
and the numbers are parameters.
-/

namespace OnchainInvoice.PayLink

open Lib.UrlEncoding
open Persist (trim)
open Lib.Casing (isWhite)

abbrev Text := List Char

/-- What is called outside the repository, with `none` where it throws.  `N` is the numbers, of
which `===` sees only one zero. -/
structure Outside (N : Type) where
  getAddress : Text → Option Text
  tronIsAddress : Text → Bool
  -- `new PublicKey(value).toBase58()`
  publicKey : Text → Option Text
  toUpperCase : Text → Text
  toLowerCase : Text → Text
  -- `Number(value)`, `String(value)`, `Math.round` and `Number.isFinite`
  number : Text → N
  numberText : N → Text
  round : N → N
  isFinite : N → Bool

/-! ## Parameters -/

def get (params : Pairs) (name : String) : Option Text :=
  (params.find? fun pair => pair.1 = name.toList).map Prod.snd

-- The first pair of the name is changed and the others go, or a pair is added.
def set (params : Pairs) (name : String) (value : Text) : Pairs :=
  match params with
  | [] => [(name.toList, value)]
  | pair :: params =>
    if pair.1 = name.toList then
      (name.toList, value) :: params.filter fun other => other.1 ≠ name.toList
    else pair :: set params name value

def setSome (params : Pairs) (name : String) : Option Text → Pairs
  | some value => set params name value
  | none => params

-- `if (value) params.set(name, value)`
def setIf (params : Pairs) (name : String) (value : Option Text) : Pairs :=
  setSome params name (value.filter (· ≠ []))

inductive RecordValue
  -- `undefined` or `null`
  | absent
  | list (items : List Text)
  | text (value : Text)

def join (items : List Text) : Text := [','].intercalate items

def objectToSearchParams (input : List (String × RecordValue)) : Pairs :=
  input.foldl (fun params entry =>
    match entry.2 with
    | .absent => params
    | .list items => set params entry.1 (join items)
    | .text value => set params entry.1 value) []

inductive PayLinkInput
  | query (input : Text)
  | params (input : Pairs)
  | record (input : List (String × RecordValue))

-- `new URLSearchParams(input)` leaves out a question mark in front.
def urlSearchParams (input : Text) : Pairs :=
  if input.head? = some '?' then parse input.tail else parse input

def PayLinkInput.searchParams : PayLinkInput → Pairs
  | .query input => urlSearchParams (if input.head? = some '?' then input.tail else input)
  | .params input => input
  | .record input => objectToSearchParams input

/-! ## Errors -/

inductive PayLinkError
  -- `Missing pay-link parameter: ${name}`
  | missingParameter (name : String)
  -- `Invalid paymentMode: ${value}`
  | invalidPaymentMode (value : Text)
deriving DecidableEq

inductive AddressError
  -- "Merchant address is required"
  | required
  -- `Invalid Tron merchant address: ${value}`
  | invalidTron (value : Text)
  -- `Invalid merchant address: ${value}`
  | invalid (value : Text)
  -- what `getAddress` and `PublicKey` throw
  | getAddress
  | publicKey
deriving DecidableEq

/-! ## Reading a parameter -/

def splitList (value : Option Text) : List Text :=
  (((value.getD []).splitOn ',').map trim).filter (· ≠ [])

-- What is left of the parameter, if anything is.
def optionalParam (params : Pairs) (name : String) : Option Text :=
  ((get params name).map trim).filter (· ≠ [])

def requiredParam (params : Pairs) (name : String) : Except PayLinkError Text :=
  match optionalParam params name with
  | some value => .ok value
  | none => .error (.missingParameter name)

-- An optional parameter is never empty, so `||` and `??` are the same.
def eitherParam (params : Pairs) (name camelCase : String) : Option Text :=
  (optionalParam params name).or (optionalParam params camelCase)

inductive PaymentMode
  | crypto | cryptoOrFiat | fiat
deriving DecidableEq

def PaymentMode.text : PaymentMode → Text
  | .crypto => "crypto".toList
  | .cryptoOrFiat => "crypto_or_fiat".toList
  | .fiat => "fiat".toList

def parsePaymentMode : Option Text → Except PayLinkError PaymentMode
  | none => .ok .crypto
  | some value =>
    if value = PaymentMode.crypto.text then .ok .crypto
    else if value = PaymentMode.cryptoOrFiat.text then .ok .cryptoOrFiat
    else if value = PaymentMode.fiat.text then .ok .fiat
    else if value = [] then .ok .crypto
    else .error (.invalidPaymentMode value)

/-! ## Addresses -/

-- `[1-9A-HJ-NP-Za-km-z]`
def isBase58 (c : Char) : Bool :=
  ('1' ≤ c && c ≤ '9') || ('A' ≤ c && c ≤ 'H') || ('J' ≤ c && c ≤ 'N') || ('P' ≤ c && c ≤ 'Z') ||
    ('a' ≤ c && c ≤ 'k') || ('m' ≤ c && c ≤ 'z')

def startsWith (value : Text) (start : String) : Bool := start.toList.isPrefixOf value

def looksLikeTronAddress (value : Text) : Bool :=
  match trim value with
  | c :: rest => c = 'T' && rest.length = 33 && rest.all isBase58
  | [] => false

variable {N : Type} (out : Outside N)

def looksLikeSolanaAddress (value : Text) : Bool :=
  let trimmed := trim value
  if !(32 ≤ trimmed.length && trimmed.length ≤ 44 && trimmed.all isBase58) then false
  else if startsWith trimmed "T" && trimmed.length = 34 then false
  else (out.publicKey trimmed).isSome

def isTronAddress (value : Text) : Bool :=
  let trimmed := trim value
  if !looksLikeTronAddress trimmed then false else out.tronIsAddress trimmed

def getAddress (value : Text) : Except AddressError Text :=
  match out.getAddress value with
  | some address => .ok address
  | none => .error .getAddress

def normalizeMerchantAddress (value : Text) : Except AddressError Text :=
  let trimmed := trim value
  if trimmed = [] then .error .required
  else if startsWith trimmed "0x" || startsWith trimmed "0X" then getAddress out trimmed
  else if looksLikeTronAddress trimmed then
    if !isTronAddress out trimmed then .error (.invalidTron value) else .ok trimmed
  else if looksLikeSolanaAddress out trimmed then
    match out.publicKey trimmed with
    | some address => .ok address
    | none => .error .publicKey
  else .error (.invalid value)

-- The callback of `decodePayLink`, which keeps what no reading accepts.
def normalizeTo (value : Text) : Text :=
  match normalizeMerchantAddress out value with
  | .ok address => address
  | .error _ =>
    match getAddress out value with
    | .ok address => address
    | .error _ => value

/-! ## Fields -/

structure PayLinkFields (N : Type) where
  price : Text
  to_ : List Text
  chains : List Text
  tokens : List Text
  invoiceSeed : Option Text
  clientInvoiceId : Option Text
  callback : Option Text
  title : Option Text
  description : Option Text
  allowPartial : Bool
  paymentMode : PaymentMode
  displayFiat : Option Text
  displayAmount : Option Text
  quoteCountry : Option Text
  quotePaymentMethod : Option Text
  quoteProvider : Option Text
  quoteSlippageBps : Option N
  lang : Option Text

def DEFAULT_CHAIN : Text := "11155111".toList
def DEFAULT_TOKEN : Text := "USDC".toList

def parseBoolean (value : Option Text) : Bool :=
  match value with
  | none => false
  | some value =>
    if value = [] then false
    else value = "1".toList || out.toLowerCase value = "true".toList ||
      out.toLowerCase value = "yes".toList

def decodePayLink (input : PayLinkInput) : Except PayLinkError (PayLinkFields N) := do
  let params := input.searchParams
  let to_ := (splitList (get params "to")).map (normalizeTo out)
  let seed := optionalParam params "invoice_seed"
  let paymentMode ← parsePaymentMode (eitherParam params "payment_mode" "paymentMode")
  let price ← requiredParam params "price"
  return {
    price := price
    to_ := to_
    chains := splitList (some ((get params "chains").getD DEFAULT_CHAIN))
    tokens := (splitList (some ((get params "tokens").getD DEFAULT_TOKEN))).map out.toUpperCase
    invoiceSeed := seed
    clientInvoiceId := optionalParam params "client_invoice_id"
    callback := optionalParam params "callback"
    title := optionalParam params "title"
    description := optionalParam params "description"
    allowPartial := parseBoolean out (get params "allow_partial")
    paymentMode := paymentMode
    displayFiat := (eitherParam params "display_fiat" "displayFiat").map out.toUpperCase
    displayAmount := eitherParam params "display_amount" "displayAmount"
    quoteCountry := (eitherParam params "quote_country" "quoteCountry").map out.toLowerCase
    quotePaymentMethod :=
      (eitherParam params "quote_payment_method" "quotePaymentMethod").map out.toLowerCase
    quoteProvider := (eitherParam params "quote_provider" "quoteProvider").map out.toLowerCase
    quoteSlippageBps :=
      (eitherParam params "quote_slippage_bps" "quoteSlippageBps").map out.number
    lang := eitherParam params "lang" "locale" }

-- The default is not written.
def modeText (fields : PayLinkFields N) : Option Text :=
  if fields.paymentMode ≠ .crypto then some fields.paymentMode.text else none

-- The number as it is written, unless it is not finite.
def slippageText (fields : PayLinkFields N) : Option Text :=
  (fields.quoteSlippageBps.filter out.isFinite).map fun bps => out.numberText (out.round bps)

def encodeParams (fields : PayLinkFields N) : Pairs :=
  let params := set [] "price" fields.price
  let params := set params "to" (join fields.to_)
  let params := set params "chains" (join fields.chains)
  let params := set params "tokens" (join fields.tokens)
  let params := setIf params "client_invoice_id" fields.clientInvoiceId
  let params := setIf params "callback" fields.callback
  let params := setIf params "title" fields.title
  let params := setIf params "description" fields.description
  let params := set params "allow_partial" (if fields.allowPartial then ['1'] else ['0'])
  let params := setSome params "payment_mode" (modeText fields)
  let params := setIf params "display_fiat" fields.displayFiat
  let params := setIf params "display_amount" fields.displayAmount
  let params := setIf params "quote_country" fields.quoteCountry
  let params := setIf params "quote_payment_method" fields.quotePaymentMethod
  let params := setIf params "quote_provider" fields.quoteProvider
  let params := setSome params "quote_slippage_bps" (slippageText out fields)
  setIf params "lang" fields.lang

def encodePayLink (fields : PayLinkFields N) : Text := serialize (encodeParams out fields)

end OnchainInvoice.PayLink
