import Mathlib.Data.Rat.Floor
import OnchainInvoice.Lib.EventLog
import OnchainInvoice.Server.Routes

/-!
# The invoice log

The events that `createInvoice` and `trackInvoice` of `db.ts` append to the persist log, and
`invoice-persist-replay.ts`, which rebuilds the invoices from them.
-/

namespace OnchainInvoice.InvoiceLog

open Lib.Tables Server

/-! ## Records -/

-- The columns of an invoice that `Invoice` leaves out.
structure Quote where
  quoteCountry : Option String
  quotePaymentMethod : Option String
  quoteProvider : Option String
  quoteSlippageBps : Option Int
  lang : Option String
deriving DecidableEq, Repr

def Quote.empty : Quote := ⟨none, none, none, none, none⟩

-- `InvoiceRecord`
structure InvoiceRecord extends Invoice, Quote
deriving DecidableEq, Repr

-- The quotes are kept by the id of their invoice.
structure InvoiceDb where
  commerce : CommerceDb
  quotes : String → Quote

def InvoiceDb.empty : InvoiceDb := ⟨⟨Table.empty, fun _ => none⟩, fun _ => Quote.empty⟩

def InvoiceDb.find? (db : InvoiceDb) (invoiceId : String) : Option InvoiceRecord :=
  (db.commerce.invoices.find? invoiceId).map fun invoice => ⟨invoice, db.quotes invoiceId⟩

/-! ## Events -/

inductive EventType
  | invoiceCreated | invoicePaid | invoiceSwept
deriving DecidableEq, Repr

-- `none` for a field that is missing or null.
structure InvoicePersistPayload where
  invoiceId : Option String := none
  invoiceSeed : Option String := none
  clientInvoiceId : Option String := none
  priceUsd : Option String := none
  toAddresses : Option (List String) := none
  selectedTo : Option String := none
  chainId : Option String := none
  token : Option String := none
  invoiceAddress : Option String := none
  title : Option String := none
  description : Option String := none
  callbackUrl : Option String := none
  allowPartial : Option Bool := none
  paymentMode : Option PaymentMode := none
  displayFiat : Option String := none
  displayAmount : Option String := none
  quoteCountry : Option String := none
  quotePaymentMethod : Option String := none
  quoteProvider : Option String := none
  quoteSlippageBps : Option Int := none
  lang : Option String := none
  status : Option InvoiceStatus := none
  amountPaid : Option String := none
  amountSwept : Option String := none
  feeCollected : Option String := none
  gasSpentWei : Option String := none
  sweepTx : Option String := none
  createdAt : Option Time := none
  paidAt : Option Time := none
  sweptAt : Option Time := none

structure PersistLogEvent where
  ts : Time
  type : EventType
  payload : InvoicePersistPayload

def invoiceCreatedPersistPayload (invoice : InvoiceRecord) : InvoicePersistPayload where
  invoiceId := some invoice.id
  invoiceSeed := some invoice.invoiceSeed
  clientInvoiceId := some invoice.clientInvoiceId
  priceUsd := some invoice.priceUsd
  toAddresses := some invoice.toAddresses
  selectedTo := invoice.selectedTo
  chainId := invoice.chainId
  token := invoice.token
  invoiceAddress := invoice.invoiceAddress
  title := invoice.title
  description := invoice.description
  callbackUrl := invoice.callbackUrl
  allowPartial := some invoice.allowPartial
  paymentMode := some invoice.paymentMode
  displayFiat := invoice.displayFiat
  displayAmount := invoice.displayAmount
  quoteCountry := invoice.quoteCountry
  quotePaymentMethod := invoice.quotePaymentMethod
  quoteProvider := invoice.quoteProvider
  quoteSlippageBps := invoice.quoteSlippageBps
  lang := invoice.lang
  createdAt := some invoice.createdAt

def invoiceStatusPersistPayload (invoice : InvoiceRecord) : InvoicePersistPayload where
  invoiceId := some invoice.id
  status := some invoice.status
  amountPaid := some invoice.amountPaid
  amountSwept := some invoice.amountSwept
  feeCollected := some invoice.feeCollected
  gasSpentWei := some invoice.gasSpentWei
  sweepTx := invoice.sweepTx
  paidAt := invoice.paidAt
  sweptAt := invoice.sweptAt

/-! ## The live database -/

-- What `PayLinkFields` has beside the fields of the model of that name; a number that is not finite
-- counts as none.
structure QuoteFields where
  quoteCountry : Option String
  quotePaymentMethod : Option String
  quoteProvider : Option String
  quoteSlippageBps : Option ℚ
  lang : Option String
deriving DecidableEq

-- `Math.round`
def round (q : ℚ) : Int := ⌊q + 1 / 2⌋

def QuoteFields.stored (fields : QuoteFields) : Quote where
  quoteCountry := fields.quoteCountry.map fun s => lowerCase (Server.trim s)
  quotePaymentMethod := fields.quotePaymentMethod.map fun s => lowerCase (Server.trim s)
  quoteProvider := fields.quoteProvider.map fun s => lowerCase (Server.trim s)
  quoteSlippageBps := fields.quoteSlippageBps.map round
  lang := (fields.lang.map Server.trim).filter (· ≠ "")

-- The two display columns are trimmed as they are stored.
def trimmed (input : CreateInvoice) : CreateInvoice :=
  { input with fields := { input.fields with
      displayFiat := input.fields.displayFiat.map fun s => upperCase (Server.trim s)
      displayAmount := input.fields.displayAmount.map Server.trim } }

-- `ts` is the clock when the event is appended.
def createInvoice (db : InvoiceDb) (input : CreateInvoice) (fields : QuoteFields) (now ts : Time) :
    Except HttpError (InvoiceDb × List PersistLogEvent) := do
  let ((invoice, created), commerce) ← Server.createInvoice db.commerce (trimmed input) now
  if created then
    let quote := fields.stored
    return (⟨commerce, Function.update db.quotes invoice.id quote⟩,
      [⟨ts, .invoiceCreated, invoiceCreatedPersistPayload ⟨invoice, quote⟩⟩])
  else
    return (⟨commerce, db.quotes⟩, [])

def claimInvoice (db : InvoiceDb) (input : ClaimInvoice) (now : Time) :
    Except HttpError InvoiceDb := do
  let (_, commerce) ← Server.claimInvoice db.commerce input now
  return ⟨commerce, db.quotes⟩

-- `error` says whether the report carries an error.
def statusEvents (error : Bool) (updated : InvoiceRecord) (ts : Time) : List PersistLogEvent :=
  if !error ∧ (updated.status = .paid ∨ updated.status = .paidPartial) then
    [⟨ts, .invoicePaid, invoiceStatusPersistPayload updated⟩]
  else if !error ∧ updated.status = .swept then
    [⟨ts, .invoiceSwept, invoiceStatusPersistPayload updated⟩]
  else []

def trackInvoice (db : InvoiceDb) (input : TrackInvoice) (error : Bool) (now : Reads) (ts : Time) :
    Except HttpError (InvoiceDb × List PersistLogEvent) := do
  let (updated, commerce) ← Server.trackInvoice db.commerce input now
  return (⟨commerce, db.quotes⟩, statusEvents error ⟨updated, db.quotes updated.id⟩ ts)

inductive Call where
  | create (input : CreateInvoice) (fields : QuoteFields) (now ts : Time)
  | claim (input : ClaimInvoice) (now : Time)
  | track (input : TrackInvoice) (error : Bool) (now : Reads) (ts : Time)

-- What a call leaves and what it emits; a rejected one does neither.
def step (db : InvoiceDb) : Call → InvoiceDb × List PersistLogEvent
  | .create input fields now ts =>
    match createInvoice db input fields now ts with
    | .ok answer => answer
    | .error _ => (db, [])
  | .claim input now =>
    match claimInvoice db input now with
    | .ok db' => (db', [])
    | .error _ => (db, [])
  | .track input error now ts =>
    match trackInvoice db input error now ts with
    | .ok answer => answer
    | .error _ => (db, [])

/-! ## The replay -/

structure InvoicePersistSnapshot extends Quote where
  invoiceId : String
  invoiceSeed : String
  clientInvoiceId : String
  priceUsd : String
  toAddresses : List String
  selectedTo : Option String
  chainId : Option String
  token : Option String
  invoiceAddress : Option String
  title : Option String
  description : Option String
  callbackUrl : Option String
  allowPartial : Bool
  paymentMode : PaymentMode
  displayFiat : Option String
  displayAmount : Option String
  status : InvoiceStatus
  amountPaid : String
  amountSwept : String
  feeCollected : String
  gasSpentWei : String
  sweepTx : Option String
  createdAt : Option Time
  paidAt : Option Time
  sweptAt : Option Time
  sawPaid : Bool
  sawSwept : Bool

abbrev InvoicePersistState :=
  Table InvoicePersistSnapshot String InvoicePersistSnapshot.invoiceId

def emptyInvoicePersistState : InvoicePersistState := Table.empty

def created (invoiceId : String) (p : InvoicePersistPayload) (ts : Time) :
    InvoicePersistSnapshot where
  invoiceId := invoiceId
  invoiceSeed := p.invoiceSeed.getD ""
  clientInvoiceId := p.clientInvoiceId.getD ""
  priceUsd := p.priceUsd.getD "0"
  toAddresses := p.toAddresses.getD []
  selectedTo := p.selectedTo
  chainId := p.chainId
  token := p.token
  invoiceAddress := p.invoiceAddress
  title := p.title
  description := p.description
  callbackUrl := p.callbackUrl
  allowPartial := p.allowPartial.getD false
  paymentMode := p.paymentMode.getD .crypto
  displayFiat := p.displayFiat
  displayAmount := p.displayAmount
  quoteCountry := p.quoteCountry
  quotePaymentMethod := p.quotePaymentMethod
  quoteProvider := p.quoteProvider
  quoteSlippageBps := p.quoteSlippageBps
  lang := p.lang
  status := .awaitingPayment
  amountPaid := "0"
  amountSwept := "0"
  feeCollected := "0"
  gasSpentWei := "0"
  sweepTx := none
  createdAt := some (p.createdAt.getD ts)
  paidAt := none
  sweptAt := none
  sawPaid := false
  sawSwept := false

def paid (p : InvoicePersistPayload) (ts : Time) (current : InvoicePersistSnapshot) :
    InvoicePersistSnapshot :=
  { current with
    status := if p.status.getD .paid = .paidPartial then .paidPartial else .paid
    amountPaid := p.amountPaid.getD current.amountPaid
    amountSwept := p.amountSwept.getD current.amountSwept
    feeCollected := p.feeCollected.getD current.feeCollected
    gasSpentWei := p.gasSpentWei.getD current.gasSpentWei
    paidAt := some (p.paidAt.getD (current.paidAt.getD ts))
    sawPaid := true }

def swept (p : InvoicePersistPayload) (ts : Time) (current : InvoicePersistSnapshot) :
    InvoicePersistSnapshot :=
  { current with
    status := .swept
    amountPaid := p.amountPaid.getD current.amountPaid
    amountSwept := p.amountSwept.getD current.amountSwept
    feeCollected := p.feeCollected.getD current.feeCollected
    gasSpentWei := p.gasSpentWei.getD current.gasSpentWei
    sweepTx := p.sweepTx
    paidAt := some (p.paidAt.getD (current.paidAt.getD ts))
    sweptAt := some (p.sweptAt.getD ts)
    sawPaid := true
    sawSwept := true }

def applyInvoicePersistEvent (state : InvoicePersistState) (evt : PersistLogEvent) :
    InvoicePersistState :=
  let p := evt.payload
  let invoiceId := p.invoiceId.getD ""
  if invoiceId = "" then state
  else
    match evt.type with
    | .invoiceCreated => state.set (created invoiceId p evt.ts)
    | .invoicePaid => state.modify invoiceId (paid p evt.ts) fun _ => rfl
    | .invoiceSwept => state.modify invoiceId (swept p evt.ts) fun _ => rfl

-- The row that `restorePersistedInvoice` inserts.
def restoredRow (now : Time) (invoice : InvoicePersistSnapshot) : Invoice where
  id := invoice.invoiceId
  invoiceSeed := invoice.invoiceSeed
  clientInvoiceId := invoice.clientInvoiceId
  priceUsd := invoice.priceUsd
  toAddresses := invoice.toAddresses
  selectedTo := invoice.selectedTo
  chainId := invoice.chainId
  token := invoice.token
  invoiceAddress := invoice.invoiceAddress
  title := invoice.title
  description := invoice.description
  callbackUrl := invoice.callbackUrl
  allowPartial := invoice.allowPartial
  paymentMode := invoice.paymentMode
  displayFiat := invoice.displayFiat
  displayAmount := invoice.displayAmount
  status := invoice.status
  amountPaid := invoice.amountPaid
  amountSwept := invoice.amountSwept
  feeCollected := invoice.feeCollected
  gasSpentWei := invoice.gasSpentWei
  sweepTx := invoice.sweepTx
  paySessionId := none
  version := 1
  claimedBy := none
  claimedUntil := none
  createdAt := invoice.createdAt.getD now
  updatedAt := now
  paidAt := invoice.paidAt
  sweptAt := invoice.sweptAt

-- `ON CONFLICT(id)` keeps the pay session and the time of creation and counts the version up.
def restorePersistedInvoice (db : InvoiceDb) (now : Time) (invoice : InvoicePersistSnapshot) :
    InvoiceDb :=
  let row := restoredRow now invoice
  { commerce := { db.commerce with
      invoices := db.commerce.invoices.upsert row
        (fun old => { row with
          id := old.id, paySessionId := old.paySessionId, version := old.version + 1
          createdAt := old.createdAt })
        fun _ => rfl }
    quotes := Function.update db.quotes row.id invoice.toQuote }

-- Each invoice is restored at an instant of its own.
def applyInvoicePersistStateToDb (clock : String → Time) (db : InvoiceDb)
    (state : InvoicePersistState) : InvoiceDb :=
  state.rows.foldl
    (fun db invoice => restorePersistedInvoice db (clock invoice.invoiceId) invoice) db

def replayInvoicePersistState (events : List PersistLogEvent) : InvoicePersistState :=
  Lib.EventLog.replay applyInvoicePersistEvent emptyInvoicePersistState events

end OnchainInvoice.InvoiceLog
