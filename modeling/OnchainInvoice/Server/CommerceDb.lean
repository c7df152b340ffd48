import Mathlib.Data.List.Sort
import OnchainInvoice.Lib.Casing
import OnchainInvoice.Lib.Revert
import OnchainInvoice.Lib.Tables

/-!
# Invoices in the database

The invoice tables of `db.ts` (`CommerceDb`): creation under an idempotency key, the list a sweeper
polls, the claim lease and the tracking of reports.  Times are stored as ISO text of a fixed width,
which compares as the times do.
-/

namespace OnchainInvoice.Server

open Lib.Revert Lib.Tables

/-! ## Records -/

inductive InvoiceStatus
  | created | awaitingPayment | paid | paidPartial | swept
deriving DecidableEq, Repr

inductive PaymentMode
  | crypto | cryptoOrFiat | fiat
deriving DecidableEq, Repr

-- Milliseconds.
abbrev Time := Int

-- A JavaScript number where only integers can be equal to anything.
abbrev Number := Option Int

structure PayLinkFields where
  price : String
  to_ : List String
  chains : List String
  tokens : List String
  invoiceSeed : Option String
  clientInvoiceId : Option String
  callback : Option String
  title : Option String
  description : Option String
  allowPartial : Bool
  paymentMode : PaymentMode
  displayFiat : Option String
  displayAmount : Option String
deriving DecidableEq, Repr

-- `InvoiceRow`, which `mapInvoice` turns into an `InvoiceRecord` of the same fields.
structure Invoice where
  id : String
  invoiceSeed : String
  clientInvoiceId : String
  priceUsd : String
  toAddresses : List String
  selectedTo : Option String
  chainId : Option String
  token : Option String
  invoiceAddress : Option String
  title : Option String
  description : Option String
  callbackUrl : Option String
  allowPartial : Bool
  paymentMode : PaymentMode
  displayFiat : Option String
  displayAmount : Option String
  status : InvoiceStatus
  amountPaid : String
  amountSwept : String
  feeCollected : String
  gasSpentWei : String
  sweepTx : Option String
  paySessionId : Option String
  version : Int
  claimedBy : Option String
  claimedUntil : Option Time
  createdAt : Time
  updatedAt : Time
  paidAt : Option Time
  sweptAt : Option Time
deriving DecidableEq, Repr

-- An error answer; a conflict carries the invoice as it is.
structure HttpError where
  message : String
  statusCode : Nat
  invoice : Option Invoice
deriving DecidableEq, Repr

def httpError (statusCode : Nat) (message : String) : HttpError := ⟨message, statusCode, none⟩

structure CommerceDb where
  invoices : Table Invoice String Invoice.id
  idempotencyKeys : String → Option String

variable (db : CommerceDb)

/-! ## Reading -/

-- `toLowerCase`
def lowerCase (s : String) : String := String.ofList (Lib.Casing.lower s.toList)

-- `lower` of SQLite, which knows the ASCII letters only
def sqlLower (s : String) : String := String.ofList (s.toList.map Char.toLower)

-- `ORDER BY updated_at DESC LIMIT 1`
def latest : List Invoice → Option Invoice
  | [] => none
  | invoice :: rest =>
    match latest rest with
    | some other => if invoice.updatedAt < other.updatedAt then some other else some invoice
    | none => some invoice

def getInvoice (invoiceId : String) : Option Invoice :=
  match db.invoices.find? invoiceId with
  | some invoice => some invoice
  | none => latest (db.invoices.rows.filter fun invoice =>
      invoice.invoiceAddress.map sqlLower = some (sqlLower invoiceId))

-- The order of the texts `awaiting_payment`, `created`, `paid`, `paid_partial` and `swept`.
def InvoiceStatus.rank : InvoiceStatus → Nat
  | .awaitingPayment => 0
  | .created => 1
  | .paid => 2
  | .paidPartial => 3
  | .swept => 4

-- The order in which `idx_invoices_status` gives the rows: of one status, as they were inserted.
def byStatus (invoices : List Invoice) : List Invoice :=
  invoices.insertionSort fun a b => a.status.rank ≤ b.status.rank

-- `ORDER BY updated_at ASC`, keeping the order of equal times.
def byUpdatedAt (invoices : List Invoice) : List Invoice :=
  invoices.insertionSort fun a b => a.updatedAt ≤ b.updatedAt

def LIMIT : Nat := 250

def workerStatuses : List InvoiceStatus := [.awaitingPayment, .paid, .paidPartial]

-- `chains` is `none` for a sweeper that is registered for all chains.
def listWorkerInvoices (statuses : List InvoiceStatus) (chains : Option (List String)) :
    List Invoice :=
  let onChain (invoice : Invoice) : Bool :=
    match chains with
    | some chains => invoice.chainId.any (· ∈ chains)
    | none => true
  (byUpdatedAt (byStatus (db.invoices.rows.filter fun invoice =>
    invoice.status ∈ statuses ∧ onChain invoice))).take LIMIT

/-! ## Creating -/

structure CreateInvoice where
  invoiceId : String
  fields : PayLinkFields
  chainId : String
  token : String
  selectedTo : String
  invoiceAddress : Option String
  paySessionId : Option String
  idempotencyKey : Option String
deriving DecidableEq, Repr

def newInvoice (input : CreateInvoice) (invoiceSeed : String) (now : Time) : Invoice where
  id := input.invoiceId
  invoiceSeed := invoiceSeed
  clientInvoiceId := input.fields.clientInvoiceId.getD ""
  priceUsd := input.fields.price
  toAddresses := input.fields.to_
  selectedTo := some input.selectedTo
  chainId := some input.chainId
  token := some input.token
  invoiceAddress := input.invoiceAddress
  title := input.fields.title
  description := input.fields.description
  callbackUrl := input.fields.callback
  allowPartial := input.fields.allowPartial
  paymentMode := input.fields.paymentMode
  displayFiat := input.fields.displayFiat
  displayAmount := input.fields.displayAmount
  status := .awaitingPayment
  amountPaid := "0"
  amountSwept := "0"
  feeCollected := "0"
  gasSpentWei := "0"
  sweepTx := none
  paySessionId := input.paySessionId
  version := 1
  claimedBy := none
  claimedUntil := none
  createdAt := now
  updatedAt := now
  paidAt := none
  sweptAt := none

-- A key counts when it is not empty.
def givenKey (input : CreateInvoice) : Option String := input.idempotencyKey.filter (· ≠ "")

-- The invoice that the key of the request is bound to, if it still exists.
def prior (input : CreateInvoice) : Option Invoice :=
  ((givenKey input).bind db.idempotencyKeys).bind (getInvoice db)

def alreadyExists (invoice : Option Invoice) : HttpError :=
  ⟨"Invoice id already exists", 409, invoice⟩

-- `INSERT … ON CONFLICT(key) DO NOTHING`
def bindKey (input : CreateInvoice) : String → Option String :=
  match givenKey input with
  | none => db.idempotencyKeys
  | some key =>
    if (db.idempotencyKeys key).isSome then db.idempotencyKeys
    else Function.update db.idempotencyKeys key (some input.invoiceId)

-- The answer says whether the invoice is new.
def createInvoice (input : CreateInvoice) (now : Time) :
    Except HttpError ((Invoice × Bool) × CommerceDb) := do
  if let some invoice := prior db input then
    return ((invoice, false), db)
  if let some existing := getInvoice db input.invoiceId then
    throw (alreadyExists (some existing))
  let invoiceSeed ← orRevert (httpError 500 "invoiceSeed is required")
    (input.fields.invoiceSeed.filter (· ≠ ""))
  let invoice := newInvoice input invoiceSeed now
  let invoices ← orRevert (alreadyExists (getInvoice db input.invoiceId)) (db.invoices.insert invoice)
  return ((invoice, true), ⟨invoices, bindKey db input⟩)

/-! ## Claiming -/

structure ClaimInvoice where
  invoiceId : String
  sweeperAddress : String
  expectedVersion : Number
  leaseMs : Int
deriving DecidableEq, Repr

-- The `WHERE` of the claim, for the row with the id.
def claimable (invoice : Invoice) (input : ClaimInvoice) (now : Time) : Bool :=
  some invoice.version = input.expectedVersion ∧
    invoice.status ∈ [InvoiceStatus.awaitingPayment, .paid, .paidPartial] ∧
    (invoice.claimedBy = none ∨ invoice.claimedBy = some input.sweeperAddress ∨
      invoice.claimedUntil = none ∨ ∃ claimedUntil ∈ invoice.claimedUntil, claimedUntil < now)

def claimed (input : ClaimInvoice) (now : Time) (invoice : Invoice) : Invoice :=
  { invoice with
    claimedBy := some input.sweeperAddress
    claimedUntil := some (now + input.leaseMs)
    version := invoice.version + 1
    updatedAt := now }

def claimInvoice (input : ClaimInvoice) (now : Time) : Except HttpError (Invoice × CommerceDb) :=
  match (db.invoices.find? input.invoiceId).filter fun invoice => claimable invoice input now with
  | some invoice =>
    .ok (claimed input now invoice,
      { db with invoices := db.invoices.modify input.invoiceId (claimed input now) fun _ => rfl })
  | none => .error ⟨"Claim conflict", 409, getInvoice db input.invoiceId⟩

/-! ## Tracking -/

structure TrackInvoice where
  invoiceId : String
  status : Option InvoiceStatus
  amountPaid : Option String
  amountSwept : Option String
  feeCollected : Option String
  gasSpentWei : Option String
  sweepTx : Option String
  expectedVersion : Option Number
  sweeperAddress : Option String
deriving DecidableEq, Repr

-- The clock when the lease is looked at and when the row is written.
structure Reads where
  check : Time
  write : Time
  ordered : check ≤ write

-- Another sweeper holds a lease that ends after `now`.
def claimedByAnother (invoice : Invoice) (sweeperAddress : String) (now : Time) : Bool :=
  match invoice.claimedBy, invoice.claimedUntil with
  | some claimedBy, some claimedUntil =>
    claimedBy ≠ "" ∧ lowerCase claimedBy ≠ lowerCase sweeperAddress ∧ now < claimedUntil
  | _, _ => false

def isPaidLikeStatus : InvoiceStatus → Bool
  | .paid | .paidPartial | .swept => true
  | .created | .awaitingPayment => false

def tracked (input : TrackInvoice) (now : Time) (invoice : Invoice) : Invoice :=
  let status := input.status.getD invoice.status
  { invoice with
    status := status
    amountPaid := input.amountPaid.getD invoice.amountPaid
    amountSwept := input.amountSwept.getD invoice.amountSwept
    feeCollected := input.feeCollected.getD invoice.feeCollected
    gasSpentWei := input.gasSpentWei.getD invoice.gasSpentWei
    sweepTx := input.sweepTx.or invoice.sweepTx
    paidAt := if isPaidLikeStatus status ∧ invoice.paidAt = none then some now else invoice.paidAt
    sweptAt := if status = .swept ∧ invoice.sweptAt = none then some now else invoice.sweptAt
    version := invoice.version + 1
    updatedAt := now
    claimedBy := if status = .swept then none else invoice.claimedBy
    claimedUntil := if status = .swept then none else invoice.claimedUntil }

def versionConflict (invoice : Option Invoice) : HttpError := ⟨"Version conflict", 409, invoice⟩

def trackInvoice (input : TrackInvoice) (now : Reads) : Except HttpError (Invoice × CommerceDb) := do
  let current ← orRevert (httpError 404 "Invoice not found") (getInvoice db input.invoiceId)
  revertIf (input.expectedVersion.any fun version => some current.version ≠ version)
    (versionConflict (some current))
  let sweeperAddress := input.sweeperAddress.filter (· ≠ "")
  revertIf (input.status = some .swept ∧
      sweeperAddress.any fun sweeper => claimedByAnother current sweeper now.check)
    ⟨"Invoice claimed by another sweeper", 409, some current⟩
  -- `current` may have been found by its address, but the update goes by the id.
  let row ← orRevert (versionConflict (getInvoice db input.invoiceId))
    (db.invoices.find? input.invoiceId)
  return (tracked input now.write row,
    { db with
      invoices := db.invoices.modify input.invoiceId (tracked input now.write) fun _ => rfl })

end OnchainInvoice.Server
