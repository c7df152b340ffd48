import Mathlib.Data.List.Sort
import OnchainInvoice.Lib.Tables

/-!
# The cache of the sweep node

The tables of `cache.ts` that a sweep pass reads and writes.  Invoice ids are normalized before they
are stored, so a chain and a stored id are the key of an invoice.
-/

namespace OnchainInvoice.SweepPass

open Lib.Tables

abbrev Key := String × String

/-! ## Rows -/

-- `SweepNodeInvoice`; numbers are stored as their texts.
structure Invoice where
  chainId : String
  invoiceId : String
  invoiceAddress : String
  data : String
  token : Option String
  amount : Option String
  minAmount : Option String
deriving DecidableEq

def Invoice.key (invoice : Invoice) : Key := (invoice.chainId, invoice.invoiceId)

structure InvoiceRow where
  invoice : Invoice
  updatedAt : Nat
  lastCheckedAt : Option Nat

def InvoiceRow.key (row : InvoiceRow) : Key := row.invoice.key

structure PaidInvoice where
  chainId : String
  invoiceId : String
  token : String
  amount : String
  forwarder : String
  txHash : String
  logIndex : Nat
  blockNumber : Option Nat
  timestamp : Option Nat

def PaidInvoice.key (paid : PaidInvoice) : Key := (paid.chainId, paid.invoiceId)

inductive AttemptStatus
  | swept | skipped | failed
deriving DecidableEq

structure SweepAttempt where
  key : Key
  status : AttemptStatus
  txId : Option String
  error : Option String

structure Cache where
  invoices : Table InvoiceRow Key InvoiceRow.key
  paidInvoices : Table PaidInvoice Key PaidInvoice.key
  sweepAttempts : List SweepAttempt

def Cache.empty : Cache := ⟨.empty, .empty, []⟩

/-! ## Queries and updates -/

variable (cache : Cache)

-- `last_checked_at` is not among the columns that an update sets.
def upsertInvoice (now : Nat) (invoice : Invoice) : Cache :=
  let merge (old : InvoiceRow) : InvoiceRow :=
    if old.key = invoice.key then { old with invoice := invoice, updatedAt := now } else old
  { cache with
    invoices := cache.invoices.upsert ⟨invoice, now, none⟩ merge fun old => by
      show (if old.key = invoice.key then _ else old).key = old.key
      split
      · next h => exact h.symm
      · rfl }

def getInvoice (key : Key) : Option Invoice := (cache.invoices.find? key).map InvoiceRow.invoice

def upsertPaidInvoice (paid : PaidInvoice) : Cache :=
  { cache with paidInvoices := cache.paidInvoices.set paid }

def getPaidInvoice (key : Key) : Option PaidInvoice := cache.paidInvoices.find? key

def isPaid (key : Key) : Bool := (getPaidInvoice cache key).isSome

def recordSweepAttempt (attempt : SweepAttempt) : Cache :=
  { cache with sweepAttempts := cache.sweepAttempts ++ [attempt] }

def markInvoiceChecked (now : Nat) (key : Key) : Cache :=
  { cache with
    invoices := cache.invoices.modify key (fun row => { row with lastCheckedAt := some now })
      fun _ => rfl }

def hasSuccessfulSweep (key : Key) : Bool :=
  cache.sweepAttempts.any fun attempt => attempt.key = key && attempt.status = .swept

-- `ORDER BY updated_at DESC LIMIT ?`
def newest (limit : Nat) (rows : List InvoiceRow) : List Invoice :=
  ((rows.insertionSort fun a b => b.updatedAt ≤ a.updatedAt).take limit).map InvoiceRow.invoice

def listInvoicesByChain (chainId : String) (limit : Nat) : List Invoice :=
  newest limit (cache.invoices.rows.filter fun row => row.invoice.chainId = chainId)

def awaiting (chainId : String) : List InvoiceRow :=
  cache.invoices.rows.filter fun row =>
    row.invoice.chainId = chainId && !hasSuccessfulSweep cache row.key

def listAwaitingSweepInvoices (chainId : String) (limit : Nat) : List Invoice :=
  newest limit (awaiting cache chainId)

/-! ## Lists -/

variable {cache : Cache} {limit : Nat} {rows : List InvoiceRow} {invoice : Invoice} {chainId : String}
  {key : Key} {attempt : SweepAttempt}

theorem mem_of_mem_newest (h : invoice ∈ newest limit rows) :
    ∃ row ∈ rows, row.invoice = invoice := by
  unfold newest at h
  rcases List.mem_map.mp h with ⟨row, hrow, rfl⟩
  exact ⟨row, (List.mem_insertionSort _).mp (List.mem_of_mem_take hrow), rfl⟩

/-- A list that is no longer than the limit is listed as a whole. -/
theorem mem_newest {row : InvoiceRow} (hrow : row ∈ rows) (hlimit : rows.length ≤ limit) :
    row.invoice ∈ newest limit rows := by
  unfold newest
  rw [List.take_of_length_le (by rwa [List.length_insertionSort])]
  exact List.mem_map_of_mem ((List.mem_insertionSort _).mpr hrow)

theorem nodup_newest (h : (rows.map InvoiceRow.key).Nodup) :
    ((newest limit rows).map Invoice.key).Nodup := by
  unfold newest
  rw [List.map_map]
  have hsorted : ((rows.insertionSort fun a b => b.updatedAt ≤ a.updatedAt).map
      InvoiceRow.key).Nodup :=
    ((List.perm_insertionSort _ rows).map _).nodup_iff.mpr h
  exact hsorted.sublist ((List.take_sublist ..).map _)

theorem mem_awaiting {row : InvoiceRow} : row ∈ awaiting cache chainId ↔
    row ∈ cache.invoices.rows ∧ row.invoice.chainId = chainId ∧
      hasSuccessfulSweep cache row.key = false := by
  unfold awaiting
  rw [List.mem_filter, Bool.and_eq_true, decide_eq_true_iff, Bool.not_eq_true']

theorem nodup_listAwaiting : ((listAwaitingSweepInvoices cache chainId limit).map
    Invoice.key).Nodup := by
  apply nodup_newest
  exact cache.invoices.nodup.sublist (List.filter_sublist.map _)

theorem not_swept_of_listed (h : invoice ∈ listAwaitingSweepInvoices cache chainId limit) :
    hasSuccessfulSweep cache invoice.key = false := by
  rcases mem_of_mem_newest h with ⟨row, hrow, rfl⟩
  exact (mem_awaiting.mp hrow).2.2

theorem hasSuccessfulSweep_iff : hasSuccessfulSweep cache key = true ↔
    ∃ attempt ∈ cache.sweepAttempts, attempt.key = key ∧ attempt.status = .swept := by
  simp [hasSuccessfulSweep]

end OnchainInvoice.SweepPass
