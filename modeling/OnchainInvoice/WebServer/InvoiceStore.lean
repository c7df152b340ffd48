import Mathlib.Data.List.Sort
import OnchainInvoice.Lib.Ranking
import OnchainInvoice.Lib.Tables

/-!
# The invoices of the web server

The invoice tables of `web-server.ts` (`SqliteInvoiceStore`) with the handlers that register, fetch
and list invoices.  A handler that has its inputs runs without a pause, so each is one step, at one
time of the clock (in milliseconds).
-/

namespace OnchainInvoice.WebServer

open Lib.Tables Lib.Ranking

/-! ## Rows -/

-- `WebInvoiceRecord`
structure InvoiceRecord (TInput TInvoice : Type) where
  id : String
  sessionId : String
  input : TInput
  invoice : TInvoice
  createdAt : Int
  updatedAt : Int
  lastAccessedAt : Int

structure InvoiceRow (TInput TInvoice : Type) extends InvoiceRecord TInput TInvoice where
  rowid : Nat

structure SessionInvoice where
  sessionId : String
  invoiceId : String
  position : Int

def SessionInvoice.key (s : SessionInvoice) : String × String := (s.sessionId, s.invoiceId)

variable {TInput TInvoice : Type}

def InvoiceRow.key (row : InvoiceRow TInput TInvoice) : String := row.id

variable (TInput TInvoice) in
structure Store where
  invoices : Table (InvoiceRow TInput TInvoice) String InvoiceRow.key
  sessionInvoices : Table SessionInvoice (String × String) SessionInvoice.key

def Store.empty : Store TInput TInvoice := ⟨.empty, .empty⟩

/-! ## Orders -/

-- `ORDER BY updated_at DESC`; equal times come in the order of the row ids.
def before (a b : InvoiceRow TInput TInvoice) : Prop :=
  b.updatedAt < a.updatedAt ∨ a.updatedAt = b.updatedAt ∧ a.rowid < b.rowid

def byUpdate (a b : InvoiceRow TInput TInvoice) : Prop :=
  b.updatedAt < a.updatedAt ∨ a.updatedAt = b.updatedAt ∧ a.rowid ≤ b.rowid

-- `ORDER BY last_accessed_at DESC`
def byAccess (a b : InvoiceRow TInput TInvoice) : Prop :=
  b.lastAccessedAt < a.lastAccessedAt ∨ a.lastAccessedAt = b.lastAccessedAt ∧ a.rowid ≤ b.rowid

instance : DecidableRel (@before TInput TInvoice) := fun _ _ =>
  inferInstanceAs (Decidable (_ ∨ _))

instance : DecidableRel (@byUpdate TInput TInvoice) := fun _ _ =>
  inferInstanceAs (Decidable (_ ∨ _))

instance : DecidableRel (@byAccess TInput TInvoice) := fun _ _ =>
  inferInstanceAs (Decidable (_ ∨ _))

/-! ## Queries and updates -/

variable (store : Store TInput TInvoice)

def nextRowid (rows : List (InvoiceRow TInput TInvoice)) : Nat :=
  rows.foldr (fun row n => max row.rowid n) 0 + 1

-- What an update makes of the row that has the id of the record.
def InvoiceRow.merge (record : InvoiceRecord TInput TInvoice)
    (old : InvoiceRow TInput TInvoice) : InvoiceRow TInput TInvoice :=
  { old with
    sessionId := record.sessionId
    input := record.input
    invoice := record.invoice
    updatedAt := record.updatedAt
    lastAccessedAt := record.lastAccessedAt }

def saveInvoice (record : InvoiceRecord TInput TInvoice) : Store TInput TInvoice :=
  { store with
    invoices := store.invoices.upsert ⟨record, nextRowid store.invoices.rows⟩
      (InvoiceRow.merge record) fun _ => rfl }

def getInvoice (invoiceId : String) : Option (InvoiceRecord TInput TInvoice) :=
  (store.invoices.find? invoiceId).map InvoiceRow.toInvoiceRecord

-- `WHERE updated_at >= ? OR last_accessed_at >= ?`, if there is a cutoff
def selected (cutoff : Option Int) (row : InvoiceRow TInput TInvoice) : Bool :=
  cutoff.all fun cutoff => cutoff ≤ row.updatedAt || cutoff ≤ row.lastAccessedAt

def listing (cutoff : Option Int) (rows : List (InvoiceRow TInput TInvoice)) :
    List (InvoiceRow TInput TInvoice) :=
  (rows.filter (selected cutoff)).insertionSort byUpdate

structure ListInvoicesResponse (TInput TInvoice : Type) where
  invoices : List (InvoiceRecord TInput TInvoice)
  nextCursor : Option Nat

def listInvoices (cutoff : Option Int) (cursor limit : Nat) :
    ListInvoicesResponse TInput TInvoice :=
  let rows := ((listing cutoff store.invoices.rows).drop cursor).take (limit + 1)
  { invoices := (rows.take limit).map InvoiceRow.toInvoiceRecord
    nextCursor := if limit < rows.length then some (cursor + limit) else none }

def trackSessionInvoice (sessionId invoiceId : String) (maxInvoicesPerSession : Nat) (now : Int) :
    Store TInput TInvoice :=
  let tracked := store.sessionInvoices.upsert ⟨sessionId, invoiceId, now⟩
    (fun old => { old with position := now }) fun _ => rfl
  let latest := ((tracked.rows.filter fun s => s.sessionId = sessionId).insertionSort
    fun a b => b.position ≤ a.position).take maxInvoicesPerSession
  { store with
    sessionInvoices := tracked.delete fun s =>
      s.sessionId = sessionId && !(latest.map SessionInvoice.invoiceId).contains s.invoiceId }

def lastAccessed (maxInvoices : Nat) (rows : List (InvoiceRow TInput TInvoice)) :
    List (InvoiceRow TInput TInvoice) :=
  (rows.insertionSort byAccess).take maxInvoices

-- A row of `session_invoices` goes with its invoice (`ON DELETE CASCADE`).
def pruneInvoices (maxInvoices : Nat) : Store TInput TInvoice :=
  let kept := (lastAccessed maxInvoices store.invoices.rows).map InvoiceRow.key
  { invoices := store.invoices.delete fun row => !kept.contains row.key
    sessionInvoices := store.sessionInvoices.delete fun s =>
      store.invoices.rows.any fun row => row.key = s.invoiceId && !kept.contains row.key }

/-! ## Handlers -/

structure Options where
  maxInvoices : Nat
  maxInvoicesPerSession : Nat

variable (options : Options)

-- `invoiceId` is what `extractInvoiceId` finds in the invoice that was calculated.
def handleRegisterInvoice (sessionId invoiceId : String) (input : TInput) (invoice : TInvoice)
    (now : Int) : Store TInput TInvoice :=
  let record : InvoiceRecord TInput TInvoice :=
    ⟨invoiceId, sessionId, input, invoice, now, now, now⟩
  let saved := saveInvoice store record
  let tracked := trackSessionInvoice saved sessionId invoiceId options.maxInvoicesPerSession now
  pruneInvoices tracked options.maxInvoices

-- `none` is the answer 404.
def handleFetchInvoice (invoiceId : String) (session : Option String) (now : Int) :
    Option (InvoiceRecord TInput TInvoice × Store TInput TInvoice) := do
  let record ← getInvoice store invoiceId
  let record := { record with lastAccessedAt := now }
  let saved := saveInvoice store record
  let tracked := session.elim saved fun sessionId =>
    trackSessionInvoice saved sessionId invoiceId options.maxInvoicesPerSession now
  some (record, tracked)

-- `none` is an absent parameter, or one that is no finite number.
def getLimit (raw : Option Int) (defaultLimit : Nat) : Nat :=
  raw.elim defaultLimit fun raw => (max 1 (min 1000 raw)).toNat

structure ListInvoicesParams where
  limit : Option Int
  cursor : Option Nat
  lookbackMs : Option Int

def handleListInvoices (params : ListInvoicesParams) (now : Int) :
    ListInvoicesResponse TInput TInvoice :=
  let limit := getLimit params.limit 500
  let cutoff := params.lookbackMs.map fun lookbackMs => now - lookbackMs
  listInvoices store cutoff (params.cursor.getD 0) limit

/-! ## What a listing shows -/

instance : Std.Asymm (@before TInput TInvoice) where
  asymm _ _ h h' := by
    unfold before at h h'
    omega

instance : IsTrans (InvoiceRow TInput TInvoice) before where
  trans _ _ _ h h' := by
    unfold before at h h' ⊢
    omega

instance : Std.Total (@byUpdate TInput TInvoice) where
  total _ _ := by
    unfold byUpdate
    omega

instance : IsTrans (InvoiceRow TInput TInvoice) byUpdate where
  trans _ _ _ h h' := by
    unfold byUpdate at h h' ⊢
    omega

instance : Std.Total (@byAccess TInput TInvoice) where
  total _ _ := by
    unfold byAccess
    omega

instance : IsTrans (InvoiceRow TInput TInvoice) byAccess where
  trans _ _ _ h h' := by
    unfold byAccess at h h' ⊢
    omega

-- The rows are kept in the order of their ids.
def Ordered (rows : List (InvoiceRow TInput TInvoice)) : Prop :=
  rows.Pairwise fun a b => a.rowid < b.rowid

variable {rows : List (InvoiceRow TInput TInvoice)} {row x : InvoiceRow TInput TInvoice}
  {cutoff : Option Int} {cursor limit maxInvoices : Nat} {store : Store TInput TInvoice}

theorem mem_listing : row ∈ listing cutoff rows ↔ row ∈ rows ∧ selected cutoff row = true := by
  unfold listing
  rw [List.mem_insertionSort, List.mem_filter]

theorem listing_perm : (listing cutoff rows).Perm (rows.filter (selected cutoff)) :=
  List.perm_insertionSort _ _

theorem listing_sorted (h : Ordered rows) : (listing cutoff rows).Pairwise before := by
  have hapart : (listing cutoff rows).Pairwise fun a b => a.rowid ≠ b.rowid := by
    apply (listing_perm.pairwise_iff fun {a b} hne => Ne.symm hne).mpr
    exact (h.filter _).imp fun hlt => Nat.ne_of_lt hlt
  have hsorted : (listing cutoff rows).Pairwise byUpdate := List.pairwise_insertionSort _ _
  apply (hsorted.and hapart).imp
  intro a b hboth
  have hle := hboth.1
  have hne := hboth.2
  unfold byUpdate at hle
  unfold before
  omega

-- How many of the rows a listing shows in front of `x`.
def ahead (cutoff : Option Int) (rows : List (InvoiceRow TInput TInvoice))
    (x : InvoiceRow TInput TInvoice) : Nat :=
  rows.countP fun row => selected cutoff row && decide (before row x)

theorem rank_listing : rank before (listing cutoff rows) x = ahead cutoff rows x := by
  rw [rank_perm listing_perm]
  unfold rank ahead
  rw [List.countP_filter]
  apply List.countP_congr
  intro row _
  rw [Bool.and_comm]

/-- The page of a listing. -/
theorem mem_listInvoices (h : Ordered store.invoices.rows)
    (hrow : row ∈ listing cutoff store.invoices.rows)
    (hcursor : cursor ≤ ahead cutoff store.invoices.rows row)
    (hlimit : ahead cutoff store.invoices.rows row < cursor + limit) :
    row.toInvoiceRecord ∈ (listInvoices store cutoff cursor limit).invoices := by
  unfold listInvoices
  dsimp only
  rw [List.take_take, Nat.min_eq_left (Nat.le_succ limit)]
  apply List.mem_map_of_mem
  apply (mem_page_iff (listing_sorted h) hrow).mpr
  rw [rank_listing]
  exact ⟨hcursor, hlimit⟩

theorem nextCursor_eq : (listInvoices store cutoff cursor limit).nextCursor =
    if cursor + limit < (listing cutoff store.invoices.rows).length then some (cursor + limit)
    else none := by
  unfold listInvoices
  dsimp only
  rw [List.length_take, List.length_drop]
  split <;> split <;> first | rfl | omega

/-! ## What the tables hold -/

theorem rowid_lt_nextRowid (h : row ∈ rows) : row.rowid < nextRowid rows := by
  unfold nextRowid
  induction rows with
  | nil => cases h
  | cons r rows ih =>
    rw [List.foldr_cons]
    rcases List.mem_cons.mp h with rfl | h
    · omega
    · have := ih h
      omega

/-- A saved record is a new row at the end, or takes the place of its old row. -/
theorem rows_saveInvoice (record : InvoiceRecord TInput TInvoice) :
    (store.invoices.find? record.id = none ∧ (saveInvoice store record).invoices.rows =
        store.invoices.rows ++ [⟨record, nextRowid store.invoices.rows⟩]) ∨
      (saveInvoice store record).invoices.rows = store.invoices.rows.map fun row =>
        if row.key = record.id then row.merge record else row := by
  unfold saveInvoice Table.upsert
  dsimp only
  cases hinsert : store.invoices.insert ⟨record, nextRowid store.invoices.rows⟩ with
  | none => exact .inr rfl
  | some t => exact .inl ⟨Table.find?_of_insert hinsert, Table.rows_insert hinsert⟩

/-- Where keys are unique, the keys of a first part of a list select that part. -/
theorem filter_keys_first {α κ : Type} [DecidableEq κ] {key : α → κ} {first rest : List α}
    (h : ((first ++ rest).map key).Nodup) :
    (first ++ rest).filter (fun a => (first.map key).contains (key a)) = first := by
  rw [List.map_append, List.nodup_append'] at h
  have hfirst : first.filter (fun a => (first.map key).contains (key a)) = first := by
    rw [List.filter_eq_self]
    intro a ha
    rw [List.contains_iff_mem]
    exact List.mem_map_of_mem ha
  have hrest : rest.filter (fun a => (first.map key).contains (key a)) = [] := by
    rw [List.filter_eq_nil_iff]
    intro a ha
    rw [List.contains_iff_mem]
    exact fun hmem => h.2.2 hmem (List.mem_map_of_mem ha)
  rw [List.filter_append, hfirst, hrest, List.append_nil]

/-- A pruned table holds the rows that were accessed last. -/
theorem rows_pruneInvoices : (pruneInvoices store maxInvoices).invoices.rows.Perm
    (lastAccessed maxInvoices store.invoices.rows) := by
  have hperm := List.perm_insertionSort byAccess store.invoices.rows
  have hnodup : ((store.invoices.rows.insertionSort byAccess).map InvoiceRow.key).Nodup :=
    (hperm.map _).nodup_iff.mpr store.invoices.nodup
  rw [← List.take_append_drop maxInvoices (store.invoices.rows.insertionSort byAccess)] at hnodup
  have hfilter := filter_keys_first hnodup
  rw [List.take_append_drop] at hfilter
  show (store.invoices.rows.filter _).Perm _
  simp only [Bool.not_not]
  exact (hperm.symm.filter _).trans (.of_eq hfilter)

end OnchainInvoice.WebServer
