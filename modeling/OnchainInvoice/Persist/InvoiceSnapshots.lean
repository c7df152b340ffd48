import OnchainInvoice.Persist.InvoiceLog
import OnchainInvoice.Server.Effects

/-!
# Snapshots of the invoice log

What is compared of an invoice and its snapshot, and which reports a snapshot follows: those of a
sweep, those of a payment that give no other sweep transaction, and those that change nothing.
-/

namespace OnchainInvoice.InvoiceLog

open Lib.EventLog Lib.Revert Lib.Tables Table Server

/-! ## What is compared -/

-- A record without the columns that the log does not keep.
def InvoiceRecord.persisted (r : InvoiceRecord) : InvoiceRecord :=
  { r with
    gasSpentWei := "0", version := 0, claimedBy := none, claimedUntil := none, updatedAt := 0 }

/-! ## When the events of a report carry what it changes -/

structure SameAmounts (invoice : Invoice) (input : TrackInvoice) : Prop where
  amountPaid : ∀ amount ∈ input.amountPaid, amount = invoice.amountPaid
  amountSwept : ∀ amount ∈ input.amountSwept, amount = invoice.amountSwept
  feeCollected : ∀ amount ∈ input.feeCollected, amount = invoice.feeCollected

-- A report of a sweep carries everything.  One of a payment leaves out the sweep transaction, and
-- every other emits nothing.
def ReportCarried (invoice : Invoice) (input : TrackInvoice) (error : Bool) : Prop :=
  let status := input.status.getD invoice.status
  if error = false ∧ status = .swept then True
  else if error = false ∧ (status = .paid ∨ status = .paidPartial) then
    ∀ sweepTx ∈ input.sweepTx, invoice.sweepTx = some sweepTx
  else status = invoice.status ∧ SameAmounts invoice input ∧
    ∀ sweepTx ∈ input.sweepTx, invoice.sweepTx = some sweepTx

/-! ## Snapshots -/

def snapshotRecord (s : InvoicePersistSnapshot) : InvoiceRecord := ⟨restoredRow 0 s, s.toQuote⟩

-- The columns that a report may change.
def InvoiceRecord.report (r : InvoiceRecord) (status : InvoiceStatus)
    (amountPaid amountSwept feeCollected : String) (sweepTx : Option String)
    (paidAt sweptAt : Option Time) : InvoiceRecord :=
  { r with
    status := status, amountPaid := amountPaid, amountSwept := amountSwept
    feeCollected := feeCollected, sweepTx := sweepTx, paidAt := paidAt, sweptAt := sweptAt }

theorem report_inj {r : InvoiceRecord} {status status' : InvoiceStatus}
    {amountPaid amountPaid' amountSwept amountSwept' feeCollected feeCollected' : String}
    {sweepTx sweepTx' : Option String} {paidAt paidAt' sweptAt sweptAt' : Option Time} :
    r.report status amountPaid amountSwept feeCollected sweepTx paidAt sweptAt =
        r.report status' amountPaid' amountSwept' feeCollected' sweepTx' paidAt' sweptAt' ↔
      status = status' ∧ amountPaid = amountPaid' ∧ amountSwept = amountSwept' ∧
        feeCollected = feeCollected' ∧ sweepTx = sweepTx' ∧ paidAt = paidAt' ∧
          sweptAt = sweptAt' := by
  simp [InvoiceRecord.report]

variable {invoice : Invoice} {quote : Quote} {s : InvoicePersistSnapshot} {input : TrackInvoice}
  {error : Bool}

/-! ## Reports -/

-- An invoice that is paid has the time at which it was, and one that is swept too.
structure Stamped (invoice : Invoice) : Prop where
  paidAt : isPaidLikeStatus invoice.status = true → invoice.paidAt.isSome
  sweptAt : invoice.status = .swept → invoice.sweptAt.isSome

theorem stamped_tracked (now : Time) : Stamped (tracked input now invoice) := by
  apply Stamped.mk
  · intro hpaid
    show (if _ ∧ _ then _ else _ : Option Time).isSome = true
    split
    · rfl
    · next hnot =>
      cases hpaidAt : invoice.paidAt with
      | none => exact absurd ⟨hpaid, hpaidAt⟩ hnot
      | some t => rfl
  · intro hswept
    show (if _ ∧ _ then _ else _ : Option Time).isSome = true
    split
    · rfl
    · next hnot =>
      cases hsweptAt : invoice.sweptAt with
      | none => exact absurd ⟨hswept, hsweptAt⟩ hnot
      | some t => rfl

theorem getD_eq_self {α : Type} {o : Option α} {a : α} : o.getD a = a ↔ ∀ b ∈ o, b = a := by
  cases o <;> simp

theorem or_eq_self {α : Type} {o o' : Option α} : o.or o' = o' ↔ ∀ b ∈ o, o' = some b := by
  cases o <;> simp [eq_comm]

theorem some_getD_of_isSome {α : Type} {o : Option α} {a : α} :
    o.isSome → some (o.getD a) = o := by
  cases o <;> simp

theorem sweepTx_tracked_iff (now : Time) : invoice.sweepTx = (tracked input now invoice).sweepTx ↔
    ∀ sweepTx ∈ input.sweepTx, invoice.sweepTx = some sweepTx :=
  eq_comm.trans or_eq_self

/-- A payment is followed if it gives no other sweep transaction. -/
theorem followed_paid (now ts : Time)
    (h : (snapshotRecord s).persisted = (InvoiceRecord.mk invoice quote).persisted)
    (hstatus : (tracked input now invoice).status = .paid ∨
      (tracked input now invoice).status = .paidPartial) :
    (snapshotRecord (paid (invoiceStatusPersistPayload ⟨tracked input now invoice, quote⟩)
        ts s)).persisted = (InvoiceRecord.mk (tracked input now invoice) quote).persisted ↔
      ∀ sweepTx ∈ input.sweepTx, invoice.sweepTx = some sweepTx := by
  let updated := tracked input now invoice
  have hpaidAt : some (updated.paidAt.getD (s.paidAt.getD ts)) = updated.paidAt := by
    apply some_getD_of_isSome
    apply (stamped_tracked now).paidAt
    rcases hstatus with hstatus | hstatus <;> rw [hstatus] <;> rfl
  have hsweptAt : invoice.sweptAt = updated.sweptAt := by
    show invoice.sweptAt = if updated.status = .swept ∧ invoice.sweptAt = none then some now
      else invoice.sweptAt
    rw [if_neg]
    rintro ⟨hswept, -⟩
    rcases hstatus with hstatus | hstatus <;> exact absurd (hstatus.symm.trans hswept) (by decide)
  have hkept : (if updated.status = .paidPartial then .paidPartial else .paid) = updated.status := by
    rcases hstatus with hstatus | hstatus <;> rw [show updated.status = _ from hstatus] <;> rfl
  calc _ ↔ (snapshotRecord s).persisted.report
          (if updated.status = .paidPartial then .paidPartial else .paid) updated.amountPaid
          updated.amountSwept updated.feeCollected (snapshotRecord s).persisted.sweepTx
          (some (updated.paidAt.getD (s.paidAt.getD ts))) (snapshotRecord s).persisted.sweptAt =
        (InvoiceRecord.mk invoice quote).persisted.report updated.status updated.amountPaid
          updated.amountSwept updated.feeCollected updated.sweepTx updated.paidAt
          updated.sweptAt := Iff.rfl
    _ ↔ invoice.sweepTx = updated.sweepTx := by
        rw [h, hpaidAt, hkept, report_inj]
        simp [InvoiceRecord.persisted, hsweptAt]
    _ ↔ _ := sweepTx_tracked_iff now

theorem followed_swept (now ts : Time)
    (h : (snapshotRecord s).persisted = (InvoiceRecord.mk invoice quote).persisted)
    (hstatus : (tracked input now invoice).status = .swept) :
    (snapshotRecord (swept (invoiceStatusPersistPayload ⟨tracked input now invoice, quote⟩)
      ts s)).persisted = (InvoiceRecord.mk (tracked input now invoice) quote).persisted := by
  let updated := tracked input now invoice
  have hstamped' : Stamped updated := stamped_tracked now
  have hpaidAt : some (updated.paidAt.getD (s.paidAt.getD ts)) = updated.paidAt := by
    apply some_getD_of_isSome
    apply hstamped'.paidAt
    rw [show updated.status = _ from hstatus]
    rfl
  have hsweptAt : some (updated.sweptAt.getD ts) = updated.sweptAt :=
    some_getD_of_isSome (hstamped'.sweptAt hstatus)
  calc _ = (snapshotRecord s).persisted.report .swept updated.amountPaid updated.amountSwept
          updated.feeCollected updated.sweepTx (some (updated.paidAt.getD (s.paidAt.getD ts)))
          (some (updated.sweptAt.getD ts)) := rfl
    _ = (InvoiceRecord.mk invoice quote).persisted.report updated.status updated.amountPaid
          updated.amountSwept updated.feeCollected updated.sweepTx updated.paidAt
          updated.sweptAt := by
        rw [h, hpaidAt, hsweptAt, ← hstatus]
    _ = _ := rfl

/-- Without an event nothing that is compared may change. -/
theorem followed_silent (now : Time) (hstamped : Stamped invoice)
    (h : (snapshotRecord s).persisted = (InvoiceRecord.mk invoice quote).persisted) :
    (snapshotRecord s).persisted = (InvoiceRecord.mk (tracked input now invoice) quote).persisted ↔
      input.status.getD invoice.status = invoice.status ∧ SameAmounts invoice input ∧
        ∀ sweepTx ∈ input.sweepTx, invoice.sweepTx = some sweepTx := by
  let updated := tracked input now invoice
  have hpaidAt : updated.status = invoice.status → updated.paidAt = invoice.paidAt := by
    intro hstatus
    apply if_neg
    rintro ⟨hpaid, hnone⟩
    have hsome := hstamped.paidAt (hstatus ▸ hpaid)
    rw [hnone] at hsome
    cases hsome
  have hsweptAt : updated.status = invoice.status → updated.sweptAt = invoice.sweptAt := by
    intro hstatus
    apply if_neg
    rintro ⟨hswept, hnone⟩
    have hsome := hstamped.sweptAt (hstatus.symm.trans hswept)
    rw [hnone] at hsome
    cases hsome
  have hamounts : SameAmounts invoice input ↔ updated.amountPaid = invoice.amountPaid ∧
      updated.amountSwept = invoice.amountSwept ∧ updated.feeCollected = invoice.feeCollected := by
    have hpaid : updated.amountPaid = invoice.amountPaid ↔ _ := getD_eq_self
    have hswept : updated.amountSwept = invoice.amountSwept ↔ _ := getD_eq_self
    have hfee : updated.feeCollected = invoice.feeCollected ↔ _ := getD_eq_self
    rw [hpaid, hswept, hfee]
    exact ⟨fun h => ⟨h.amountPaid, h.amountSwept, h.feeCollected⟩, fun h => ⟨h.1, h.2.1, h.2.2⟩⟩
  rw [h, hamounts, ← sweepTx_tracked_iff now]
  calc _ ↔ (InvoiceRecord.mk invoice quote).persisted.report invoice.status invoice.amountPaid
          invoice.amountSwept invoice.feeCollected invoice.sweepTx invoice.paidAt invoice.sweptAt =
        (InvoiceRecord.mk invoice quote).persisted.report updated.status updated.amountPaid
          updated.amountSwept updated.feeCollected updated.sweepTx updated.paidAt
          updated.sweptAt := Iff.rfl
    _ ↔ _ := by
        rw [report_inj]
        apply Iff.intro
        · rintro ⟨hstatus, hpaid, hswept, hfee, hsweepTx, -, -⟩
          exact ⟨hstatus.symm, ⟨hpaid.symm, hswept.symm, hfee.symm⟩, hsweepTx⟩
        · rintro ⟨hstatus, ⟨hpaid, hswept, hfee⟩, hsweepTx⟩
          exact ⟨hstatus.symm, hpaid.symm, hswept.symm, hfee.symm, hsweepTx,
            (hpaidAt hstatus).symm, (hsweptAt hstatus).symm⟩

-- What the events of a report make of the snapshot.
def follow (error : Bool) (updated : InvoiceRecord) (ts : Time) (s : InvoicePersistSnapshot) :
    InvoicePersistSnapshot :=
  if error = false ∧ updated.status = .swept then swept (invoiceStatusPersistPayload updated) ts s
  else if error = false ∧ (updated.status = .paid ∨ updated.status = .paidPartial) then
    paid (invoiceStatusPersistPayload updated) ts s
  else s

/-- After a report the snapshot agrees with the row exactly if the events carry the report. -/
theorem follow_iff (now ts : Time) (hstamped : Stamped invoice)
    (h : (snapshotRecord s).persisted = (InvoiceRecord.mk invoice quote).persisted) :
    (snapshotRecord (follow error ⟨tracked input now invoice, quote⟩ ts s)).persisted =
        (InvoiceRecord.mk (tracked input now invoice) quote).persisted ↔
      ReportCarried invoice input error := by
  unfold follow ReportCarried
  show _ ↔ if error = false ∧ (tracked input now invoice).status = .swept then True
    else if error = false ∧ ((tracked input now invoice).status = .paid ∨
      (tracked input now invoice).status = .paidPartial) then _ else _
  dsimp only
  split
  · next hswept => exact iff_true_intro (followed_swept now ts h hswept.2)
  · split
    · next hpaid => exact followed_paid now ts h hpaid.2
    · exact followed_silent now hstamped h

end OnchainInvoice.InvoiceLog
