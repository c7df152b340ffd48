import OnchainInvoice.Lib.Runs
import OnchainInvoice.Server.CommerceDb

/-!
# What the calls do to the rows

One lemma for each call of the database: when it is accepted, and what it leaves.
-/

namespace OnchainInvoice.Server

open Lib.Revert Lib.Tables Table

variable {db db' : CommerceDb} {invoice invoice' : Invoice} {id : String}

theorem getInvoice_of_find? (h : db.invoices.find? id = some invoice) :
    getInvoice db id = some invoice := by
  unfold getInvoice
  rw [h]

/-! ## Creating -/

/-- A creation answers with the invoice its key is bound to, or makes a new one. -/
inductive Creates (db : CommerceDb) (input : CreateInvoice) (now : Time) :
    Invoice × Bool → CommerceDb → Prop
  | again {invoice : Invoice} (hprior : prior db input = some invoice) :
      Creates db input now (invoice, false) db
  | anew {seed : String} {invoices : Table Invoice String Invoice.id}
      (hprior : prior db input = none)
      (hinvoices : db.invoices.insert (newInvoice input seed now) = some invoices) :
      Creates db input now (newInvoice input seed now, true) ⟨invoices, bindKey db input⟩

theorem createInvoice_eq_ok {input : CreateInvoice} {now : Time} {answer : Invoice × Bool}
    (h : createInvoice db input now = .ok (answer, db')) : Creates db input now answer db' := by
  unfold createInvoice at h
  cases hprior : prior db input with
  | some invoice =>
    simp only [hprior, pure_eq_ok, Prod.mk.injEq] at h
    rw [← h.1, ← h.2]
    exact .again hprior
  | none =>
    cases hexisting : getInvoice db input.invoiceId with
    | some existing => simp [hprior, hexisting, bind, Except.bind] at h
    | none =>
      simp only [hprior, hexisting, bind_eq_ok, orRevert_eq_ok, pure_eq_ok, Prod.mk.injEq] at h
      obtain ⟨seed, -, invoices, hinvoices, hanswer, hdb⟩ := h
      rw [← hanswer, ← hdb]
      exact .anew hprior hinvoices

/-! ## Claiming -/

theorem claimInvoice_eq_ok {input : ClaimInvoice} {now : Time} :
    claimInvoice db input now = .ok (invoice', db') ↔
      ∃ invoice, db.invoices.find? input.invoiceId = some invoice ∧
        claimable invoice input now = true ∧ claimed input now invoice = invoice' ∧
        { db with invoices :=
          db.invoices.modify input.invoiceId (claimed input now) fun _ => rfl } = db' := by
  unfold claimInvoice
  cases h : db.invoices.find? input.invoiceId with
  | none => simp
  | some invoice =>
    cases hclaimable : claimable invoice input now with
    | false => simp [Option.filter, hclaimable]
    | true => simp [Option.filter, hclaimable]

/-! ## Tracking -/

-- What a report is checked against.
structure Trackable (invoice : Invoice) (input : TrackInvoice) (now : Time) : Prop where
  version : ∀ version ∈ input.expectedVersion, some invoice.version = version
  lease : input.status = some .swept → ∀ sweeper ∈ input.sweeperAddress, sweeper ≠ "" →
    claimedByAnother invoice sweeper now = false

theorem trackable_iff {input : TrackInvoice} {now : Time} : Trackable invoice input now ↔
    (input.expectedVersion.any fun version => some invoice.version ≠ version) = false ∧
      decide (input.status = some .swept ∧ (input.sweeperAddress.filter (· ≠ "")).any fun sweeper =>
        claimedByAnother invoice sweeper now) = false := by
  have hversion : (∀ version ∈ input.expectedVersion, some invoice.version = version) ↔
      (input.expectedVersion.any fun version => some invoice.version ≠ version) = false := by
    cases input.expectedVersion <;> simp
  have hlease : (input.status = some .swept → ∀ sweeper ∈ input.sweeperAddress, sweeper ≠ "" →
        claimedByAnother invoice sweeper now = false) ↔
      decide (input.status = some .swept ∧ (input.sweeperAddress.filter (· ≠ "")).any
        fun sweeper => claimedByAnother invoice sweeper now) = false := by
    cases input.sweeperAddress with
    | none => simp
    | some sweeper => by_cases hempty : sweeper = "" <;> simp [Option.filter, hempty]
  rw [← hversion, ← hlease]
  apply Iff.intro
  · intro h
    exact ⟨h.version, h.lease⟩
  · rintro ⟨h, h'⟩
    exact ⟨h, h'⟩

theorem trackInvoice_eq_ok {input : TrackInvoice} {now : Reads} :
    trackInvoice db input now = .ok (invoice', db') ↔
      ∃ invoice, db.invoices.find? input.invoiceId = some invoice ∧
        Trackable invoice input now.check ∧ tracked input now.write invoice = invoice' ∧
        { db with invoices :=
          db.invoices.modify input.invoiceId (tracked input now.write) fun _ => rfl } = db' := by
  unfold trackInvoice
  simp only [bind_eq_ok, orRevert_eq_ok, revertIf_eq_ok, pure_eq_ok, exists_const, Prod.mk.injEq]
  apply Iff.intro
  · rintro ⟨current, hcurrent, hversion, hlease, invoice, hinvoice, htracked, hdb⟩
    rw [getInvoice_of_find? hinvoice] at hcurrent
    cases hcurrent
    exact ⟨current, hinvoice, trackable_iff.mpr ⟨hversion, hlease⟩, htracked, hdb⟩
  · rintro ⟨invoice, hinvoice, htrackable, htracked, hdb⟩
    obtain ⟨hversion, hlease⟩ := trackable_iff.mp htrackable
    exact ⟨invoice, getInvoice_of_find? hinvoice, hversion, hlease, invoice, hinvoice, htracked, hdb⟩

/-! ## Calls -/

inductive Call
  | claim (input : ClaimInvoice) (now : Time)
  | track (input : TrackInvoice) (now : Reads)

def Call.invoiceId : Call → String
  | .claim input _ => input.invoiceId
  | .track input _ => input.invoiceId

-- When the call first and last reads the clock.
def Call.starts : Call → Time
  | .claim _ now => now
  | .track _ now => now.check

def Call.ends : Call → Time
  | .claim _ now => now
  | .track _ now => now.write

def step (db : CommerceDb) : Call → Except HttpError CommerceDb
  | .claim input now => Prod.snd <$> claimInvoice db input now
  | .track input now => Prod.snd <$> trackInvoice db input now

-- What an accepted call turns its row into.
def Call.update : Call → Invoice → Invoice
  | .claim input now => claimed input now
  | .track input now => tracked input now.write

-- What a call is checked against.
def Accepts (invoice : Invoice) : Call → Prop
  | .claim input now => claimable invoice input now = true
  | .track input now => Trackable invoice input now.check

theorem id_update (c : Call) (invoice : Invoice) : (c.update invoice).id = invoice.id := by
  cases c <;> rfl

/-- A call is accepted if its invoice exists and passes the checks, and changes that row only. -/
theorem step_eq_ok {c : Call} : step db c = .ok db' ↔
    ∃ invoice, db.invoices.find? c.invoiceId = some invoice ∧ Accepts invoice c ∧
      { db with invoices := db.invoices.modify c.invoiceId c.update (id_update c) } = db' := by
  cases c with
  | claim input now =>
    simp only [step, map_eq_ok, Prod.exists, claimInvoice_eq_ok]
    apply Iff.intro
    · rintro ⟨_, _, ⟨invoice, hinvoice, haccepts, -, rfl⟩, rfl⟩
      exact ⟨invoice, hinvoice, haccepts, rfl⟩
    · rintro ⟨invoice, hinvoice, haccepts, rfl⟩
      exact ⟨_, _, ⟨invoice, hinvoice, haccepts, rfl, rfl⟩, rfl⟩
  | track input now =>
    simp only [step, map_eq_ok, Prod.exists, trackInvoice_eq_ok]
    apply Iff.intro
    · rintro ⟨_, _, ⟨invoice, hinvoice, haccepts, -, rfl⟩, rfl⟩
      exact ⟨invoice, hinvoice, haccepts, rfl⟩
    · rintro ⟨invoice, hinvoice, haccepts, rfl⟩
      exact ⟨_, _, ⟨invoice, hinvoice, haccepts, rfl, rfl⟩, rfl⟩

theorem find?_step {c : Call} (h : step db c = .ok db') (id : String) :
    ∃ invoice, db.invoices.find? c.invoiceId = some invoice ∧ Accepts invoice c ∧
      db'.invoices.find? id =
        if id = c.invoiceId then some (c.update invoice) else db.invoices.find? id := by
  obtain ⟨invoice, hinvoice, haccepts, rfl⟩ := step_eq_ok.mp h
  refine ⟨invoice, hinvoice, haccepts, ?_⟩
  rw [find?_modify]
  split
  · rename_i hid
    rw [hid, hinvoice]
    rfl
  · rfl

/-! ## A database with one invoice -/

def toyFields : PayLinkFields where
  price := "25"
  to_ := ["0xM"]
  chains := ["8453"]
  tokens := ["USDC"]
  invoiceSeed := some "seed"
  clientInvoiceId := none
  callback := some "https://shop.example/webhook"
  title := none
  description := none
  allowPartial := false
  paymentMode := .crypto
  displayFiat := none
  displayAmount := none

def toyInvoice : Invoice :=
  newInvoice ⟨"id", toyFields, "8453", "USDC", "0xM", some "0xI", none, none⟩ "seed" 0

def CommerceDb.toy : CommerceDb := ⟨⟨[toyInvoice], List.nodup_singleton _⟩, fun _ => none⟩

end OnchainInvoice.Server
