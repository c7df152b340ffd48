import OnchainInvoice.Server.Effects
import OnchainInvoice.Server.Routes

/-!
# Reports and callbacks

A report may carry any status, and the server takes over what it says.  Runs of reports that never go
back keep what the merchant relies on, and it takes such runs.
-/

namespace OnchainInvoice.Server

open Lib.Revert Lib.Runs Lib.Tables Table

/-! ## Runs of reports -/

structure Report where
  body : TrackBody
  sweeperAddress : Option String
  now : Reads

-- The database and the callbacks that have been posted.
structure World where
  db : CommerceDb
  posted : List Callback

def report (w : World) (r : Report) : Except HttpError World := do
  let (callback, db) ← applyTrack w.db r.body r.sweeperAddress r.now
  return ⟨db, w.posted ++ callback.toList⟩

-- The call of the database that a report makes.
def Report.input (r : Report) (invoiceId : String) (status : Option InvoiceStatus) : TrackInvoice :=
  r.body.input invoiceId status r.sweeperAddress

/-- A report that is taken is a call of the database. -/
theorem applyTrack_eq_ok {db db' : CommerceDb} {body : TrackBody} {sweeperAddress : Option String}
    {now : Reads} {callback : Option Callback}
    (h : applyTrack db body sweeperAddress now = .ok (callback, db')) :
    ∃ id status invoice, body.invoiceId = some id ∧ parseInvoiceStatus body.status = .ok status ∧
      db.invoices.find? id = some invoice ∧
      callback = callbackDue (some invoice)
        (tracked (body.input id status sweeperAddress) now.write invoice) ∧
      step db (.track (body.input id status sweeperAddress) now) = .ok db' := by
  unfold applyTrack at h
  simp only [bind_eq_ok, orRevert_eq_ok, pure_eq_ok] at h
  obtain ⟨id, hid, status, hstatus, ⟨invoice', db''⟩, htrack, hcallback⟩ := h
  cases hcallback
  obtain ⟨invoice, hfound, -, hrow, -⟩ := trackInvoice_eq_ok.mp htrack
  refine ⟨id, status, invoice, hid, hstatus, hfound, ?_, map_eq_ok.mpr ⟨_, htrack, rfl⟩⟩
  have hbefore : getInvoice db id = some invoice := getInvoice_of_find? hfound
  rw [hbefore, hrow]

variable {w w' : World} {r : Report} {invoice invoice' : Invoice} {id : String}

-- An accepted report: the invoice it is about, the status it says, and what it makes of the row.
structure Reported (w w' : World) (r : Report) (id : String) (status : Option InvoiceStatus)
    (invoice invoice' : Invoice) : Prop where
  invoiceId : r.body.invoiceId = some id
  parsed : parseInvoiceStatus r.body.status = .ok status
  found : w.db.invoices.find? id = some invoice
  row : invoice' = tracked (r.input id status) r.now.write invoice
  find? : ∀ id', w'.db.invoices.find? id' =
    if id' = id then some invoice' else w.db.invoices.find? id'
  posted : w'.posted = w.posted ++ (callbackDue (some invoice) invoice').toList

theorem report_eq_ok (h : report w r = .ok w') :
    ∃ id status invoice invoice', Reported w w' r id status invoice invoice' := by
  unfold report at h
  obtain ⟨⟨callback, db⟩, happly, hw⟩ := bind_eq_ok.mp h
  rw [pure_eq_ok] at hw
  subst hw
  obtain ⟨id, status, invoice, hid, hstatus, hfound, rfl, hstep⟩ := applyTrack_eq_ok happly
  refine ⟨id, status, invoice, _, hid, hstatus, hfound, rfl, ?_, rfl⟩
  intro id'
  obtain ⟨row, hrow, -, hfind⟩ := find?_step hstep id'
  have hsame : invoice = row := Option.some.inj (hfound.symm.trans hrow)
  rw [hsame]
  exact hfind

/-! ## Monotone reports -/

def rank : InvoiceStatus → Nat
  | .created => 0
  | .awaitingPayment => 1
  | .paidPartial => 2
  | .paid => 3
  | .swept => 4

theorem rank_injective {a b : InvoiceStatus} (h : rank a = rank b) : a = b := by
  cases a <;> cases b <;> first | rfl | exact absurd h (by decide)

-- The status does not go back, and a sweep on record stays on record.
structure Keeps (invoice invoice' : Invoice) : Prop where
  status : rank invoice.status ≤ rank invoice'.status
  sweepTx : invoice.status = .swept → ∀ tx ∈ invoice.sweepTx, tx ∈ invoice'.sweepTx

theorem Keeps.refl (invoice : Invoice) : Keeps invoice invoice := ⟨le_refl _, fun _ _ h => h⟩

theorem eq_swept_of_le {status : InvoiceStatus} (h : rank .swept ≤ rank status) :
    status = .swept := by
  cases status <;> first | rfl | exact absurd h (by decide)

theorem Keeps.trans {invoice'' : Invoice} (h : Keeps invoice invoice')
    (h' : Keeps invoice' invoice'') : Keeps invoice invoice'' := by
  apply Keeps.mk
  · exact h.status.trans h'.status
  · intro hswept tx htx
    have hstill : invoice'.status = .swept := eq_swept_of_le (hswept ▸ h.status)
    exact h'.sweepTx hstill tx (h.sweepTx hswept tx htx)

-- The report says no status behind the one on record, and of a swept invoice no other sweep.
structure Forward (r : Report) (invoice : Invoice) : Prop where
  status : ∀ status, parseInvoiceStatus r.body.status = .ok (some status) →
    rank invoice.status ≤ rank status
  sweepTx : invoice.status = .swept → ∀ tx ∈ r.body.sweepTx, ∀ old ∈ invoice.sweepTx, tx = old

theorem keeps_iff {status : Option InvoiceStatus} (h : Reported w w' r id status invoice invoice') :
    Keeps invoice invoice' ↔ Forward r invoice := by
  have hstatus : invoice'.status = status.getD invoice.status := by rw [h.row]; rfl
  have hsweepTx : invoice'.sweepTx = r.body.sweepTx.or invoice.sweepTx := by rw [h.row]; rfl
  apply Iff.intro
  · intro hkeeps
    apply Forward.mk
    · intro s hs
      rw [h.parsed] at hs
      have hle := hkeeps.status
      rwa [hstatus, Except.ok.inj hs] at hle
    · intro hswept tx htx old hold
      have hkept := hkeeps.sweepTx hswept old hold
      rw [hsweepTx, htx] at hkept
      exact Option.some.inj hkept
  · intro hforward
    apply Keeps.mk
    · rw [hstatus]
      cases status with
      | none => exact le_refl _
      | some s => exact hforward.status s h.parsed
    · intro hswept old hold
      rw [hsweepTx]
      cases htx : r.body.sweepTx with
      | none => exact hold
      | some tx => exact congrArg some (hforward.sweepTx hswept tx htx old hold)

/-! ## Callbacks -/

-- Which callback it is for the merchant.
def Callback.key (c : Callback) : String × InvoiceStatus := (c.invoice.id, c.invoice.status)

-- No callback is repeated, and none tells a status that the invoice has not reached.
structure Once (w : World) : Prop where
  nodup : (w.posted.map Callback.key).Nodup
  reached : ∀ c ∈ w.posted, ∃ invoice, w.db.invoices.find? c.invoice.id = some invoice ∧
    rank c.invoice.status ≤ rank invoice.status

theorem callbackDue_eq_some {c : Callback} (h : callbackDue (some invoice) invoice' = some c) :
    c.invoice = invoice' ∧ invoice.status ≠ invoice'.status := by
  unfold callbackDue at h
  dsimp only at h
  split at h
  · rename_i hbecame
    have hchange := hbecame.2 invoice rfl
    obtain ⟨url, -, rfl⟩ := Option.map_eq_some_iff.mp h
    refine ⟨rfl, fun hsame => ?_⟩
    rcases hchange with hnot | hne
    · rw [hsame, hbecame.1] at hnot
      exact absurd hnot (by decide)
    · exact hne hsame
  · exact absurd h (by simp)

theorem Once.step {status : Option InvoiceStatus} (h : Once w)
    (hreported : Reported w w' r id status invoice invoice') (hkeeps : Keeps invoice invoice') :
    Once w' := by
  have hid : invoice.id = id := key_of_find? hreported.found
  have hid' : invoice'.id = id := by
    rw [hreported.row, ← hid]
    rfl
  have hreached : ∀ c ∈ w.posted, ∃ row, w'.db.invoices.find? c.invoice.id = some row ∧
      rank c.invoice.status ≤ rank row.status := by
    intro c hc
    obtain ⟨row, hrow, hle⟩ := h.reached c hc
    rw [hreported.find?]
    split
    · rename_i heq
      rw [heq, hreported.found] at hrow
      cases hrow
      exact ⟨invoice', rfl, hle.trans hkeeps.status⟩
    · exact ⟨row, hrow, hle⟩
  cases hdue : callbackDue (some invoice) invoice' with
  | none =>
    have hposted : w'.posted = w.posted := by rw [hreported.posted, hdue]; exact List.append_nil _
    apply Once.mk
    · rw [hposted]
      exact h.nodup
    · rw [hposted]
      exact hreached
  | some c =>
    obtain ⟨hc, hne⟩ := callbackDue_eq_some hdue
    have hposted : w'.posted = w.posted ++ [c] := by rw [hreported.posted, hdue]; rfl
    -- An earlier callback of this invoice told a status that is now behind.
    have hlt : rank invoice.status < rank invoice'.status :=
      lt_of_le_of_ne hkeeps.status fun heq => hne (rank_injective heq)
    have hnew : c.key ∉ w.posted.map Callback.key := by
      intro hmem
      obtain ⟨c', hc', hkey⟩ := List.mem_map.mp hmem
      have hsame : c'.invoice.id = id ∧ c'.invoice.status = invoice'.status := by
        rw [← hid', ← hc]
        exact Prod.mk.inj hkey
      obtain ⟨row, hrow, hle⟩ := h.reached c' hc'
      rw [hsame.1, hreported.found] at hrow
      cases hrow
      rw [hsame.2] at hle
      omega
    apply Once.mk
    · rw [hposted, List.map_append]
      exact List.nodup_append'.mpr
        ⟨h.nodup, List.nodup_singleton _, List.disjoint_singleton.mpr hnew⟩
    · rw [hposted]
      intro c' hc'
      rcases List.mem_append.mp hc' with hold | hself
      · exact hreached c' hold
      · rw [List.mem_singleton.mp hself, hc, hid', hreported.find?, if_pos rfl]
        exact ⟨invoice', rfl, le_refl _⟩

/-! ## The whole run -/

-- What the invoice had is still there.
def Kept (id : String) (invoice : Invoice) (w : World) : Prop :=
  ∃ invoice', w.db.invoices.find? id = some invoice' ∧ Keeps invoice invoice'

-- Between any two moments of the run every invoice keeps what it had.
def Monotone (w : World) (reports : List Report) : Prop :=
  ∀ pre mid post, reports = pre ++ mid ++ post → ∀ id invoice,
    (run report w pre).db.invoices.find? id = some invoice →
      Kept id invoice (run report w (pre ++ mid))

-- Every accepted report goes forward from the row it is about.
def AllForward (w : World) (reports : List Report) : Prop :=
  ∀ pre r post, reports = pre ++ r :: post → Succeeds report (run report w pre) r →
    ∀ id ∈ r.body.invoiceId, ∀ invoice,
      (run report w pre).db.invoices.find? id = some invoice → Forward r invoice

theorem keeps_step (hok : report w r = .ok w')
    (hforward : ∀ id ∈ r.body.invoiceId, ∀ invoice, w.db.invoices.find? id = some invoice →
      Forward r invoice) (hinvoice : w.db.invoices.find? id = some invoice) :
    Kept id invoice w' := by
  obtain ⟨id', status, row, row', hreported⟩ := report_eq_ok hok
  unfold Kept
  rw [hreported.find?]
  split
  · rename_i heq
    rw [heq, hreported.found] at hinvoice
    cases hinvoice
    exact ⟨row', rfl,
      (keeps_iff hreported).mpr (hforward id' hreported.invoiceId invoice hreported.found)⟩
  · exact ⟨invoice, hinvoice, Keeps.refl invoice⟩

theorem monotone_of_allForward {reports : List Report} (h : AllForward w reports) :
    Monotone w reports := by
  intro pre mid post hreports id invoice hinvoice
  rw [run_append]
  apply run_invariant_of_prefix
  · rintro front r back w' hmid ⟨row, hrow, hkeeps⟩ hok
    rw [← run_append] at hrow hok
    have hforward := h (pre ++ front) r (back ++ post) (by simp [hreports, hmid]) ⟨w', hok⟩
    obtain ⟨row', hrow', hkeeps'⟩ := keeps_step hok hforward hrow
    exact ⟨row', hrow', hkeeps.trans hkeeps'⟩
  · exact ⟨invoice, hinvoice, Keeps.refl invoice⟩

theorem once_of_allForward {db : CommerceDb} {reports : List Report}
    (h : AllForward ⟨db, []⟩ reports) : Once (run report ⟨db, []⟩ reports) := by
  apply run_invariant_of_prefix
  · intro pre r post w' hreports hw hok
    obtain ⟨id, status, invoice, invoice', hreported⟩ := report_eq_ok hok
    apply hw.step hreported
    exact (keeps_iff hreported).mpr
      (h pre r post hreports ⟨w', hok⟩ id hreported.invoiceId invoice hreported.found)
  · exact ⟨List.nodup_nil, fun c hc => absurd hc List.not_mem_nil⟩

theorem allForward_of_monotone {reports : List Report} (h : Monotone w reports) :
    AllForward w reports := by
  rintro pre r post hreports ⟨w', hok⟩ id hid invoice hinvoice
  obtain ⟨id', status, row, row', hreported⟩ := report_eq_ok hok
  have hsame : id' = id := Option.some.inj (hreported.invoiceId.symm.trans hid)
  subst hsame
  rw [hreported.found] at hinvoice
  cases hinvoice
  obtain ⟨after, hafter, hkeeps⟩ :=
    h pre [r] post (by simp [hreports]) id' invoice hreported.found
  rw [run_concat, commit_of_ok hok, hreported.find?, if_pos rfl] at hafter
  cases hafter
  exact (keeps_iff hreported).mp hkeeps

/-- A run of reports keeps statuses and sweeps and repeats no callback if and only if every report
that is accepted goes forward. -/
theorem reports_keep_iff (db : CommerceDb) (reports : List Report) :
    (Monotone ⟨db, []⟩ reports ∧
        ((run report ⟨db, []⟩ reports).posted.map Callback.key).Nodup) ↔
      AllForward ⟨db, []⟩ reports := by
  apply Iff.intro
  · intro h
    exact allForward_of_monotone h.1
  · intro h
    exact ⟨monotone_of_allForward h, (once_of_allForward h).nodup⟩

-- A report of the sweeper `0xA` that names no version.
def toyReport (status : String) (sweepTx : Option String) (now : Time) : Report where
  body := ⟨some "id", some status, none, none, none, none, sweepTx, none⟩
  sweeperAddress := some "0xA"
  now := ⟨now, now, le_refl now⟩

-- Swept, then paid by a report that comes late, then swept again.
def lateReports : List Report :=
  [toyReport "swept" (some "0xT") 1000, toyReport "paid" none 2000,
    toyReport "swept" (some "0xU") 3000]

/-- The invoice leaves `swept`, its sweep is replaced and the merchant is told twice. -/
theorem status_goes_back :
    ¬Monotone ⟨.toy, []⟩ lateReports ∧
      ((run report ⟨.toy, []⟩ lateReports).db.invoices.find? "id").bind Invoice.sweepTx = some "0xU" ∧
      ¬((run report ⟨.toy, []⟩ lateReports).posted.map Callback.key).Nodup := by
  have hswept : ((run report ⟨.toy, []⟩ (lateReports.take 1)).db.invoices.find? "id").map
      (fun invoice => (invoice.status, invoice.sweepTx)) = some (.swept, some "0xT") := by
    decide
  have hpaid : ((run report ⟨.toy, []⟩ (lateReports.take 2)).db.invoices.find? "id").map
      Invoice.status = some .paid := by
    decide
  refine ⟨fun h => ?_, by decide, by decide⟩
  obtain ⟨invoice, hinvoice, hstatus⟩ := Option.map_eq_some_iff.mp hswept
  obtain ⟨invoice', hinvoice', hkeeps⟩ :=
    h (lateReports.take 1) [toyReport "paid" none 2000] [toyReport "swept" (some "0xU") 3000] rfl
      "id" invoice hinvoice
  have hlate : invoice'.status = .paid := by
    have hsome : some invoice'.status = some InvoiceStatus.paid := by
      rw [← hpaid]
      exact (congrArg (Option.map Invoice.status) hinvoice').symm
    exact Option.some.inj hsome
  have hle := hkeeps.status
  rw [hlate, (Prod.mk.inj hstatus).1] at hle
  exact absurd hle (by decide)

end OnchainInvoice.Server
