import OnchainInvoice.Persist.InvoiceSnapshots

/-!
# The replay of the invoice log

What is rebuilt from the log is compared with the live database, column by column but for the
leases, the versions, the gas and the time of the last update.  A call's events carry what it
changes unless it makes an invoice without an id or with a pay session, changes an invoice without
being reported as paid, or gives a sweep transaction with a payment.
-/

namespace OnchainInvoice.InvoiceLog

open Lib.EventLog Lib.Revert Lib.Tables Table Server

/-! ## The two databases -/

def view (db : InvoiceDb) (invoiceId : String) : Option InvoiceRecord :=
  (db.find? invoiceId).map InvoiceRecord.persisted

-- What the log of these calls is rebuilt to, in an empty database.
def rebuilt (clock : String → Time) (calls : List Call) : InvoiceDb :=
  applyInvoicePersistStateToDb clock InvoiceDb.empty
    (replayInvoicePersistState (run step InvoiceDb.empty calls).log)

def live (calls : List Call) : InvoiceDb := (run step InvoiceDb.empty calls).state

def SameInvoices (calls : List Call) : Prop :=
  ∀ clock invoiceId, view (rebuilt clock calls) invoiceId = view (live calls) invoiceId

/-! ## When a call's events carry what it changes -/

-- A creation that neither finds its key bound nor its id taken, and has a seed.
structure CreatesNew (db : CommerceDb) (input : CreateInvoice) : Prop where
  unbound : prior db input = none
  free : getInvoice db input.invoiceId = none
  seeded : ∃ seed ∈ input.fields.invoiceSeed, seed ≠ ""

def Carried (db : InvoiceDb) : Call → Prop
  | .create input _ _ _ => CreatesNew db.commerce (trimmed input) →
      input.invoiceId ≠ "" ∧ input.paySessionId = none
  | .claim _ _ => True
  | .track input error now _ =>
    ∀ invoice, db.commerce.invoices.find? input.invoiceId = some invoice →
      Trackable invoice input now.check → ReportCarried invoice input error

/-! ## Agreement -/

def stateView (state : InvoicePersistState) (invoiceId : String) : Option InvoiceRecord :=
  (state.find? invoiceId).map fun s => (snapshotRecord s).persisted

def Agree (db : InvoiceDb) (state : InvoicePersistState) : Prop :=
  ∀ invoiceId, stateView state invoiceId = view db invoiceId

variable {db db' : InvoiceDb} {state : InvoicePersistState} {invoice : Invoice} {quote : Quote}
  {s : InvoicePersistSnapshot} {input : TrackInvoice} {error : Bool}

/-! ## Steps -/

-- No invoice without an id or a time of creation is ever rebuilt.
structure Sound (state : InvoicePersistState) : Prop where
  named : state.find? "" = none
  dated : ∀ invoiceId s, state.find? invoiceId = some s → s.createdAt.isSome

theorem Sound.modify {f : InvoicePersistSnapshot → InvoicePersistSnapshot}
    {hf : ∀ s, (f s).invoiceId = s.invoiceId} (h : Sound state) (id : String)
    (hdate : ∀ s, (f s).createdAt = s.createdAt) : Sound (state.modify id f hf) := by
  apply Sound.mk
  · rw [find?_modify, h.named]
    simp
  · intro invoiceId s hs
    rw [find?_modify] at hs
    split at hs
    · obtain ⟨s', hs', rfl⟩ := Option.map_eq_some_iff.mp hs
      rw [hdate]
      exact h.dated invoiceId s' hs'
    · exact h.dated invoiceId s hs

theorem Sound.apply (h : Sound state) (evt : PersistLogEvent) :
    Sound (applyInvoicePersistEvent state evt) := by
  unfold applyInvoicePersistEvent
  dsimp only
  split
  · exact h
  · next hid =>
    split
    · apply Sound.mk
      · have hother : "" ≠ (created (evt.payload.invoiceId.getD "") evt.payload evt.ts).invoiceId :=
          Ne.symm hid
        rw [find?_set, if_neg hother, h.named]
      · intro invoiceId s hs
        rw [find?_set] at hs
        split at hs
        · cases hs
          rfl
        · exact h.dated invoiceId s hs
    · exact h.modify _ fun _ => rfl
    · exact h.modify _ fun _ => rfl

theorem Sound.replay (h : Sound state) (events : List PersistLogEvent) :
    Sound (replay applyInvoicePersistEvent state events) :=
  replay_invariant h fun evt _ _ hsound => hsound.apply evt

theorem stateView_modify {f : InvoicePersistSnapshot → InvoicePersistSnapshot}
    {hf : ∀ s, (f s).invoiceId = s.invoiceId} {id : String} (h : state.find? id = some s)
    (invoiceId : String) : stateView (state.modify id f hf) invoiceId =
      if invoiceId = id then some (snapshotRecord (f s)).persisted
      else stateView state invoiceId := by
  unfold stateView
  rw [find?_modify]
  by_cases hid : invoiceId = id
  · rw [if_pos hid, if_pos hid, hid, h]
    rfl
  · rw [if_neg hid, if_neg hid]

/-- What the events of a report leave of the snapshots. -/
theorem stateView_statusEvents {updated : InvoiceRecord} (ts : Time) (hid : updated.id ≠ "")
    (h : state.find? updated.id = some s) (invoiceId : String) :
    stateView (replay applyInvoicePersistEvent state (statusEvents error updated ts)) invoiceId =
      if invoiceId = updated.id then some (snapshotRecord (follow error updated ts s)).persisted
      else stateView state invoiceId := by
  unfold statusEvents follow
  have hkept : stateView state invoiceId =
      if invoiceId = updated.id then some (snapshotRecord s).persisted
      else stateView state invoiceId := by
    split
    · next heq =>
      rw [heq, stateView, h]
      rfl
    · rfl
  have hpaid : stateView (applyInvoicePersistEvent state
      ⟨ts, .invoicePaid, invoiceStatusPersistPayload updated⟩) invoiceId =
      if invoiceId = updated.id then
        some (snapshotRecord (paid (invoiceStatusPersistPayload updated) ts s)).persisted
      else stateView state invoiceId := by
    have happly : applyInvoicePersistEvent state
        ⟨ts, .invoicePaid, invoiceStatusPersistPayload updated⟩ =
        state.modify updated.id (paid (invoiceStatusPersistPayload updated) ts) fun _ => rfl :=
      if_neg hid
    rw [happly]
    exact stateView_modify h invoiceId
  have hswept : stateView (applyInvoicePersistEvent state
      ⟨ts, .invoiceSwept, invoiceStatusPersistPayload updated⟩) invoiceId =
      if invoiceId = updated.id then
        some (snapshotRecord (swept (invoiceStatusPersistPayload updated) ts s)).persisted
      else stateView state invoiceId := by
    have happly : applyInvoicePersistEvent state
        ⟨ts, .invoiceSwept, invoiceStatusPersistPayload updated⟩ =
        state.modify updated.id (swept (invoiceStatusPersistPayload updated) ts) fun _ => rfl :=
      if_neg hid
    rw [happly]
    exact stateView_modify h invoiceId
  cases error with
  | true => simpa [replay] using hkept
  | false =>
    cases hstatus : updated.status with
    | created => simpa [replay] using hkept
    | awaitingPayment => simpa [replay] using hkept
    | paid => simpa [replay] using hpaid
    | paidPartial => simpa [replay] using hpaid
    | swept => simpa [replay] using hswept

-- The invoices of both are the same, and those of the database are stamped.
def AllStamped (db : InvoiceDb) : Prop :=
  ∀ id invoice, db.commerce.invoices.find? id = some invoice → Stamped invoice

def Follows (db : InvoiceDb) (state : InvoicePersistState) : Prop := Agree db state ∧ Sound state

theorem view_eq (db : InvoiceDb) (id : String) : view db id =
    (db.commerce.invoices.find? id).map fun invoice =>
      (InvoiceRecord.mk invoice (db.quotes id)).persisted := by
  rw [view, InvoiceDb.find?, Option.map_map]
  rfl

def InvoiceDb.modify (db : InvoiceDb) (id : String) (f : Invoice → Invoice)
    (hf : ∀ r, (f r).id = r.id) : InvoiceDb :=
  ⟨⟨db.commerce.invoices.modify id f hf, db.commerce.idempotencyKeys⟩, db.quotes⟩

theorem id_tracked (now : Time) (invoice : Invoice) : (tracked input now invoice).id = invoice.id :=
  rfl

-- What a report does to the database: it is rejected, or it changes its row.
inductive Tracks (db : InvoiceDb) (input : TrackInvoice) (error : Bool) (now : Reads) (ts : Time) :
    InvoiceDb × List PersistLogEvent → Prop
  | rejected (h : ∀ invoice, db.commerce.invoices.find? input.invoiceId = some invoice →
      ¬ Trackable invoice input now.check) : Tracks db input error now ts (db, [])
  | accepted {invoice : Invoice} (hfind : db.commerce.invoices.find? input.invoiceId = some invoice)
      (htrackable : Trackable invoice input now.check) : Tracks db input error now ts
        (db.modify input.invoiceId (tracked input now.write) (id_tracked now.write),
          statusEvents error
          ⟨tracked input now.write invoice, db.quotes (tracked input now.write invoice).id⟩ ts)

theorem step_track (db : InvoiceDb) (input : TrackInvoice) (error : Bool) (now : Reads)
    (ts : Time) : Tracks db input error now ts (step db (.track input error now ts)) := by
  simp only [step, trackInvoice]
  cases h : Server.trackInvoice db.commerce input now with
  | error e =>
    apply Tracks.rejected
    intro invoice hfind htrackable
    have hok := trackInvoice_eq_ok.mpr ⟨invoice, hfind, htrackable, rfl, rfl⟩
    rw [h] at hok
    cases hok
  | ok answer =>
    rcases answer with ⟨updated, commerce⟩
    obtain ⟨invoice, hfind, htrackable, rfl, rfl⟩ := trackInvoice_eq_ok.mp h
    exact .accepted hfind htrackable

theorem view_modify {f : Invoice → Invoice} {hf : ∀ r, (f r).id = r.id} {id : String}
    (h : db.commerce.invoices.find? id = some invoice) (invoiceId : String) :
    view (db.modify id f hf) invoiceId =
      if invoiceId = id then some (InvoiceRecord.mk (f invoice) (db.quotes id)).persisted
      else view db invoiceId := by
  rw [view_eq, view_eq]
  show Option.map _ ((db.commerce.invoices.modify id f hf).find? invoiceId) = _
  rw [find?_modify]
  by_cases hid : invoiceId = id
  · rw [if_pos hid, if_pos hid, hid, h]
    rfl
  · rw [if_neg hid, if_neg hid]
    rfl

theorem follows_track (hstamped : AllStamped db) (h : Follows db state) (now : Reads) (ts : Time) :
    Follows (step db (.track input error now ts)).1
        (replay applyInvoicePersistEvent state (step db (.track input error now ts)).2) ↔
      Carried db (.track input error now ts) := by
  have hsound := h.2.replay
    (step db (.track input error now ts)).2
  have hstep := step_track db input error now ts
  generalize step db (.track input error now ts) = after at hsound hstep
  cases hstep with
  | rejected hnone =>
    exact iff_of_true h fun invoice hfind htrackable => absurd htrackable (hnone invoice hfind)
  | @accepted invoice hfind htrackable =>
    let updated : InvoiceRecord :=
      ⟨tracked input now.write invoice, db.quotes (tracked input now.write invoice).id⟩
    have hid : invoice.id = input.invoiceId := key_of_find? hfind
    obtain ⟨s, hs, hsame⟩ : ∃ s, state.find? input.invoiceId = some s ∧
        (snapshotRecord s).persisted =
          (InvoiceRecord.mk invoice (db.quotes input.invoiceId)).persisted := by
      have hview := h.1 input.invoiceId
      rw [view_eq, hfind, stateView] at hview
      exact Option.map_eq_some_iff.mp hview
    have hnamed : updated.id ≠ "" := by
      show invoice.id ≠ ""
      rw [hid]
      rintro hempty
      rw [hempty, h.2.named] at hs
      cases hs
    have hs' : state.find? updated.id = some s := by
      rw [show updated.id = input.invoiceId from hid, hs]
    have hiff : (snapshotRecord (follow error updated ts s)).persisted = updated.persisted ↔
        ReportCarried invoice input error := by
      rw [← hid] at hsame
      exact follow_iff now.write ts (hstamped _ _ hfind) hsame
    have hcarried : Carried db (.track input error now ts) ↔ ReportCarried invoice input error := by
      apply Iff.intro
      · intro hcarried
        exact hcarried invoice hfind htrackable
      · intro hreport invoice' hfind' _
        rw [hfind] at hfind'
        cases hfind'
        exact hreport
    rw [hcarried, ← hiff]
    apply Iff.intro
    · rintro ⟨hagree, -⟩
      have hown := hagree input.invoiceId
      have hown' : input.invoiceId = updated.id := hid.symm
      dsimp only at hown
      rw [stateView_statusEvents ts hnamed hs', view_modify hfind, if_pos rfl, if_pos hown',
        ← hid] at hown
      exact Option.some.inj hown
    · intro hown
      refine ⟨fun invoiceId => ?_, hsound⟩
      dsimp only
      rw [stateView_statusEvents ts hnamed hs', view_modify hfind]
      show (if invoiceId = invoice.id then _ else _) = _
      rw [hid]
      split
      · rw [← hid]
        exact congrArg some hown
      · exact h.1 invoiceId

theorem id_claimed (input : ClaimInvoice) (now : Time) (invoice : Invoice) :
    (claimed input now invoice).id = invoice.id := rfl

theorem step_claim (db : InvoiceDb) (input : ClaimInvoice) (now : Time) :
    step db (.claim input now) = (db, []) ∨
      ∃ invoice, db.commerce.invoices.find? input.invoiceId = some invoice ∧
        step db (.claim input now) =
          (db.modify input.invoiceId (claimed input now) (id_claimed input now), []) := by
  simp only [step, claimInvoice]
  cases hclaim : Server.claimInvoice db.commerce input now with
  | error e => exact .inl rfl
  | ok answer =>
    rcases answer with ⟨updated, commerce⟩
    obtain ⟨invoice, hfind, -, -, rfl⟩ := claimInvoice_eq_ok.mp hclaim
    exact .inr ⟨invoice, hfind, rfl⟩

theorem follows_claim (h : Follows db state) (input : ClaimInvoice) (now : Time) :
    Follows (step db (.claim input now)).1
      (replay applyInvoicePersistEvent state (step db (.claim input now)).2) := by
  rcases step_claim db input now with hstep | ⟨invoice, hfind, hstep⟩
  · rw [hstep]
    exact h
  · rw [hstep]
    refine ⟨fun invoiceId => ?_, h.2⟩
    dsimp only
    rw [view_modify hfind]
    split
    · next hid =>
      rw [hid]
      exact (h.1 input.invoiceId).trans (by rw [view_eq, hfind]; rfl)
    · exact h.1 invoiceId

/-! ## Creations -/

theorem createInvoice_of_new {commerce : CommerceDb} {input : CreateInvoice}
    (h : CreatesNew commerce input) (now : Time) : ∃ seed invoices,
      commerce.invoices.insert (newInvoice input seed now) = some invoices ∧
        Server.createInvoice commerce input now =
          .ok ((newInvoice input seed now, true), ⟨invoices, bindKey commerce input⟩) := by
  obtain ⟨seed, hseed, hne⟩ := h.seeded
  have hfree : commerce.invoices.find? input.invoiceId = none := by
    cases hfind : commerce.invoices.find? input.invoiceId with
    | none => rfl
    | some invoice =>
      have hfree := h.free
      rw [getInvoice_of_find? hfind] at hfree
      cases hfree
  cases hinsert : commerce.invoices.insert (newInvoice input seed now) with
  | none =>
    obtain ⟨invoice, hinvoice⟩ := insert_eq_none.mp hinsert
    exact absurd (hinvoice.symm.trans hfree) (Option.some_ne_none _)
  | some invoices =>
    refine ⟨seed, invoices, hinsert, ?_⟩
    have hgiven : input.fields.invoiceSeed.filter (· ≠ "") = some seed := by
      rw [hseed, Option.filter_some, if_pos (decide_eq_true hne)]
    unfold Server.createInvoice
    simp only [h.unbound, h.free]
    rw [hgiven]
    simp only [orRevert, bind, Except.bind]
    rw [hinsert]
    rfl

theorem new_of_createInvoice {commerce commerce' : CommerceDb} {input : CreateInvoice} {now : Time}
    (h : Server.createInvoice commerce input now = .ok ((invoice, true), commerce')) :
    CreatesNew commerce input := by
  unfold Server.createInvoice at h
  cases hprior : prior commerce input with
  | some other => simp [hprior, pure, Except.pure] at h
  | none =>
    cases hfree : getInvoice commerce input.invoiceId with
    | some existing => simp [hprior, hfree, bind, Except.bind] at h
    | none =>
      simp only [hprior, hfree, bind_eq_ok, orRevert_eq_ok] at h
      obtain ⟨seed, hseed, -⟩ := h
      obtain ⟨hgiven, hne⟩ := Option.filter_eq_some_iff.mp hseed
      exact ⟨hprior, hfree, seed, hgiven, of_decide_eq_true hne⟩

-- What a creation does to the database: nothing, or it inserts its row.
inductive Makes (db : InvoiceDb) (input : CreateInvoice) (fields : QuoteFields) (now ts : Time) :
    InvoiceDb × List PersistLogEvent → Prop
  | nothing (h : ¬ CreatesNew db.commerce (trimmed input)) : Makes db input fields now ts (db, [])
  | row {seed : String} {invoices : Table Invoice String Invoice.id}
      (hnew : CreatesNew db.commerce (trimmed input))
      (hinsert : db.commerce.invoices.insert (newInvoice (trimmed input) seed now) = some invoices) :
      Makes db input fields now ts
        (⟨⟨invoices, bindKey db.commerce (trimmed input)⟩,
          Function.update db.quotes input.invoiceId fields.stored⟩,
        [⟨ts, .invoiceCreated, invoiceCreatedPersistPayload
          ⟨newInvoice (trimmed input) seed now, fields.stored⟩⟩])

theorem step_create (db : InvoiceDb) (input : CreateInvoice) (fields : QuoteFields)
    (now ts : Time) : Makes db input fields now ts (step db (.create input fields now ts)) := by
  simp only [step, createInvoice]
  by_cases hnew : CreatesNew db.commerce (trimmed input)
  · obtain ⟨seed, invoices, hinsert, hcreate⟩ := createInvoice_of_new hnew now
    rw [hcreate]
    exact .row hnew hinsert
  · cases hcreate : Server.createInvoice db.commerce (trimmed input) now with
    | error e => exact .nothing hnew
    | ok answer =>
      rcases answer with ⟨answer, commerce⟩
      cases createInvoice_eq_ok hcreate with
      | again hprior => exact .nothing hnew
      | anew hprior hinsert => exact absurd (new_of_createInvoice hcreate) hnew

theorem follows_create (h : Follows db state) (input : CreateInvoice) (fields : QuoteFields)
    (now ts : Time) : Follows (step db (.create input fields now ts)).1
        (replay applyInvoicePersistEvent state (step db (.create input fields now ts)).2) ↔
      Carried db (.create input fields now ts) := by
  have hsound := h.2.replay
    (step db (.create input fields now ts)).2
  have hstep := step_create db input fields now ts
  generalize step db (.create input fields now ts) = after at hsound hstep
  cases hstep with
  | nothing hnot => exact iff_of_true h fun hnew => absurd hnew hnot
  | @row seed invoices hnew hinsert =>
    let record : InvoiceRecord := ⟨newInvoice (trimmed input) seed now, fields.stored⟩
    have hview (invoiceId : String) : view ⟨⟨invoices, bindKey db.commerce (trimmed input)⟩,
        Function.update db.quotes input.invoiceId fields.stored⟩ invoiceId =
        if invoiceId = input.invoiceId then some record.persisted else view db invoiceId := by
      rw [view_eq, view_eq]
      dsimp only
      rw [find?_insert hinsert]
      by_cases hid : invoiceId = input.invoiceId
      · rw [if_pos hid, if_pos (show record.id = invoiceId from hid.symm), hid,
          Function.update_self]
        rfl
      · rw [if_neg hid, if_neg (show record.id ≠ invoiceId from Ne.symm hid),
          Function.update_of_ne hid]
    have hcarried : Carried db (.create input fields now ts) ↔
        input.invoiceId ≠ "" ∧ input.paySessionId = none :=
      ⟨fun hcarried => hcarried hnew, fun h _ => h⟩
    have happly (hid : input.invoiceId ≠ "") : replay applyInvoicePersistEvent state
        [⟨ts, .invoiceCreated, invoiceCreatedPersistPayload record⟩] =
        state.set (created input.invoiceId (invoiceCreatedPersistPayload record) ts) :=
      if_neg hid
    -- What is rebuilt of the new invoice is the invoice without its pay session.
    have hrebuilt (hid : input.invoiceId ≠ "") (invoiceId : String) :
        stateView (replay applyInvoicePersistEvent state
          [⟨ts, .invoiceCreated, invoiceCreatedPersistPayload record⟩]) invoiceId =
        if invoiceId = input.invoiceId then
          some { record.persisted with paySessionId := none }
        else stateView state invoiceId := by
      rw [happly hid, stateView, find?_set]
      show Option.map _ (if invoiceId = input.invoiceId then _ else _) = _
      split
      · rfl
      · rfl
    rw [hcarried]
    apply Iff.intro
    · rintro ⟨hagree, hsound'⟩
      have hown := hagree input.invoiceId
      dsimp only at hown
      have hid : input.invoiceId ≠ "" := by
        intro hempty
        rw [hview, if_pos rfl, stateView, hempty, hsound'.named] at hown
        cases hown
      rw [hview, if_pos rfl, hrebuilt hid, if_pos rfl] at hown
      exact ⟨hid, (congrArg (fun r : InvoiceRecord => r.paySessionId) (Option.some.inj hown)).symm⟩
    · rintro ⟨hid, hsession⟩
      refine ⟨fun invoiceId => ?_, hsound⟩
      dsimp only
      rw [hview, hrebuilt hid]
      split
      · have hnone : record.persisted.paySessionId = none := hsession
        rw [← hnone]
      · exact h.1 invoiceId

/-! ## Runs -/

theorem AllStamped.modify {id : String} {f : Invoice → Invoice} {hf : ∀ r, (f r).id = r.id}
    (h : AllStamped db) (hstamps : ∀ r, Stamped r → Stamped (f r)) :
    AllStamped (db.modify id f hf) := by
  intro invoiceId invoice hfind
  have hfind' : (db.commerce.invoices.modify id f hf).find? invoiceId = some invoice := hfind
  rw [find?_modify] at hfind'
  split at hfind'
  · obtain ⟨r, hr, rfl⟩ := Option.map_eq_some_iff.mp hfind'
    exact hstamps r (h invoiceId r hr)
  · exact h invoiceId invoice hfind'

theorem allStamped_step (db : InvoiceDb) (call : Call) (h : AllStamped db) :
    AllStamped (step db call).1 := by
  cases call with
  | create input fields now ts =>
    have hstep := step_create db input fields now ts
    generalize step db (.create input fields now ts) = after at hstep
    cases hstep with
    | nothing _ => exact h
    | row hnew hinsert =>
      intro invoiceId invoice hfind
      dsimp only at hfind
      rw [find?_insert hinsert] at hfind
      split at hfind
      · cases hfind
        apply Stamped.mk
        · rintro ⟨⟩
        · rintro ⟨⟩
      · exact h invoiceId invoice hfind
  | claim input now =>
    rcases step_claim db input now with hstep | ⟨invoice, hfind, hstep⟩
    · rw [hstep]
      exact h
    · rw [hstep]
      exact h.modify fun r hr => ⟨hr.paidAt, hr.sweptAt⟩
  | track input error now ts =>
    have hstep := step_track db input error now ts
    generalize step db (.track input error now ts) = after at hstep
    cases hstep with
    | rejected _ => exact h
    | accepted hfind _ => exact h.modify fun r _ => stamped_tracked now.write

theorem follows_step (hstamped : AllStamped db) (h : Follows db state) (call : Call) :
    Follows (step db call).1 (replay applyInvoicePersistEvent state (step db call).2) ↔
      Carried db call := by
  cases call with
  | create input fields now ts => exact follows_create h input fields now ts
  | claim input now => exact iff_true_intro (follows_claim h input now)
  | track input error now ts => exact follows_track hstamped h now ts

/-! ## The rebuilt database -/

theorem persisted_restored (now : Time) (hdated : s.createdAt.isSome) :
    (InvoiceRecord.mk (restoredRow now s) s.toQuote).persisted = (snapshotRecord s).persisted := by
  obtain ⟨createdAt, hcreatedAt⟩ := Option.isSome_iff_exists.mp hdated
  simp [snapshotRecord, restoredRow, InvoiceRecord.persisted, hcreatedAt]

theorem find?_restorePersistedInvoice (db : InvoiceDb) (now : Time)
    (hfree : db.commerce.invoices.find? s.invoiceId = none) (invoiceId : String) :
    (restorePersistedInvoice db now s).find? invoiceId =
      if invoiceId = s.invoiceId then some ⟨restoredRow now s, s.toQuote⟩
      else db.find? invoiceId := by
  unfold restorePersistedInvoice InvoiceDb.find?
  dsimp only
  rw [find?_upsert]
  show Option.map _ (if invoiceId = s.invoiceId then _ else _) = _
  by_cases hid : invoiceId = s.invoiceId
  · rw [if_pos hid, if_pos hid, hid, hfree]
    show some (InvoiceRecord.mk _ (Function.update db.quotes s.invoiceId s.toQuote s.invoiceId)) = _
    rw [Function.update_self]
    rfl
  · rw [if_neg hid, if_neg hid]
    show Option.map (fun invoice => InvoiceRecord.mk invoice
      (Function.update db.quotes s.invoiceId s.toQuote invoiceId)) _ = _
    rw [Function.update_of_ne hid]

/-- What is found after the snapshots are restored. -/
theorem find?_restored (clock : String → Time) (db : InvoiceDb)
    (rows : List InvoicePersistSnapshot) (hnodup : (rows.map (·.invoiceId)).Nodup)
    (hfree : ∀ s ∈ rows, db.commerce.invoices.find? s.invoiceId = none) (invoiceId : String) :
    (rows.foldl (fun db s => restorePersistedInvoice db (clock s.invoiceId) s) db).find? invoiceId =
      ((rows.find? fun s => s.invoiceId = invoiceId).map fun s =>
        InvoiceRecord.mk (restoredRow (clock s.invoiceId) s) s.toQuote).or (db.find? invoiceId) := by
  induction rows generalizing db with
  | nil => rfl
  | cons s rows ih =>
    rw [List.map_cons, List.nodup_cons] at hnodup
    have hfind := find?_restorePersistedInvoice db (clock s.invoiceId)
      (hfree s (List.mem_cons_self ..))
    rw [List.foldl_cons, ih _ hnodup.2 ?_, hfind]
    · by_cases hid : invoiceId = s.invoiceId
      · have hnone : (rows.find? fun s => s.invoiceId = invoiceId) = none := by
          rw [List.find?_eq_none]
          intro s' hs' hsame
          exact hnodup.1 (List.mem_map.mpr ⟨s', hs', (of_decide_eq_true hsame).trans hid⟩)
        rw [hnone, if_pos hid, List.find?_cons_of_pos (by simp [hid])]
        rfl
      · rw [if_neg hid, List.find?_cons_of_neg (by simpa using Ne.symm hid)]
    · intro s' hs'
      have hne : s'.invoiceId ≠ s.invoiceId := fun hsame =>
        hnodup.1 (List.mem_map.mpr ⟨s', hs', hsame⟩)
      have hother := hfind s'.invoiceId
      rw [if_neg hne] at hother
      have hnone : db.find? s'.invoiceId = none := by
        rw [InvoiceDb.find?, hfree s' (List.mem_cons_of_mem s hs')]
        rfl
      rw [hnone] at hother
      exact Option.map_eq_none_iff.mp hother

/-- The database is rebuilt from the snapshots. -/
theorem view_rebuilt (clock : String → Time) (h : Sound state) (invoiceId : String) :
    view (applyInvoicePersistStateToDb clock InvoiceDb.empty state) invoiceId =
      stateView state invoiceId := by
  have hfind := find?_restored clock InvoiceDb.empty state.rows state.nodup (fun _ _ => rfl) invoiceId
  unfold view applyInvoicePersistStateToDb stateView
  rw [hfind]
  show Option.map _ (((state.find? invoiceId).map _).or none) = _
  cases hs : state.find? invoiceId with
  | none => rfl
  | some s => exact congrArg some (persisted_restored _ (h.dated invoiceId s hs))

theorem sound_replay (events : List PersistLogEvent) :
    Sound (replayInvoicePersistState events) := by
  have hempty : Sound emptyInvoicePersistState := ⟨rfl, fun invoiceId s hs => by cases hs⟩
  exact hempty.replay events

theorem follows_iff_same (calls : List Call) :
    Follows (live calls) (replayInvoicePersistState (run step InvoiceDb.empty calls).log) ↔
      SameInvoices calls := by
  have hsound := sound_replay (run step InvoiceDb.empty calls).log
  apply Iff.intro
  · intro h clock invoiceId
    exact (view_rebuilt clock hsound invoiceId).trans (h.1 invoiceId)
  · intro h
    refine ⟨fun invoiceId => ?_, hsound⟩
    exact (view_rebuilt (fun _ => 0) hsound invoiceId).symm.trans (h _ invoiceId)

/-- What is rebuilt from the log is the live database throughout a run exactly if the events of each
call carry what it changes. -/
theorem same_invoices_iff (calls : List Call) :
    (∀ pre, pre <+: calls → SameInvoices pre) ↔
      ∀ pre call post, calls = pre ++ call :: post → Carried (live pre) call := by
  have hempty : Follows InvoiceDb.empty emptyInvoicePersistState :=
    ⟨fun _ => rfl, rfl, fun invoiceId s hs => by cases hs⟩
  have hstamped : AllStamped InvoiceDb.empty := fun _ _ h => by cases h
  refine Iff.trans ?_ (agree_iff_carried Follows Carried hstamped allStamped_step hempty
    fun db state call hstamped h => follows_step hstamped h call)
  exact forall_congr' fun pre => imp_congr_right fun _ => (follows_iff_same pre).symm

/-! ## A payment reported with an error -/

def toyCreation : Call :=
  .create ⟨"id", toyFields, "8453", "USDC", "0xM", some "0xI", none, none⟩
    ⟨none, none, none, none, none⟩ 0 0

-- The invoice is paid, but the report carries an error beside.
def paidWithError : Call :=
  .track ⟨"id", some .paid, some "25000000", none, none, none, none, none, none⟩ true
    ⟨1, 1, le_rfl⟩ 1

theorem paid_with_error_lost : ¬ SameInvoices [toyCreation, paidWithError] := by
  intro h
  have hsame := h (fun _ => 0) "id"
  have hdiffers : view (rebuilt (fun _ => 0) [toyCreation, paidWithError]) "id" ≠
      view (live [toyCreation, paidWithError]) "id" := by
    decide +kernel
  exact hdiffers hsame

end OnchainInvoice.InvoiceLog
