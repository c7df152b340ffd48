import OnchainInvoice.Worker.Effects

/-!
# The worker's requests

What a request returns and leaves behind by its fate, and which reports change the row they are
about.
-/

namespace OnchainInvoice.SweeperWorker

open Lib.Handlers Lib.Revert Lib.Runs Lib.Tables Server Table

variable {cfg : SweeperConfig} {script : Nat → Turn} {id : String} {w w' : World} {row : Invoice}
  {α : Type}

/-! ## The rows under what others do -/

-- Others neither pay the invoice nor call the server about it.  They may sweep it.
def Other.Spares (id : String) : Other → Prop
  | .pays invoiceId _ => invoiceId ≠ id
  | .sweeps _ _ => True
  | .carries _ => True
  | .sets _ => True
  | .calls call => call.invoiceId ≠ id

def Spared (script : Nat → Turn) (id : String) : Prop :=
  ∀ n, ∀ other ∈ (script n).others, other.Spares id

theorem find?_apply {other : Other} (h : other.Spares id) (w : World) :
    (w.apply other).db.invoices.find? id = w.db.invoices.find? id := by
  cases other with
  | pays invoiceId amount => rfl
  | sweeps invoiceId amount => rfl
  | carries place =>
    show (w.carry place).db.invoices.find? id = _
    rw [db_carry]
  | sets fees => rfl
  | calls call =>
    show (commit step w.db call).invoices.find? id = _
    rcases commit_cases step w.db call with ⟨db', hok, hdb⟩ | ⟨e, -, hdb⟩
    · obtain ⟨row, -, -, hfind⟩ := find?_step hok id
      rw [hdb, hfind, if_neg (Ne.symm h)]
    · rw [hdb]

theorem holds_sweep_le (w : World) (invoiceId : String) (amount : Nat) :
    (w.sweep invoiceId amount).holds id ≤ w.holds id := by
  show Function.update w.holds invoiceId _ id ≤ _
  rw [Function.update_apply]
  split
  · rename_i hid
    rw [hid]
    omega
  · exact le_refl _

theorem holds_carry_le (w : World) (place : Nat) : (w.carry place).holds id ≤ w.holds id := by
  unfold World.carry
  split
  · exact le_refl _
  · split
    · exact holds_sweep_le w _ _
    · exact le_refl _

theorem holds_apply_le {other : Other} (h : other.Spares id) (w : World) :
    (w.apply other).holds id ≤ w.holds id := by
  cases other with
  | pays invoiceId amount =>
    show Function.update w.holds invoiceId _ id ≤ _
    rw [Function.update_of_ne (Ne.symm h)]
  | sweeps invoiceId amount => exact holds_sweep_le w invoiceId _
  | carries place => exact holds_carry_le w place
  | sets fees => exact le_refl _
  | calls call => exact le_refl _

theorem find?_others {others : List Other} (h : ∀ other ∈ others, other.Spares id) (w : World) :
    (others.foldl World.apply w).db.invoices.find? id = w.db.invoices.find? id := by
  induction others generalizing w with
  | nil => rfl
  | cons other others ih =>
    have htail := ih (fun o ho => h o (List.mem_cons_of_mem other ho)) (w.apply other)
    rw [List.foldl_cons, htail, find?_apply (h other (List.mem_cons_self ..))]

theorem find?_afterWait (h : Spared script id) (w : World) :
    (afterWait script w).db.invoices.find? id = w.db.invoices.find? id :=
  find?_others (h w.turn) w

/-! ## Requests by their fate -/

theorem exec_signedFetch (script : Nat → Turn)
    (handle : Turn → CommerceDb → Except HttpError (α × CommerceDb)) (w : World) :
    exec (signedFetch script handle) w =
      match (script w.turn).fate with
      | .answered => (.ok (serve (handle (script w.turn)) (afterWait script w)).1,
          (serve (handle (script w.turn)) (afterWait script w)).2)
      | .failed => (.ok (.error (httpError 500 "")), afterWait script w)
      | .unsent => (.error (.thrown "fetch failed"), afterWait script w)
      | .unanswered => (.error (.thrown "fetch failed"),
          (serve (handle (script w.turn)) (afterWait script w)).2)
      | .stopped => (.error .stopped, afterWait script w)
      | .stoppedAfter => (.error .stopped,
          (serve (handle (script w.turn)) (afterWait script w)).2) := by
  unfold signedFetch
  have hinteract := exec_interact script (fun turn => serve (handle turn)) w
  cases hfate : (script w.turn).fate <;> rw [hfate] at hinteract
  · rw [exec_bind_ok hinteract]
    rfl
  · rw [exec_bind_ok hinteract]
    rfl
  · exact exec_bind_error hinteract
  · exact exec_bind_error hinteract
  · exact exec_bind_error hinteract
  · exact exec_bind_error hinteract

theorem signedFetch_eq_ok {handle : Turn → CommerceDb → Except HttpError (α × CommerceDb)} {a : α}
    (h : exec (signedFetch script handle) w = (.ok (.ok a), w')) :
    ∃ db, handle (script w.turn) (afterWait script w).db = .ok (a, db) ∧ w'.db = db := by
  rw [exec_signedFetch] at h
  cases hfate : (script w.turn).fate <;> rw [hfate] at h <;> try cases h
  have hserve : serve (handle (script w.turn)) (afterWait script w) = (.ok a, w') :=
    Prod.ext (Except.ok.inj (Prod.mk.inj h).1) (Prod.mk.inj h).2
  unfold serve at hserve
  cases hhandle : handle (script w.turn) (afterWait script w).db with
  | ok answer =>
    rw [hhandle] at hserve
    cases hserve
    exact ⟨_, rfl, rfl⟩
  | error e =>
    rw [hhandle] at hserve
    cases hserve

theorem exec_rpc_read (script : Nat → Turn) (act : Turn → StateM World α)
    (hact : ∀ turn v, (act turn v).2 = v) (w : World) :
    ((script w.turn).fate = .answered ∧ exec (rpc script act) w =
        (.ok (act (script w.turn) (afterWait script w)).1, afterWait script w)) ∨
      ((script w.turn).fate ≠ .answered ∧
        ∃ e, exec (rpc script act) w = (.error e, afterWait script w)) := by
  have hrpc := exec_rpc script act w
  rw [hact] at hrpc
  cases hfate : (script w.turn).fate <;> rw [hfate] at hrpc
  · exact .inl ⟨rfl, hrpc⟩
  · exact .inr ⟨by decide, _, hrpc⟩
  · exact .inr ⟨by decide, _, hrpc⟩
  · exact .inr ⟨by decide, _, hrpc⟩
  · exact .inr ⟨by decide, _, hrpc⟩
  · exact .inr ⟨by decide, _, hrpc⟩

-- The world after a balance has been read.
def afterRead (script : Nat → Turn) (invoiceId : String) (w : World) : World :=
  { afterWait script w with
    log := (afterWait script w).log ++
      [.observed invoiceId ((afterWait script w).holds invoiceId)] }

theorem exec_readBalance (script : Nat → Turn) (invoiceId : String) (w : World) :
    ((script w.turn).fate = .answered ∧ exec (readBalance script invoiceId) w =
        (.ok ((afterWait script w).holds invoiceId), afterRead script invoiceId w)) ∨
      ((script w.turn).fate ≠ .answered ∧
        ∃ e, exec (readBalance script invoiceId) w = (.error e, afterWait script w)) := by
  rw [readBalance_eq]
  rcases exec_rpc_read script (fun _ => do return (← get).holds invoiceId) (fun _ _ => rfl) w
    with ⟨hfate, hread⟩ | ⟨hfate, e, hread⟩
  · left
    rw [exec_bind_ok hread]
    exact ⟨hfate, rfl⟩
  · right
    rw [exec_bind_error hread]
    exact ⟨hfate, e, rfl⟩

/-! ## Reports that arrive -/

-- Whether one of `n` requests to report gets through, of which the first is sent at the turn.  A
-- request with another version than the row's is answered with the row.
def Arrives (script : Nat → Turn) : Nat → Nat → Bool → Bool
  | 0, _, _ => false
  | n + 1, turn, current =>
    match (script turn).fate with
    | .answered => current || Arrives script n (turn + 1) true
    | .failed => Arrives script n (turn + 1) current
    | .unanswered | .stoppedAfter => current
    | .unsent | .stopped => false

def isCurrent (expectedVersion : Option Number) (invoice : Invoice) : Bool :=
  expectedVersion.all fun version => some invoice.version = version

-- The row that a report is about, with the worker's own lease if the report is of a sweep.
structure Awaits (cfg : SweeperConfig) (status : Option InvoiceStatus) (row : Invoice) : Prop where
  unswept : row.status ≠ .swept
  lease : status = some .swept → row.claimedBy = some cfg.address

theorem Awaits.trackable {status : Option InvoiceStatus} {body : TrackBody} {now : Time}
    (h : Awaits cfg status row) (hcurrent : isCurrent body.expectedVersion row = true) :
    Trackable row (body.input id status (some cfg.address)) now where
  version := by
    intro version hversion
    have hbody : body.expectedVersion = some version := hversion
    rw [hbody] at hcurrent
    exact of_decide_eq_true hcurrent
  lease := by
    intro hswept sweeper hsweeper hne
    cases hsweeper
    unfold claimedByAnother
    rw [h.lease hswept]
    cases row.claimedUntil <;> simp

theorem track_of_current {status : Option InvoiceStatus} {body : TrackBody} (turn : Turn)
    {db : CommerceDb} (hid : body.invoiceId = some id)
    (hstatus : parseInvoiceStatus body.status = .ok status)
    (hrow : db.invoices.find? id = some row) (hawaits : Awaits cfg status row)
    (hcurrent : isCurrent body.expectedVersion row = true) :
    ∃ db', track cfg body turn db =
        .ok (some (tracked (body.input id status (some cfg.address)) turn.now.write row), db') ∧
      db'.invoices.find? id =
        some (tracked (body.input id status (some cfg.address)) turn.now.write row) := by
  obtain ⟨db', htrack⟩ : ∃ db', trackInvoice db (body.input id status (some cfg.address)) turn.now =
      .ok (tracked (body.input id status (some cfg.address)) turn.now.write row, db') :=
    ⟨_, trackInvoice_eq_ok.mpr ⟨row, hrow, hawaits.trackable hcurrent, rfl, rfl⟩⟩
  have happly : applyTrack db body (some cfg.address) turn.now =
      .ok (callbackDue (getInvoice db id)
        (tracked (body.input id status (some cfg.address)) turn.now.write row), db') := by
    simp only [applyTrack, bind_eq_ok, orRevert_eq_ok, pure_eq_ok]
    exact ⟨id, hid, status, hstatus, _, htrack, rfl⟩
  have hstep : step db (.track (body.input id status (some cfg.address)) turn.now) = .ok db' :=
    map_eq_ok.mpr ⟨_, htrack, rfl⟩
  obtain ⟨row', hrow', -, hfind⟩ := find?_step hstep id
  have hsame : row' = row := Option.some.inj (hrow'.symm.trans hrow)
  have hnew : db'.invoices.find? id =
      some (tracked (body.input id status (some cfg.address)) turn.now.write row) := by
    rw [hfind, hsame]
    exact if_pos rfl
  refine ⟨db', ?_, hnew⟩
  unfold track
  rw [happly, ← getInvoice_of_find? hnew]
  show Except.ok (body.invoiceId.bind (getInvoice db'), db') = _
  rw [hid]
  rfl

theorem track_of_stale {status : Option InvoiceStatus} {body : TrackBody} {turn : Turn}
    {db : CommerceDb} (hid : body.invoiceId = some id)
    (hstatus : parseInvoiceStatus body.status = .ok status)
    (hrow : db.invoices.find? id = some row)
    (hstale : isCurrent body.expectedVersion row = false) :
    track cfg body turn db = .error (versionConflict (some row)) := by
  have hversion : (body.expectedVersion.any fun version => some row.version ≠ version) = true := by
    unfold isCurrent at hstale
    cases hbody : body.expectedVersion with
    | none =>
      rw [hbody] at hstale
      cases hstale
    | some version =>
      rw [hbody] at hstale
      exact decide_eq_true (of_decide_eq_false hstale)
  have htrack : trackInvoice db (body.input id status (some cfg.address)) turn.now =
      .error (versionConflict (some row)) := by
    unfold trackInvoice
    show (orRevert _ (getInvoice db id) >>= _) = _
    rw [getInvoice_of_find? hrow]
    show (revertIf (body.expectedVersion.any fun version => some row.version ≠ version) _ >>= _) = _
    rw [hversion]
    rfl
  unfold track applyTrack
  simp only [hid, hstatus, orRevert, bind, Except.bind, htrack]

-- What the report makes of the row, if it gets through.
def Told (cfg : SweeperConfig) (script : Nat → Turn) (body : TrackBody) (id : String)
    (status : Option InvoiceStatus) (arrives : Bool) (row row' : Invoice) : Prop :=
  if arrives then
    ∃ n, row' = tracked (body.input id status (some cfg.address)) (script n).now.write row
  else row' = row

theorem serve_track {status : Option InvoiceStatus} (body : TrackBody) (turn : Turn)
    (hid : body.invoiceId = some id) (hstatus : parseInvoiceStatus body.status = .ok status)
    (hawaits : Awaits cfg status row) (hrow : w.db.invoices.find? id = some row) :
    if isCurrent body.expectedVersion row then
      ∃ answer w', serve (track cfg body turn) w = (.ok answer, w') ∧
        w'.db.invoices.find? id =
          some (tracked (body.input id status (some cfg.address)) turn.now.write row)
    else serve (track cfg body turn) w = (.error (versionConflict (some row)), w) := by
  unfold serve
  split
  · rename_i hcurrent
    obtain ⟨db', htrack, hfind⟩ := track_of_current turn hid hstatus hrow hawaits hcurrent
    rw [htrack]
    exact ⟨_, { w with db := db' }, rfl, hfind⟩
  · rename_i hstale
    rw [track_of_stale hid hstatus hrow (Bool.eq_false_of_not_eq_true hstale)]

/-- The answer to a request may be lost, and what the server has done is done. -/
theorem told_serve {status : Option InvoiceStatus} (script : Nat → Turn) (turn : Nat)
    (body : TrackBody) (hid : body.invoiceId = some id)
    (hstatus : parseInvoiceStatus body.status = .ok status) (hawaits : Awaits cfg status row)
    (hrow : w.db.invoices.find? id = some row) :
    ∃ row', (serve (track cfg body (script turn)) w).2.db.invoices.find? id = some row' ∧
      Told cfg script body id status (isCurrent body.expectedVersion row) row row' := by
  have hserve := serve_track body (script turn) hid hstatus hawaits hrow
  unfold Told
  split
  · rename_i hcurrent
    rw [if_pos hcurrent] at hserve
    obtain ⟨answer, w', hanswer, hfind⟩ := hserve
    rw [hanswer]
    exact ⟨_, hfind, turn, rfl⟩
  · rename_i hstale
    rw [if_neg hstale] at hserve
    rw [hserve]
    exact ⟨row, hrow, rfl⟩

/-- The requests of a report change its row if and only if one of them gets through. -/
theorem told_trackAttempts {status : Option InvoiceStatus} (body : TrackBody)
    (hspared : Spared script id) (hid : body.invoiceId = some id)
    (hstatus : parseInvoiceStatus body.status = .ok status) (hawaits : Awaits cfg status row)
    (n : Nat) (expectedVersion : Option Number) (hrow : w.db.invoices.find? id = some row) :
    ∃ row', (exec (trackAttempts cfg script body n expectedVersion) w).2.db.invoices.find? id =
        some row' ∧
      Told cfg script body id status (Arrives script n w.turn (isCurrent expectedVersion row))
        row row' := by
  induction n generalizing w expectedVersion with
  | zero => exact ⟨row, hrow, rfl⟩
  | succ n ih =>
    let payload : TrackBody := { body with expectedVersion := expectedVersion }
    let w₁ : World := { w with log := w.log ++ [.reported payload] }
    have hnote : exec (note (.reported payload)) w = (.ok (), w₁) := rfl
    have hrow₁ : (afterWait script w₁).db.invoices.find? id = some row := by
      rw [find?_afterWait hspared]
      exact hrow
    have hfetch := exec_signedFetch script (track cfg payload) w₁
    have hserve := serve_track payload (script w₁.turn) hid hstatus hawaits hrow₁
    have hsent := told_serve script w.turn payload hid hstatus hawaits hrow₁
    unfold trackAttempts Arrives
    rw [exec_bind_ok hnote]
    cases hfate : (script w.turn).fate with
    | answered =>
      rw [show (script w₁.turn).fate = .answered from hfate] at hfetch
      cases hcurrent : isCurrent expectedVersion row with
      | true =>
        rw [if_pos hcurrent] at hserve
        obtain ⟨answer, w₂, hanswer, hfind⟩ := hserve
        rw [hanswer] at hfetch
        rw [exec_bind_ok hfetch]
        exact ⟨_, hfind, _, rfl⟩
      | false =>
        -- The answer is the row itself, and the next request has its version.
        rw [if_neg (by simp [payload, hcurrent])] at hserve
        rw [hserve] at hfetch
        rw [exec_bind_ok hfetch]
        have hunswept : (some row).filter (fun invoice => invoice.status = .swept) = none :=
          Option.filter_some_neg (by simp [hawaits.unswept])
        dsimp only [versionConflict]
        rw [if_pos rfl, hunswept]
        have hretry := ih (w := afterWait script w₁) (some (some row.version)) hrow₁
        rwa [show isCurrent (some (some row.version)) row = true from decide_eq_true rfl] at hretry
    | failed =>
      rw [show (script w₁.turn).fate = .failed from hfate] at hfetch
      rw [exec_bind_ok hfetch]
      exact ih expectedVersion hrow₁
    | unsent =>
      rw [show (script w₁.turn).fate = .unsent from hfate] at hfetch
      rw [exec_bind_error hfetch]
      exact ⟨row, hrow₁, rfl⟩
    | unanswered =>
      rw [show (script w₁.turn).fate = .unanswered from hfate] at hfetch
      rw [exec_bind_error hfetch]
      exact hsent
    | stopped =>
      rw [show (script w₁.turn).fate = .stopped from hfate] at hfetch
      rw [exec_bind_error hfetch]
      exact ⟨row, hrow₁, rfl⟩
    | stoppedAfter =>
      rw [show (script w₁.turn).fate = .stoppedAfter from hfate] at hfetch
      rw [exec_bind_error hfetch]
      exact hsent

theorem ne_swept_of_worker {status : InvoiceStatus} (h : status ∈ workerStatuses) :
    status ≠ .swept := by
  rintro rfl
  exact absurd h (by decide)

theorem parse_paidReport (invoice : Invoice) (balance : Nat) (version : Int) :
    ∃ status ∈ workerStatuses,
      parseInvoiceStatus (paidReport invoice balance version).status = .ok (some status) := by
  unfold paidReport
  dsimp only
  split
  · exact ⟨.paidPartial, by decide, rfl⟩
  · exact ⟨.paid, by decide, rfl⟩

end OnchainInvoice.SweeperWorker
