import OnchainInvoice.Worker.Requests

/-!
# Recording sweeps

A sweep is recorded by the report that follows it or never: once the address is empty, no later tick
looks past the balance.
-/

namespace OnchainInvoice.SweeperWorker

open Lib.Handlers Lib.Revert Lib.Runs Lib.Tables Server Table

variable {cfg : SweeperConfig} {script : Nat → Turn} {who : String → Prop} {start : Nat}
  {id : String} {w w' : World} {row : Invoice} {α : Type}

/-! ## An empty address -/

-- The address is empty, no balance has been found since the tick began, and the status stands.
structure Still (start : Nat) (id : String) (status : Option InvoiceStatus) (w : World) : Prop where
  empty : w.holds id = 0
  unseen : ∀ balance, ¬Seen start id balance w.log
  unsent : ∀ hash sweep total, .sent id hash sweep total ∉ w.log.drop start
  row : (w.db.invoices.find? id).map Invoice.status = status

theorem mem_drop_snoc {log : List Action} {a b : Action} (h : a ∈ (log ++ [b]).drop start) :
    a ∈ log.drop start ∨ a = b := by
  rw [List.drop_append] at h
  rcases List.mem_append.mp h with hold | hnew
  · exact .inl hold
  · exact .inr (List.mem_singleton.mp (List.mem_of_mem_drop hnew))

theorem Still.snoc {status : Option InvoiceStatus} {a : Action} (h : Still start id status w)
    (hobserved : ∀ balance, a = .observed id balance → balance = 0)
    (hsent : ∀ hash sweep total, a ≠ .sent id hash sweep total) :
    Still start id status { w with log := w.log ++ [a] } where
  empty := h.empty
  unseen balance hseen := by
    rcases mem_drop_snoc hseen.2 with hold | hnew
    · exact h.unseen balance ⟨hseen.1, hold⟩
    · exact hseen.1 (hobserved balance hnew.symm)
  unsent hash sweep total hmem := by
    rcases mem_drop_snoc hmem with hold | hnew
    · exact h.unsent hash sweep total hold
    · exact hsent hash sweep total hnew.symm
  row := h.row

theorem Still.of_apply {status : Option InvoiceStatus} {other : Other}
    (h : Still start id status w) (hspares : other.Spares id) :
    Still start id status (w.apply other) where
  empty := Nat.le_zero.mp (h.empty ▸ holds_apply_le hspares w)
  unseen := by rw [log_apply]; exact h.unseen
  unsent := by rw [log_apply]; exact h.unsent
  row := by rw [find?_apply hspares]; exact h.row

-- A report that is sent without a balance or a sweep says no status.
theorem Still.status_says {status : Option InvoiceStatus} {invoice : Invoice} {body : TrackBody}
    (h : Still start invoice.id status w) (hsaid : Says start w.log invoice body) :
    body.status = none := by
  cases hsaid with
  | error _ => rfl
  | paid hseen _ _ => exact absurd hseen (h.unseen _)
  | swept hmem _ _ _ => exact absurd hmem (h.unsent _ _ _)

theorem Still.step {status : Option InvoiceStatus} (h : Still start id status w)
    (hspared : Spared script id) (hstep : Happens cfg script who start w w') :
    Still start id status w' := by
  cases hstep with
  | others hother => exact h.of_apply (hspared _ _ hother)
  | turn n => exact ⟨h.empty, h.unseen, h.unsent, h.row⟩
  | reads hwho =>
    apply h.snoc
    · intro balance heq
      cases heq
      exact h.empty
    · intro hash sweep total heq
      cases heq
  | @calls call db' hretries hcall hok =>
    refine ⟨h.empty, h.unseen, h.unsent, ?_⟩
    obtain ⟨row, hrow, -, hfind⟩ := find?_step hok id
    show (db'.invoices.find? id).map Invoice.status = status
    rw [hfind]
    split
    · rename_i hid
      cases hcall with
      | claim hwho hseen version n =>
        cases hid
        exact absurd hseen (h.unseen _)
      | @track invoice body status' hwho hsaid hstatus n =>
        cases hid
        rw [h.status_says hsaid] at hstatus
        cases hstatus
        rw [← h.row]
        exact (congrArg (Option.map Invoice.status) hrow).symm
    · exact h.row
  | reports hwho hsaid =>
    apply h.snoc
    · intro balance heq
      cases heq
    · intro hash sweep total heq
      cases heq
  | @sends id' hash sweep hwho hseen hpositive hcharged hholds =>
    have hid : id' ≠ id := by
      rintro rfl
      exact h.unseen _ hseen
    have hswept : Still start id status (w.sweep id' sweep.moved) :=
      ⟨Nat.le_zero.mp (h.empty ▸ holds_sweep_le w id' _), h.unseen, h.unsent, h.row⟩
    apply hswept.snoc
    · intro balance heq
      cases heq
    · intro hash' sweep' total heq
      cases heq
      exact hid rfl

theorem Still.fresh {status : Option InvoiceStatus} (hempty : w.holds id = 0)
    (hrow : (w.db.invoices.find? id).map Invoice.status = status) :
    Still w.log.length id status w where
  empty := hempty
  unseen balance hseen := by
    have hmem := hseen.2
    rw [List.drop_length] at hmem
    exact List.not_mem_nil hmem
  unsent hash sweep total hmem := by
    rw [List.drop_length] at hmem
    exact List.not_mem_nil hmem
  row := hrow

/-- With nothing at its address, an invoice keeps its status through all ticks. -/
theorem status_ticks (hspared : Spared script id) (hempty : w.holds id = 0) (n : Nat) :
    ((ticks cfg script n w).db.invoices.find? id).map Invoice.status =
      (w.db.invoices.find? id).map Invoice.status := by
  induction n generalizing w with
  | zero => rfl
  | succ n ih =>
    have hstill : Still w.log.length id ((w.db.invoices.find? id).map Invoice.status)
        (exec (tick cfg script) w).2 :=
      (reaches_tick w).invariant (fun _ _ h hstep => h.step hspared hstep) (.fresh hempty rfl)
    show ((ticks cfg script n (exec (tick cfg script) w).2).db.invoices.find? id).map _ = _
    rw [ih hstill.empty, hstill.row]

/-! ## Claimed invoices -/

-- The part of `claimAndSweep` up to the sweep, with the version for it.
def claimAndReport (cfg : SweeperConfig) (script : Nat → Turn) (invoice : Invoice) (balance : Nat) :
    Work (Option Int) := do
  match ← claimWithRetry cfg script invoice with
  | none => return none
  | some claimed =>
    let afterPaid ← trackWithRetry cfg script (paidReport invoice balance claimed.version)
    return some ((afterPaid.map Invoice.version).getD (claimed.version + 1))

-- The part of `sweepReady` up to the sweep, and the sweep.
def beforeSweep (cfg : SweeperConfig) (script : Nat → Turn) : Ready → Work (Option Int)
  | .evm key invoice _ balance => do
    match ← markPaid cfg script invoice balance with
    | none => return none
    | some afterPaid =>
      if (sweepChains cfg).any fun entry => entry.chainId = key then
        let claimed ← claimWithRetry cfg script { invoice with version := afterPaid.version }
        return claimed.map Invoice.version
      else return none
  | .tron invoice _ balance => claimAndReport cfg script invoice balance
  | .solana invoice balance _ _ _ => claimAndReport cfg script invoice balance

def sweepClaimed (cfg : SweeperConfig) (script : Nat → Turn) (version : Int) : Ready → Work Unit
  | .evm _ invoice _ balance => sweepOne cfg script invoice balance version
  | .tron invoice _ balance => do
    sweepTronOne cfg script (← orThrow "" (tron cfg)) invoice balance version
  | .solana invoice balance _ _ chainId => do
    sweepSolanaOne cfg script (← orThrow "" (solana cfg)) invoice balance chainId version

theorem claimAndSweep_eq (invoice : Invoice) (balance : Nat) (sweep : Int → Work Unit) :
    claimAndSweep cfg script invoice balance sweep = (do
      match ← claimAndReport cfg script invoice balance with
      | none => return ()
      | some version => sweep version) := by
  unfold claimAndSweep claimAndReport
  rw [bind_assoc]
  congr 1
  funext claimed
  cases claimed with
  | none => rfl
  | some claimed =>
    dsimp only
    rw [bind_assoc]
    congr 1

theorem sweepReady_eq (r : Ready) : sweepReady cfg script r = (do
    match ← beforeSweep cfg script r with
    | none => return ()
    | some version => sweepClaimed cfg script version r) := by
  cases r with
  | evm key invoice token balance =>
    show sweepEvm cfg script key invoice balance = _
    unfold sweepEvm beforeSweep
    rw [bind_assoc]
    congr 1
    funext afterPaid
    cases afterPaid with
    | none => rfl
    | some afterPaid =>
      dsimp only
      split
      · rw [bind_assoc]
        congr 1
        funext claimed
        cases claimed with
        | none => rfl
        | some claimed => rfl
      · rfl
  | tron invoice token balance =>
    exact claimAndSweep_eq invoice balance fun version =>
      sweepClaimed cfg script version (.tron invoice token balance)
  | solana invoice balance mint symbol chainId =>
    exact claimAndSweep_eq invoice balance fun version =>
      sweepClaimed cfg script version (.solana invoice balance mint symbol chainId)

-- The invoice is the worker's to sweep.
def Claimed (cfg : SweeperConfig) (id : String) (w : World) : Prop :=
  ∃ row, w.db.invoices.find? id = some row ∧ Awaits cfg (some .swept) row

theorem claimed_of_claim {version : Int} {turn : Turn} {db db' : CommerceDb} {invoice : Invoice}
    (h : claim cfg id version turn db = .ok (invoice, db')) :
    ∃ row, db'.invoices.find? id = some row ∧ Awaits cfg (some .swept) row := by
  obtain ⟨row, hrow, haccepts, hfind⟩ := find?_step (claim_eq_ok h) id
  refine ⟨_, hfind.trans (if_pos rfl), ?_, fun _ => rfl⟩
  have hstatus : row.status ∈ [InvoiceStatus.awaitingPayment, .paid, .paidPartial] :=
    (of_decide_eq_true haccepts).2.1
  show row.status ≠ .swept
  intro hswept
  rw [hswept] at hstatus
  exact absurd hstatus (by decide)

theorem claimed_of_claimAttempts {n : Nat} {version : Int} {invoice : Invoice}
    (h : exec (claimAttempts cfg script id n version) w = (.ok (some invoice), w')) :
    Claimed cfg id w' := by
  induction n generalizing w version with
  | zero => cases h
  | succ n ih =>
    unfold claimAttempts at h
    obtain ⟨answer, w₁, hrun, h⟩ := exec_bind_eq_ok h
    cases answer with
    | ok claimed =>
      cases h
      obtain ⟨db, hclaim, hdb⟩ := signedFetch_eq_ok hrun
      unfold Claimed
      rw [hdb]
      exact claimed_of_claim hclaim
    | error e =>
      dsimp only at h
      split at h
      · cases hcurrent : e.invoice with
        | none =>
          rw [hcurrent] at h
          cases h
        | some current =>
          rw [hcurrent] at h
          dsimp only at h
          split at h
          · cases h
          · exact ih h
      · split at h
        · exact ih h
        · cases h

theorem claimed_of_told {body : TrackBody} {status : InvoiceStatus} {arrives : Bool}
    {row' : Invoice} (hunswept : status ≠ .swept) (h : Awaits cfg (some .swept) row)
    (htold : Told cfg script body id (some status) arrives row row') :
    Awaits cfg (some .swept) row' := by
  unfold Told at htold
  split at htold
  · obtain ⟨now, rfl⟩ := htold
    refine ⟨hunswept, fun _ => ?_⟩
    have hkept : (if status = .swept then none else row.claimedBy) = some cfg.address := by
      rw [if_neg hunswept]
      exact h.lease rfl
    exact hkept
  · rw [htold]
    exact h

theorem claimed_of_claimAndReport {invoice : Invoice} {balance : Nat} {version : Int}
    (hspared : Spared script invoice.id)
    (h : exec (claimAndReport cfg script invoice balance) w = (.ok (some version), w')) :
    Claimed cfg invoice.id w' := by
  obtain ⟨claimed, w₁, hclaim, h⟩ := exec_bind_eq_ok h
  cases claimed with
  | none => cases h
  | some claimed =>
    obtain ⟨afterPaid, w₂, hpaid, h⟩ := exec_bind_eq_ok h
    cases h
    obtain ⟨row, hrow, hawaits⟩ := claimed_of_claimAttempts hclaim
    obtain ⟨status, hworker, hstatus⟩ := parse_paidReport invoice balance claimed.version
    have hunswept := ne_swept_of_worker hworker
    obtain ⟨row', hrow', htold⟩ := told_trackAttempts _ hspared rfl hstatus
      ⟨hawaits.unswept, fun hswept => absurd (Option.some.inj hswept) hunswept⟩ cfg.maxRetries
      (paidReport invoice balance claimed.version).expectedVersion hrow
    unfold trackWithRetry at hpaid
    rw [hpaid] at hrow'
    exact ⟨row', hrow', claimed_of_told hunswept hawaits htold⟩

theorem claimed_of_beforeSweep {r : Ready} {version : Int} (hspared : Spared script r.invoice.id)
    (h : exec (beforeSweep cfg script r) w = (.ok (some version), w')) :
    Claimed cfg r.invoice.id w' := by
  cases r with
  | evm key invoice token balance =>
    unfold beforeSweep at h
    obtain ⟨afterPaid, w₁, -, h⟩ := exec_bind_eq_ok h
    cases afterPaid with
    | none => cases h
    | some afterPaid =>
      dsimp only at h
      split at h
      · obtain ⟨claimed, w₂, hclaim, h⟩ := exec_bind_eq_ok h
        cases claimed with
        | none => cases h
        | some claimed =>
          cases h
          exact claimed_of_claimAttempts hclaim
      · cases h
  | tron invoice token balance => exact claimed_of_claimAndReport hspared h
  | solana invoice balance mint symbol chainId => exact claimed_of_claimAndReport hspared h

/-! ## From the sending of a sweep on -/

-- The turns between the claim and the sweep, and between the sweep and its report.
def Ready.reads : Ready → Nat
  | .evm .. => 2
  | .tron .. => 2
  | .solana .. => 0

def Ready.receipts : Ready → Nat
  | .evm .. => 1
  | .tron .. => 0
  | .solana .. => 0

-- The answer to the sweep and its receipt arrive, and then a request to report it.
structure ReportArrives (cfg : SweeperConfig) (script : Nat → Turn) (r : Ready) (version : Int)
    (w : World) : Prop where
  answered : ∀ k ≤ r.receipts, (script (w.turn + r.reads + k)).fate = .answered
  arrives : Arrives script cfg.maxRetries (w.turn + r.reads + r.receipts + 1)
    ((w.db.invoices.find? r.invoice.id).any fun row => row.version = version)

-- What sends a sweep leaves the database alone, and everything if the sweep does not go through.
structure Sends (act : Turn → StateM World (Option String)) : Prop where
  db : ∀ turn v, (act turn v).2.db = v.db
  turn : ∀ turn v, (act turn v).2.turn = v.turn
  reverted : ∀ turn v, (act turn v).1 = none → (act turn v).2 = v

theorem sends_execute {amount : Nat} {sweep : World → Sweep} :
    Sends fun turn => execute id amount sweep turn.hash where
  db := by
    intro turn v
    unfold execute
    split <;> rfl
  turn := by
    intro turn v
    unfold execute
    split <;> rfl
  reverted := by
    intro turn v h
    unfold execute at h ⊢
    split
    · rename_i hholds
      rw [if_pos hholds] at h
      cases h
    · rfl

theorem sends_broadcast {balance amount : Nat} :
    Sends fun turn => broadcast id balance amount turn.hash where
  db := fun _ _ => rfl
  turn := fun _ _ => rfl
  reverted := by
    intro turn v h
    cases h

theorem sends_settle {balance : Nat} {feeBps : Int} :
    Sends fun turn => settle id balance feeBps turn.hash where
  db := by
    intro turn v
    unfold settle
    dsimp only
    split
    · rfl
    · exact sends_execute.db turn v
  turn := by
    intro turn v
    unfold settle
    dsimp only
    split
    · rfl
    · exact sends_execute.turn turn v
  reverted := by
    intro turn v h
    unfold settle at h ⊢
    dsimp only at h ⊢
    split
    · rfl
    · rename_i hne
      rw [if_neg hne] at h
      exact sends_execute.reverted turn v h

-- A sweep of the invoice has been sent since the log had the length.
def Sent (start : Nat) (id : String) (w : World) : Prop :=
  ∃ hash sweep total, .sent id hash sweep total ∈ w.log.drop start

theorem not_sent_of_log (h : w'.log = w.log) : ¬Sent w.log.length id w' := by
  rintro ⟨hash, sweep, total, hmem⟩
  rw [h, List.drop_length] at hmem
  exact List.not_mem_nil hmem

theorem not_sent_of_observed {invoiceId : String} {balance : Nat}
    (h : w'.log = w.log ++ [.observed invoiceId balance]) : ¬Sent w.log.length id w' := by
  rintro ⟨hash, sweep, total, hmem⟩
  rw [h, List.drop_left] at hmem
  exact absurd (List.mem_singleton.mp hmem) (by simp)

-- The row is recorded swept if and only if the condition holds.
def Outcome (id : String) (recorded : Prop) (w : World) : Prop :=
  ∃ row, w.db.invoices.find? id = some row ∧ (row.status = .swept ↔ recorded)

theorem Outcome.of_not {recorded : Prop} (hrow : w.db.invoices.find? id = some row)
    (hunswept : row.status ≠ .swept) (h : ¬recorded) : Outcome id recorded w :=
  ⟨row, hrow, fun hswept => absurd hswept hunswept, fun hrecorded => absurd hrecorded h⟩

theorem outcome_report {invoice : Invoice} (figures : Figures) {gasSpentWei : Nat} {hash : String}
    {version : Int} (hspared : Spared script invoice.id)
    (hrow : w.db.invoices.find? invoice.id = some row) (hawaits : Awaits cfg (some .swept) row) :
    Outcome invoice.id (Arrives script cfg.maxRetries w.turn (row.version = version))
      (exec (trackWithRetry cfg script (sweptReport invoice figures.amountPaid figures.amountSwept
        figures.feeCollected gasSpentWei hash version) >>= fun _ => pure ()) w).2 := by
  obtain ⟨row', hrow', htold⟩ := told_trackAttempts (sweptReport invoice figures.amountPaid
    figures.amountSwept figures.feeCollected gasSpentWei hash version) hspared rfl rfl hawaits
      cfg.maxRetries (some (some version)) hrow
  have hcurrent : isCurrent (some (some version)) row = decide (row.version = version) := by
    simp [isCurrent]
  rw [hcurrent] at htold
  refine ⟨row', ?_, ?_⟩
  · rw [exec_bind_pure]
    exact hrow'
  · unfold Told at htold
    split at htold
    · rename_i harrives
      obtain ⟨now, rfl⟩ := htold
      exact ⟨fun _ => harrives, fun _ => rfl⟩
    · rename_i hlost
      rw [htold]
      exact ⟨fun hswept => absurd hswept hawaits.unswept, fun harrives => absurd harrives hlost⟩

/-- When a sweep has been sent, its row is recorded if its answer arrives and what follows records
it. -/
theorem outcome_send {act : Turn → StateM World (Option String)} {message : String}
    {k : String → Work Unit} {recorded : Prop} (hsends : Sends act) (hspared : Spared script id)
    (hrow : w.db.invoices.find? id = some row) (hunswept : row.status ≠ .swept)
    (hlog : ∀ w', w'.log = w.log → ¬Sent start id w')
    (hsent : Sent start id (exec (rpc script act >>= fun hash => orThrow message hash >>= k) w).2)
    (hk : ∀ hash w₁, w₁.turn = w.turn + 1 → w₁.db.invoices.find? id = some row →
      Outcome id recorded (exec (k hash) w₁).2) :
    Outcome id ((script w.turn).fate = .answered ∧ recorded)
      (exec (rpc script act >>= fun hash => orThrow message hash >>= k) w).2 := by
  have hrpc := exec_rpc script act w
  have hwait : ¬Sent start id (afterWait script w) := hlog _ (log_afterWait script w)
  have hfind : (act (script w.turn) (afterWait script w)).2.db.invoices.find? id = some row := by
    rw [hsends.db, find?_afterWait hspared]
    exact hrow
  cases hfate : (script w.turn).fate with
  | answered =>
    rw [hfate] at hrpc
    rw [exec_bind_ok hrpc] at hsent ⊢
    cases hhash : (act (script w.turn) (afterWait script w)).1 with
    | none =>
      rw [hhash, hsends.reverted _ _ hhash] at hsent
      exact absurd hsent hwait
    | some hash =>
      obtain ⟨row', hrow', hrecorded⟩ := hk hash _ (hsends.turn _ _) hfind
      refine ⟨row', hrow', ?_⟩
      simpa using hrecorded
  | failed =>
    rw [hfate] at hrpc
    rw [exec_bind_error hrpc] at hsent
    exact absurd hsent hwait
  | unsent =>
    rw [hfate] at hrpc
    rw [exec_bind_error hrpc] at hsent
    exact absurd hsent hwait
  | unanswered =>
    rw [hfate] at hrpc
    rw [exec_bind_error hrpc]
    exact .of_not hfind hunswept (by simp)
  | stopped =>
    rw [hfate] at hrpc
    rw [exec_bind_error hrpc] at hsent
    exact absurd hsent hwait
  | stoppedAfter =>
    rw [hfate] at hrpc
    rw [exec_bind_error hrpc]
    exact .of_not hfind hunswept (by simp)

theorem outcome_receipt {act : Turn → StateM World α} {k : α → Work Unit} {recorded : Prop}
    (hact : ∀ turn v, (act turn v).2 = v) (hspared : Spared script id)
    (hrow : w.db.invoices.find? id = some row) (hunswept : row.status ≠ .swept)
    (hk : ∀ a, Outcome id recorded (exec (k a) (afterWait script w)).2) :
    Outcome id ((script w.turn).fate = .answered ∧ recorded)
      (exec (rpc script act >>= k) w).2 := by
  rcases exec_rpc_read script act hact w with ⟨hfate, hread⟩ | ⟨hfate, e, hread⟩
  · rw [exec_bind_ok hread]
    obtain ⟨row', hrow', hrecorded⟩ := hk (act (script w.turn) (afterWait script w)).1
    refine ⟨row', hrow', ?_⟩
    simpa [hfate] using hrecorded
  · rw [exec_bind_error hread]
    have hfind : (afterWait script w).db.invoices.find? id = some row := by
      rw [find?_afterWait hspared]
      exact hrow
    exact .of_not hfind hunswept fun h => hfate h.1

theorem Outcome.congr {recorded recorded' : Prop} (h : Outcome id recorded w)
    (hiff : recorded ↔ recorded') : Outcome id recorded' w := by
  obtain ⟨row, hrow, hrecorded⟩ := h
  exact ⟨row, hrow, hrecorded.trans hiff⟩

theorem outcome_sweepOne {invoice : Invoice} {balance : Nat} {version : Int}
    (hspared : Spared script invoice.id) (hrow : w.db.invoices.find? invoice.id = some row)
    (hawaits : Awaits cfg (some .swept) row)
    (hsent : Sent w.log.length invoice.id (exec (sweepOne cfg script invoice balance version) w).2) :
    Outcome invoice.id
      ((script (w.turn + 2)).fate = .answered ∧ (script (w.turn + 3)).fate = .answered ∧
        Arrives script cfg.maxRetries (w.turn + 4) (row.version = version))
      (exec (sweepOne cfg script invoice balance version) w).2 := by
  have hlog := log_afterWait script w
  have hobserved : ∀ w', w'.log = (afterRead script invoice.id w).log →
      ¬Sent w.log.length invoice.id w' := by
    intro w' hw'
    apply not_sent_of_observed (hw'.trans _)
    show (afterWait script w).log ++ _ = _
    rw [hlog]
  unfold sweepOne at hsent ⊢
  rcases exec_readBalance script invoice.id w with ⟨-, hread⟩ | ⟨-, e, hread⟩
  case inr =>
    rw [exec_bind_error hread] at hsent
    exact absurd hsent (not_sent_of_log hlog)
  rw [exec_bind_ok hread] at hsent ⊢
  dsimp only at hsent ⊢
  split at hsent
  · rw [exec_throw_bind] at hsent
    exact absurd hsent (hobserved _ rfl)
  rename_i hcovers
  rw [if_neg hcovers]
  let w₁ := afterRead script invoice.id w
  have hrow₁ : w₁.db.invoices.find? invoice.id = some row := by
    rw [← hrow]
    exact find?_afterWait hspared w
  rcases exec_rpc_read script (fun _ => do return (← get).fees.evm balance) (fun _ _ => rfl) w₁
    with ⟨-, hquote⟩ | ⟨-, e, hquote⟩
  case inr =>
    rw [exec_bind_error hquote] at hsent
    exact absurd hsent (hobserved _ (log_afterWait script w₁))
  rw [exec_bind_ok hquote] at hsent ⊢
  let fee := (afterWait script w₁).fees.evm balance
  have hrow₂ : (afterWait script w₁).db.invoices.find? invoice.id = some row := by
    rw [← hrow₁]
    exact find?_afterWait hspared w₁
  apply outcome_send sends_execute hspared hrow₂ hawaits.unswept _ hsent
  · intro hash w₃ hturn hrow₃
    have hturn₃ : w₃.turn = w.turn + 3 := hturn
    show Outcome invoice.id ((script (w.turn + 3)).fate = .answered ∧
      Arrives script cfg.maxRetries (w.turn + 3 + 1) (row.version = version)) _
    rw [← hturn₃]
    apply outcome_receipt (fun _ _ => rfl) hspared hrow₃ hawaits.unswept
    intro gasSpentWei
    have hrow₄ : (afterWait script w₃).db.invoices.find? invoice.id = some row := by
      rw [← hrow₃]
      exact find?_afterWait hspared w₃
    exact outcome_report ⟨balance, balance, fee⟩ hspared hrow₄ hawaits
  · intro w' hw'
    exact hobserved w' (hw'.trans (log_afterWait script w₁))

theorem outcome_sweepTronOne {tron : TronSweeperConfig} {invoice : Invoice} {balance : Nat}
    {version : Int} (hspared : Spared script invoice.id)
    (hrow : w.db.invoices.find? invoice.id = some row) (hawaits : Awaits cfg (some .swept) row)
    (hsent : Sent w.log.length invoice.id
      (exec (sweepTronOne cfg script tron invoice balance version) w).2) :
    Outcome invoice.id
      ((script (w.turn + 2)).fate = .answered ∧
        Arrives script cfg.maxRetries (w.turn + 3) (row.version = version))
      (exec (sweepTronOne cfg script tron invoice balance version) w).2 := by
  have hlog := log_afterWait script w
  let w₁ := afterWait script w
  have hobserved : ∀ w', w'.log = (afterRead script invoice.id w₁).log →
      ¬Sent w.log.length invoice.id w' := by
    intro w' hw'
    apply not_sent_of_observed (hw'.trans _)
    show (afterWait script w₁).log ++ _ = _
    rw [log_afterWait, hlog]
  unfold sweepTronOne at hsent ⊢
  dsimp only at hsent ⊢
  split at hsent
  · rw [exec_throw_bind] at hsent
    exact absurd hsent (not_sent_of_log rfl)
  rename_i hsame
  rw [if_neg hsame]
  rcases exec_rpc_read script (fun _ => return ()) (fun _ _ => rfl) w
    with ⟨-, hresources⟩ | ⟨-, e, hresources⟩
  case inr =>
    rw [exec_bind_error hresources] at hsent
    exact absurd hsent (not_sent_of_log hlog)
  rw [exec_bind_ok hresources] at hsent ⊢
  rcases exec_readBalance script invoice.id w₁ with ⟨-, hread⟩ | ⟨-, e, hread⟩
  case inr =>
    rw [exec_bind_error hread] at hsent
    exact absurd hsent (not_sent_of_log ((log_afterWait script w₁).trans hlog))
  rw [exec_bind_ok hread] at hsent ⊢
  split at hsent
  · rw [exec_throw_bind] at hsent
    exact absurd hsent (hobserved _ rfl)
  rename_i hne
  rw [if_neg hne]
  have hrow₂ : (afterRead script invoice.id w₁).db.invoices.find? invoice.id = some row := by
    rw [← hrow, ← find?_afterWait hspared w]
    exact find?_afterWait hspared w₁
  apply outcome_send sends_broadcast hspared hrow₂ hawaits.unswept hobserved hsent
  intro hash w₃ hturn hrow₃
  have hturn₃ : w₃.turn = w.turn + 3 := hturn
  rw [← hturn₃]
  exact outcome_report ⟨balance, (afterWait script w₁).holds invoice.id, 0⟩ hspared hrow₃ hawaits

theorem outcome_sweepSolanaOne {solana : SolanaSweeperConfig} {invoice : Invoice} {balance : Nat}
    {chainId : String} {version : Int} (hspared : Spared script invoice.id)
    (hrow : w.db.invoices.find? invoice.id = some row) (hawaits : Awaits cfg (some .swept) row)
    (hsent : Sent w.log.length invoice.id
      (exec (sweepSolanaOne cfg script solana invoice balance chainId version) w).2) :
    Outcome invoice.id
      ((script w.turn).fate = .answered ∧
        Arrives script cfg.maxRetries (w.turn + 1) (row.version = version))
      (exec (sweepSolanaOne cfg script solana invoice balance chainId version) w).2 := by
  unfold sweepSolanaOne at hsent ⊢
  cases hchain : resolveSweeperSolanaChain solana chainId with
  | none =>
    rw [hchain] at hsent
    exact absurd hsent (not_sent_of_log rfl)
  | some chain =>
    rw [hchain] at hsent
    have hfound : exec (orThrow "Solana chain not configured" (some chain)) w = (.ok chain, w) := rfl
    rw [exec_bind_ok hfound] at hsent ⊢
    apply outcome_send sends_settle hspared hrow hawaits.unswept (fun _ => not_sent_of_log) hsent
    intro hash w₁ hturn hrow₁
    rw [← hturn]
    exact outcome_report ⟨_, _, _⟩ hspared hrow₁ hawaits

theorem reportArrives_iff {r : Ready} {version : Int}
    (hrow : w.db.invoices.find? r.invoice.id = some row) :
    ReportArrives cfg script r version w ↔
      (∀ k ≤ r.receipts, (script (w.turn + r.reads + k)).fate = .answered) ∧
        Arrives script cfg.maxRetries (w.turn + r.reads + r.receipts + 1)
          (row.version = version) := by
  have hversion : ((w.db.invoices.find? r.invoice.id).any fun row => row.version = version) =
      decide (row.version = version) := by
    rw [hrow]
    rfl
  apply Iff.intro
  · rintro ⟨hanswered, harrives⟩
    rw [hversion] at harrives
    exact ⟨hanswered, harrives⟩
  · rintro ⟨hanswered, harrives⟩
    rw [← hversion] at harrives
    exact ⟨hanswered, harrives⟩

theorem outcome_sweepClaimed {r : Ready} {version : Int} (hspared : Spared script r.invoice.id)
    (hclaimed : Claimed cfg r.invoice.id w)
    (hsent : Sent w.log.length r.invoice.id (exec (sweepClaimed cfg script version r) w).2) :
    Outcome r.invoice.id (ReportArrives cfg script r version w)
      (exec (sweepClaimed cfg script version r) w).2 := by
  obtain ⟨row, hrow, hawaits⟩ := hclaimed
  rw [reportArrives_iff hrow]
  cases r with
  | evm key invoice token balance =>
    apply (outcome_sweepOne hspared hrow hawaits hsent).congr
    show _ ↔ (∀ k ≤ 1, (script (w.turn + 2 + k)).fate = .answered) ∧ _
    simp only [Nat.le_one_iff_eq_zero_or_eq_one, forall_eq_or_imp, forall_eq, and_assoc]
    rfl
  | tron invoice token balance =>
    cases htron : tron cfg with
    | none =>
      unfold sweepClaimed at hsent
      rw [htron] at hsent
      exact absurd hsent (not_sent_of_log rfl)
    | some config =>
      have hfound : sweepClaimed cfg script version (.tron invoice token balance) =
          (orThrow "" (some config) >>= fun tron =>
            sweepTronOne cfg script tron invoice balance version) := by
        unfold sweepClaimed
        rw [htron]
      rw [hfound] at hsent ⊢
      apply (outcome_sweepTronOne hspared hrow hawaits hsent).congr
      show _ ↔ (∀ k ≤ 0, (script (w.turn + 2 + k)).fate = .answered) ∧ _
      simp only [Nat.le_zero, forall_eq]
      rfl
  | solana invoice balance mint symbol chainId =>
    cases hsolana : solana cfg with
    | none =>
      unfold sweepClaimed at hsent
      rw [hsolana] at hsent
      exact absurd hsent (not_sent_of_log rfl)
    | some config =>
      have hfound : sweepClaimed cfg script version (.solana invoice balance mint symbol chainId) =
          (orThrow "" (some config) >>= fun solana =>
            sweepSolanaOne cfg script solana invoice balance chainId version) := by
        unfold sweepClaimed
        rw [hsolana]
      rw [hfound] at hsent ⊢
      apply (outcome_sweepSolanaOne hspared hrow hawaits hsent).congr
      show _ ↔ (∀ k ≤ 0, (script (w.turn + 0 + k)).fate = .answered) ∧ _
      simp only [Nat.le_zero, forall_eq]
      rfl

/-! ## Runs -/

def Swept (id : String) (w : World) : Prop :=
  (w.db.invoices.find? id).map Invoice.status = some .swept

theorem swept_ticks_iff (hspared : Spared script id) (hempty : w.holds id = 0) :
    (∃ n, Swept id (ticks cfg script n w)) ↔ Swept id w := by
  apply Iff.intro
  · rintro ⟨n, hswept⟩
    unfold Swept at hswept ⊢
    rwa [status_ticks hspared hempty] at hswept
  · intro hswept
    exact ⟨0, hswept⟩

-- The worker has claimed the invoice and sent its sweep.
structure SweepSent (cfg : SweeperConfig) (script : Nat → Turn) (r : Ready) (version : Int)
    (w w₁ : World) : Prop where
  claimed : exec (beforeSweep cfg script r) w = (.ok (some version), w₁)
  sent : Sent w₁.log.length r.invoice.id (exec (sweepClaimed cfg script version r) w₁).2

def SameStatus (id : String) (w w' : World) : Prop :=
  (w'.db.invoices.find? id).map Invoice.status = (w.db.invoices.find? id).map Invoice.status

instance : Std.Refl (SameStatus id) := ⟨fun _ => rfl⟩

instance : IsTrans World (SameStatus id) := ⟨fun _ _ _ hfirst hsecond => hsecond.trans hfirst⟩

theorem sameStatus_serve {body : TrackBody} {turn : Turn} (hbody : body.status = none) :
    SameStatus id w (serve (track cfg body turn) w).2 := by
  unfold serve
  cases hrun : track cfg body turn w.db with
  | error e => rfl
  | ok answer =>
    obtain ⟨id', status, -, hstatus, hstep⟩ := track_eq_ok hrun
    rw [hbody] at hstatus
    cases hstatus
    obtain ⟨row, hrow, -, hfind⟩ := find?_step hstep id
    show (answer.2.invoices.find? id).map Invoice.status = _
    rw [hfind]
    split
    · rename_i hid
      rw [hid, hrow]
      rfl
    · rfl

theorem sameStatus_track {body : TrackBody} (hspared : Spared script id)
    (hbody : body.status = none) :
    Leads (SameStatus id) (signedFetch script (track cfg body)) w := by
  have hwait : SameStatus id w (afterWait script w) :=
    congrArg (Option.map Invoice.status) (find?_afterWait hspared w)
  have hserve : SameStatus id w (serve (track cfg body (script w.turn)) (afterWait script w)).2 :=
    (sameStatus_serve hbody).trans hwait
  unfold Leads
  rw [exec_signedFetch]
  cases (script w.turn).fate with
  | answered => exact hserve
  | failed => exact hwait
  | unsent => exact hwait
  | unanswered => exact hserve
  | stopped => exact hwait
  | stoppedAfter => exact hserve

/-- The report of a failure leaves the status as it is. -/
theorem sameStatus_trackAttempts {body : TrackBody} (hspared : Spared script id)
    (hbody : body.status = none) (n : Nat) (expectedVersion : Option Number) :
    Leads (SameStatus id) (trackAttempts cfg script body n expectedVersion) w := by
  induction n generalizing w expectedVersion with
  | zero => exact Leads.pure _
  | succ n ih =>
    unfold trackAttempts
    have hnote : Leads (SameStatus id)
        (note (.reported { body with expectedVersion := expectedVersion })) w := rfl
    apply hnote.bind
    intro _ w₁ _
    let payload : TrackBody := { body with expectedVersion := expectedVersion }
    have hfetch : Leads (SameStatus id) (signedFetch script (track cfg payload)) w₁ :=
      sameStatus_track hspared hbody
    apply hfetch.bind
    intro answer w₂ _
    cases answer with
    | ok answer => exact Leads.pure _
    | error e =>
      dsimp only
      split
      · cases e.invoice.filter fun invoice => invoice.status = .swept with
        | none => exact ih _
        | some invoice => exact Leads.pure _
      · split
        · exact ih _
        · exact Leads.throw _

/-- If a sweep fails then so much is reported, and the status stands. -/
theorem SweepSent.process {r : Ready} {version : Int} {w₁ : World}
    (h : SweepSent cfg script r version w w₁) (hspared : Spared script r.invoice.id) :
    SameStatus r.invoice.id (exec (sweepClaimed cfg script version r) w₁).2
      (exec (process cfg script r) w).2 := by
  have hready : exec (sweepReady cfg script r) w = exec (sweepClaimed cfg script version r) w₁ := by
    rw [sweepReady_eq, exec_bind_ok h.claimed]
  have hreport : ∀ v, Leads (SameStatus r.invoice.id) (reportError cfg script r.invoice) v := by
    intro v
    unfold reportError
    exact (sameStatus_trackAttempts hspared rfl _ _).bind fun _ _ _ => Leads.pure _
  have hcaught : ∀ v, Leads (SameStatus r.invoice.id)
      (caught (reportError cfg script r.invoice) fun _ => return ()) v := by
    intro v
    apply (hreport v).rescue
    intro e v' _
    cases e with
    | thrown message => exact Leads.pure _
    | stopped => exact Leads.throw _
  unfold SweeperWorker.process caught
  rw [← hready]
  cases hrun : exec (sweepReady cfg script r) w with
  | mk answer w₂ =>
    cases answer with
    | ok a =>
      rw [exec_rescue_ok hrun]
      rfl
    | error e =>
      rw [exec_rescue_error hrun]
      cases e with
      | thrown message => exact hcaught w₂
      | stopped => rfl

-- What the worker does to other invoices.
theorem kept_others {status : Option InvoiceStatus} (hspared : Spared script id)
    (h : Reaches cfg script (· ≠ id) start w w')
    (hrow : (w.db.invoices.find? id).map Invoice.status = status) :
    (w'.db.invoices.find? id).map Invoice.status = status := by
  apply h.invariant (I := fun v => (v.db.invoices.find? id).map Invoice.status = status) _ hrow
  intro v v' hrow hstep
  cases hstep with
  | others hother =>
    rw [find?_apply (hspared _ _ hother)]
    exact hrow
  | turn n => exact hrow
  | reads hwho => exact hrow
  | calls hretries hcall hok =>
    obtain ⟨row, -, -, hfind⟩ := find?_step hok id
    show ((_ : CommerceDb).invoices.find? id).map Invoice.status = status
    rw [hfind, if_neg]
    · exact hrow
    · cases hcall with
      | claim hwho hseen version n => exact Ne.symm hwho
      | track hwho hsaid hstatus n => exact Ne.symm hwho
  | reports hwho hsaid => exact hrow
  | sends hwho hseen hpositive hcharged hholds => exact hrow

/-- Once its address is empty, an invoice is recorded swept by some later tick if and only if it is
already.  When the worker has sent the sweep itself, that is if and only if its report arrives. -/
theorem sweep_recorded_iff (cfg : SweeperConfig) (script : Nat → Turn) (id : String)
    (hspared : Spared script id) :
    (∀ w, w.holds id = 0 → ((∃ n, Swept id (ticks cfg script n w)) ↔ Swept id w)) ∧
      ∀ r version w w₁, r.invoice.id = id → SweepSent cfg script r version w w₁ →
        ∀ start w₂, Reaches cfg script (· ≠ id) start (exec (process cfg script r) w).2 w₂ →
          w₂.holds id = 0 →
          ((∃ n, Swept id (ticks cfg script n w₂)) ↔ ReportArrives cfg script r version w₁) := by
  refine ⟨fun w hempty => swept_ticks_iff hspared hempty, ?_⟩
  rintro r version w w₁ rfl hsweep start w₂ hrest hempty
  have hclaimed := claimed_of_beforeSweep hspared hsweep.claimed
  obtain ⟨row, hrow, houtcome⟩ := outcome_sweepClaimed hspared hclaimed hsweep.sent
  have hstatus := kept_others hspared hrest ((hsweep.process hspared).trans
    (congrArg (Option.map Invoice.status) hrow))
  rw [swept_ticks_iff hspared hempty]
  unfold Swept
  rw [hstatus, ← houtcome]
  exact Option.some_inj

def toyReady : Ready := .evm "8453" toyInvoice (some "0x8335") 25000000

theorem spared_quiet (id : String) : Spared quiet id :=
  fun _ _ hother => absurd hother List.not_mem_nil

theorem sweep_recorded_iff_toy :
    ((∃ n, Swept "id" (ticks .toy quiet n (.toy 0))) ↔ Swept "id" (.toy 0)) ∧
      ((∃ n, Swept "id" (ticks .toy quiet n
          (exec (process .toy quiet toyReady) (.toy 25000000)).2)) ↔
        ReportArrives .toy quiet toyReady 3
          (exec (beforeSweep .toy quiet toyReady) (.toy 25000000)).2) := by
  obtain ⟨hempty, hsent⟩ := sweep_recorded_iff .toy quiet "id" (spared_quiet "id")
  have hclaimed : (exec (beforeSweep .toy quiet toyReady) (.toy 25000000)).1 = .ok (some 3) := by
    decide +kernel
  have hsweep : SweepSent .toy quiet toyReady 3 (.toy 25000000)
      (exec (beforeSweep .toy quiet toyReady) (.toy 25000000)).2 :=
    ⟨Prod.ext hclaimed rfl, ⟨"0xT", .evm 25000000 125000 125000, 25000000, by decide +kernel⟩⟩
  exact ⟨hempty (.toy 0) rfl, hsent toyReady 3 (.toy 25000000) _ rfl hsweep 0 _ .refl
    (by decide +kernel)⟩

-- The worker stops after it has sent the sweep.
def crashing (n : Nat) : Turn :=
  { quiet n with fate := if n = 7 then .stoppedAfter else .answered }

-- Somebody else sweeps before the worker looks.
def overtaken (n : Nat) : Turn :=
  { quiet n with others := if n = 1 then [.sweeps "id" 25000000] else [] }

theorem spared_overtaken : Spared overtaken "id" := by
  intro n other hother
  unfold overtaken at hother
  dsimp only at hother
  split at hother
  · rw [List.mem_singleton.mp hother]
    trivial
  · exact absurd hother List.not_mem_nil

/-- A swept invoice stays paid after a crash, and awaits its payment after a sweep by somebody else,
for ever. -/
theorem sweeps_not_recorded :
    ((ticks .toy crashing 1 (.toy 25000000)).swept "id" = 25000000 ∧
        (ticks .toy crashing 1 (.toy 25000000)).holds "id" = 0 ∧
        ∀ n, ((ticks .toy crashing n (ticks .toy crashing 1 (.toy 25000000))).db.invoices.find?
          "id").map Invoice.status = some .paid) ∧
      ((ticks .toy overtaken 1 (.toy 25000000)).swept "id" = 25000000 ∧
        (ticks .toy overtaken 1 (.toy 25000000)).holds "id" = 0 ∧
        ∀ n, ((ticks .toy overtaken n (ticks .toy overtaken 1 (.toy 25000000))).db.invoices.find?
          "id").map Invoice.status = some .awaitingPayment) := by
  have hcrash : (ticks .toy crashing 1 (.toy 25000000)).holds "id" = 0 := by decide +kernel
  have hovertaken : (ticks .toy overtaken 1 (.toy 25000000)).holds "id" = 0 := by decide +kernel
  refine ⟨⟨by decide +kernel, hcrash, fun n => ?_⟩, by decide +kernel, hovertaken, fun n => ?_⟩
  · rw [status_ticks (fun _ _ hother => absurd hother List.not_mem_nil) hcrash]
    decide +kernel
  · rw [status_ticks spared_overtaken hovertaken]
    decide +kernel

end OnchainInvoice.SweeperWorker
