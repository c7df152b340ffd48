import OnchainInvoice.Worker.Rounds

/-!
# Invoices that are attended to

A tick without failures that lists an invoice finds what is at its address and sweeps it.
-/

namespace OnchainInvoice.SweeperWorker

open Lib.Handlers Lib.Tables Server Table

variable {cfg : SweeperConfig} {script : Nat → Turn} {start : Nat} {id : String}
  {ids : List String} {cutoff : Time} {w w' : World} {x : Invoice} {balance : Nat}
  {log log' : List Action}

/-! ## Sweeps of a whole balance -/

-- The sweep of the balance has been sent since the log had the length.
def SentAll (start : Nat) (id : String) (balance : Nat) (log : List Action) : Prop :=
  ∃ hash sweep total, sweep.amount = balance ∧ .sent id hash sweep total ∈ log.drop start

theorem SentAll.mono (h : SentAll start id balance log) (hlog : log <+: log') :
    SentAll start id balance log' := by
  obtain ⟨hash, sweep, total, hamount, hmem⟩ := h
  exact ⟨hash, sweep, total, hamount, mem_drop_mono hlog hmem⟩

theorem SentAll.of_snoc {hash : String} {sweep : Sweep} {total : Nat} (hstart : start ≤ log.length)
    (hlog : log' = log ++ [.sent id hash sweep total]) (hamount : sweep.amount = balance) :
    SentAll start id balance log' := by
  refine ⟨hash, sweep, total, hamount, ?_⟩
  rw [hlog, List.drop_append_of_le_length hstart]
  exact List.mem_append_right _ (List.mem_singleton_self _)

theorem SentAll.of_leads {α : Type} {k : Work α} (h : SentAll start id balance w.log)
    (hk : Leads (Reaches cfg script (fun _ => True) 0) k w) :
    SentAll start id balance (exec k w).2.log :=
  h.mono (Reaches.log hk)

theorem exec_send_of_calm (hcalm : Calm script) {act : Turn → StateM World (Option String)}
    {message hash : String} {k : String → Work Unit}
    (hact : act (script w.turn) (afterWait script w) = (some hash, w')) :
    exec (rpc script act >>= fun hash => orThrow message hash >>= k) w = exec (k hash) w' := by
  have hrpc := exec_rpc_of_calm hcalm act w
  rw [hact] at hrpc
  have hthrow : exec (orThrow message (some hash)) w' = (.ok hash, w') := rfl
  rw [exec_bind_ok hrpc, exec_bind_ok hthrow]

theorem execute_of_holds {amount : Nat} (sweep : World → Sweep) (hash : String)
    (h : amount ≤ w.holds id) : ∃ w' total, execute id amount sweep hash w = (some hash, w') ∧
      w'.log = w.log ++ [.sent id hash (sweep w) total] := by
  unfold execute
  rw [if_pos h]
  exact ⟨_, _, rfl, rfl⟩

section

variable (hcalm : Calm script) (hund : Undisturbed script ids cutoff) (hx : x.id ∈ ids)
  {invoice : Invoice} (hid : invoice.id = x.id) (hfresh : Fresh x balance w)
  (hstart : start ≤ w.log.length)
include hcalm hund hx hid hfresh

theorem exec_read_of_fresh :
    exec (readBalance script invoice.id) w = (.ok balance, afterRead script invoice.id w) := by
  have hread := exec_readBalance_of_calm hcalm invoice.id w
  have hholds := (hfresh.afterWait hx hund).holds
  rw [← hid] at hholds
  rwa [hholds] at hread

include hstart

theorem sends_sweepOne (version : Int) : SentAll start invoice.id balance
    (exec (sweepOne cfg script invoice balance version) w).2.log := by
  have hread := exec_read_of_fresh hcalm hund hx hid hfresh
  let w₁ := afterRead script invoice.id w
  let w₂ := afterWait script w₁
  let fee := w₂.fees.evm balance
  have hquote : exec (rpc script fun _ => do return (← get).fees.evm balance) w₁ = (.ok fee, w₂) :=
    exec_rpc_of_calm hcalm _ w₁
  have hfresh₃ : Fresh x balance (afterWait script w₂) :=
    ((hfresh.afterRead hx hund invoice.id).afterWait hx hund).afterWait hx hund
  have hholds : balance ≤ (afterWait script w₂).holds invoice.id := by
    rw [hid, hfresh₃.holds]
  obtain ⟨w₃, total, hsend, hlog⟩ := execute_of_holds
    (fun w => .evm balance fee (w.fees.evm balance)) (script w₂.turn).hash hholds
  have hstart₂ : start ≤ (afterWait script w₂).log.length := by
    rw [log_afterWait, log_afterWait]
    show start ≤ ((afterWait script w).log ++ _).length
    rw [log_afterWait, List.length_append]
    omega
  unfold sweepOne
  rw [exec_bind_ok hread]
  dsimp only
  rw [if_neg (lt_irrefl _), exec_bind_ok hquote, exec_send_of_calm hcalm hsend]
  apply SentAll.of_leads (SentAll.of_snoc hstart₂ hlog rfl)
  have hgas : Leads (Reaches cfg script (fun _ => True) 0)
      (rpc script fun turn => return turn.gasSpentWei) w₃ := leads_rpc fun _ _ => .refl
  apply hgas.bind
  intro gasSpentWei w₄ hrun
  have hreport : Leads (Reaches cfg script (fun _ => True) 0) (trackWithRetry cfg script
      (sweptReport invoice balance balance fee gasSpentWei (script w₂.turn).hash version)) w₄ :=
    leads_report trivial (Nat.zero_le _) hlog (hgas.after hrun).log
  exact hreport.bind fun _ _ _ => Leads.pure _

theorem sends_sweepTronOne {tron : TronSweeperConfig} (version : Int)
    (hderived : some (tron.deriveTronInvoiceAddress (invoice.chainId.getD "nile") invoice.id) =
      invoice.invoiceAddress) (hpositive : balance ≠ 0) : SentAll start invoice.id balance
    (exec (sweepTronOne cfg script tron invoice balance version) w).2.log := by
  let w₁ := afterWait script w
  let w₂ := afterRead script invoice.id w₁
  have hresources : exec (rpc script fun _ => return ()) w = (.ok (), w₁) :=
    exec_rpc_of_calm hcalm _ w
  have hread := exec_read_of_fresh hcalm hund hx hid (hfresh.afterWait hx hund)
  obtain ⟨w₃, hsend, hlog⟩ : ∃ w₃, broadcast invoice.id balance balance (script w₂.turn).hash
        (afterWait script w₂) = (some (script w₂.turn).hash, w₃) ∧
      w₃.log = (afterWait script w₂).log ++ [.sent invoice.id (script w₂.turn).hash
        (.tron balance balance) ((afterWait script w₂).swept invoice.id + balance)] :=
    ⟨_, rfl, rfl⟩
  have hstart₂ : start ≤ (afterWait script w₂).log.length := by
    rw [log_afterWait]
    show start ≤ ((afterWait script w₁).log ++ _).length
    rw [log_afterWait, log_afterWait, List.length_append]
    omega
  unfold sweepTronOne
  dsimp only
  rw [if_neg (not_not.mpr hderived), exec_bind_ok hresources, exec_bind_ok hread, if_neg hpositive,
    exec_send_of_calm hcalm hsend]
  apply SentAll.of_leads (SentAll.of_snoc hstart₂ hlog rfl)
  have hreport : Leads (Reaches cfg script (fun _ => True) 0) (trackWithRetry cfg script
      (sweptReport invoice balance balance 0 0 (script w₂.turn).hash version)) w₃ :=
    leads_report trivial (Nat.zero_le _) hlog (List.prefix_refl _)
  exact hreport.bind fun _ _ _ => Leads.pure _

theorem sends_sweepSolanaOne {solana : SolanaSweeperConfig} {chainId : String} (version : Int)
    (hchain : (resolveSweeperSolanaChain solana chainId).isSome = true) (hpositive : balance ≠ 0) :
    SentAll start invoice.id balance
      (exec (sweepSolanaOne cfg script solana invoice balance chainId version) w).2.log := by
  obtain ⟨chain, hchain⟩ := Option.isSome_iff_exists.mp hchain
  let feeBps := (chain.feeBps.or solana.feeBps).getD 50
  have hfound : exec (orThrow "Solana chain not configured" (some chain)) w = (.ok chain, w) := rfl
  have hholds : (afterWait script w).holds invoice.id = balance := by
    rw [hid]
    exact (hfresh.afterWait hx hund).holds
  obtain ⟨w₁, total, hsend, hlog⟩ := execute_of_holds
    (fun w => .solana balance feeBps balance (w.fees.solana balance)) (script w.turn).hash hholds.ge
  have hsettle : settle invoice.id balance feeBps (script w.turn).hash (afterWait script w) =
      (some (script w.turn).hash, w₁) := by
    unfold settle
    dsimp only
    rw [hholds, if_neg hpositive]
    exact hsend
  have hstart₁ : start ≤ (afterWait script w).log.length := by
    rwa [log_afterWait]
  unfold sweepSolanaOne
  rw [hchain, exec_bind_ok hfound, exec_send_of_calm hcalm hsettle]
  apply SentAll.of_leads (SentAll.of_snoc hstart₁ hlog rfl)
  have hreport : Leads (Reaches cfg script (fun _ => True) 0) (trackWithRetry cfg script
      (sweptReport invoice balance (balance - ((balance : Int) * feeBps).tdiv 10000)
        (((balance : Int) * feeBps).tdiv 10000) 0 (script w.turn).hash version)) w₁ :=
    leads_report trivial (Nat.zero_le _) hlog (List.prefix_refl _)
  exact hreport.bind fun _ _ _ => Leads.pure _

end

/-! ## What is ready -/

-- The worker is set up to sweep the invoice.
structure Able (cfg : SweeperConfig) (x : Invoice) : Prop where
  retries : 0 < cfg.maxRetries
  reads : ∃ key, look cfg x = .reads key ∧
    ∀ chainId ∈ key, ((sweepChains cfg).any fun entry => entry.chainId = chainId) = true
  derived : ∀ config ∈ tron cfg, isTronInvoice x = true →
    some (config.deriveTronInvoiceAddress (x.chainId.getD "nile") x.id) = x.invoiceAddress

-- A report that is not of a sweep leaves the lease alone.
theorem unleased_tracked {input : TrackInvoice} {now : Time}
    (hunswept : input.status.getD x.status ≠ .swept) (h : Unleased cfg cutoff x) :
    Unleased cfg cutoff (tracked input now x) := by
  unfold Unleased tracked
  dsimp only
  rw [if_neg hunswept, if_neg hunswept]
  exact h

section

variable (hcalm : Calm script) (hund : Undisturbed script ids cutoff) (hx : x.id ∈ ids)
  (hvisible : Visible cfg cutoff x) (hretries : 0 < cfg.maxRetries) (hfresh : Fresh x balance w)
include hcalm hund hx hvisible hretries hfresh

theorem exec_claim_of_fresh {invoice : Invoice} (hid : invoice.id = x.id)
    (hversion : invoice.version = x.version) :
    ∃ row v, exec (claimWithRetry cfg script invoice) w = (.ok (some row), v) ∧ v.log = w.log ∧
      row.id = x.id ∧ Visible cfg cutoff row ∧ Fresh row balance v := by
  obtain ⟨row, db', rfl, hrun, hfind⟩ := exec_claim_of_calm hcalm hund hretries hx hfresh.row
    hvisible.unleased hvisible.status hid hversion
  have hwait := hfresh.afterWait hx hund
  exact ⟨_, _, hrun, log_afterWait script w, rfl, ⟨hvisible.status, .inr (.inl rfl)⟩, hfind,
    hwait.holds, hwait.settled⟩

theorem exec_paid_of_fresh {invoice : Invoice} (hid : invoice.id = x.id) :
    ∃ row v, exec (trackWithRetry cfg script (paidReport invoice balance x.version)) w =
        (.ok (some row), v) ∧ w.log <+: v.log ∧ row.id = x.id ∧ Visible cfg cutoff row ∧
      Fresh row balance v := by
  let body := paidReport invoice balance x.version
  obtain ⟨status, hworker, hstatus⟩ := parse_paidReport invoice balance x.version
  have hunswept := ne_swept_of_worker hworker
  obtain ⟨row, db', rfl, hrun, hfind⟩ := exec_report_of_calm hcalm (hund.spared hx) hretries
    hfresh.row body (congrArg some hid) hstatus rfl
    (hvisible.awaits fun hswept => hunswept (Option.some.inj hswept))
  have hnoted : Fresh x balance { w with log := w.log ++ [.reported body] } :=
    ⟨hfresh.row, hfresh.holds, hfresh.settled.snoc rfl rfl fun _ _ _ _ heq => by cases heq⟩
  have hwait := hnoted.afterWait hx hund
  have hlog : w.log <+: (afterWait script { w with log := w.log ++ [.reported body] }).log := by
    rw [log_afterWait]
    exact List.prefix_append ..
  exact ⟨_, _, hrun, hlog, rfl, ⟨hworker, unleased_tracked hunswept hvisible.unleased⟩, hfind,
    hwait.holds, hwait.settled⟩

end

section

variable (hcalm : Calm script) (hund : Undisturbed script ids cutoff) (hx : x.id ∈ ids)
  (hvisible : Visible cfg cutoff x) (hretries : 0 < cfg.maxRetries) (hfresh : Fresh x balance w)
  (hstart : start ≤ w.log.length)
include hcalm hund hx hvisible hretries hfresh hstart

theorem sends_claimAndSweep {sweep : Int → Work Unit}
    (hsweep : ∀ version row v, x.id = row.id → Fresh row balance v → start ≤ v.log.length →
      SentAll start x.id balance (exec (sweep version) v).2.log) :
    SentAll start x.id balance (exec (claimAndSweep cfg script x balance sweep) w).2.log := by
  obtain ⟨claimed, w₁, hclaim, hlog₁, hid₁, hvisible₁, hfresh₁⟩ :=
    exec_claim_of_fresh hcalm hund hx hvisible hretries hfresh rfl rfl
  obtain ⟨paid, w₂, hpaid, hlog₂, hid₂, -, hfresh₂⟩ :=
    exec_paid_of_fresh hcalm hund (hid₁ ▸ hx) hvisible₁ hretries hfresh₁ hid₁.symm
  unfold claimAndSweep
  rw [exec_bind_ok hclaim]
  dsimp only
  rw [exec_bind_ok hpaid]
  apply hsweep _ paid w₂ (hid₂.trans hid₁).symm hfresh₂
  rw [← hlog₁] at hstart
  exact hstart.trans hlog₂.length_le

theorem sends_sweepEvm {key : String}
    (hkey : ((sweepChains cfg).any fun entry => entry.chainId = key) = true) :
    SentAll start x.id balance (exec (sweepEvm cfg script key x balance) w).2.log := by
  -- Paid or not yet, the row is then claimed with the version that it has.
  obtain ⟨paid, w₁, hmark, hlog₁, hid₁, hvisible₁, hfresh₁⟩ : ∃ paid v,
      exec (markPaid cfg script x balance) w = (.ok (some paid), v) ∧ w.log <+: v.log ∧
        paid.id = x.id ∧ Visible cfg cutoff paid ∧ Fresh paid balance v := by
    unfold markPaid
    split
    · exact exec_paid_of_fresh hcalm hund hx hvisible hretries hfresh rfl
    · exact ⟨x, w, rfl, List.prefix_refl _, rfl, hvisible, hfresh⟩
  have hclaim_id : ({ x with version := paid.version } : Invoice).id = paid.id := hid₁.symm
  obtain ⟨claimed, w₂, hclaim, hlog₂, hid₂, -, hfresh₂⟩ :=
    exec_claim_of_fresh hcalm hund (hid₁ ▸ hx) hvisible₁ hretries hfresh₁ hclaim_id rfl
  unfold sweepEvm
  rw [exec_bind_ok hmark]
  dsimp only
  rw [if_pos hkey, exec_bind_ok hclaim]
  have hid : x.id = claimed.id := (hid₂.trans hid₁).symm
  rw [← hlog₂] at hlog₁
  exact sends_sweepOne hcalm hund (hid ▸ hx) hid hfresh₂ (hstart.trans hlog₁.length_le) _

end

/-- What is ready is swept if the worker is set up for it. -/
theorem sends_process {r : Ready} (hcalm : Calm script) (hund : Undisturbed script ids cutoff)
    (hx : x.id ∈ ids) (hvisible : Visible cfg cutoff x) (hable : Able cfg x)
    (hready : ReadyFor cfg x balance r) (hfresh : Fresh x balance w)
    (hstart : start ≤ w.log.length) :
    SentAll start x.id balance (exec (process cfg script r) w).2.log := by
  have hprocess : Reaches cfg script (fun _ => True) start (exec (sweepReady cfg script r) w).2
      (exec (process cfg script r) w).2 := reaches_process start r
  apply SentAll.mono _ hprocess.log
  obtain ⟨key, hlook, hkey⟩ := hable.reads
  have hreads : key = r.key := Look.reads.inj (hlook.symm.trans hready.key)
  obtain ⟨rfl, -, rfl, hfits, hpositive⟩ := hready
  cases r with
  | evm chainId invoice token bal =>
    exact sends_sweepEvm hcalm hund hx hvisible hable.retries hfresh hstart
      (hkey chainId (hreads ▸ rfl))
  | tron invoice token bal =>
    obtain ⟨htron, hconfig⟩ := hfits
    obtain ⟨config, hconfig⟩ := Option.isSome_iff_exists.mp hconfig
    apply sends_claimAndSweep hcalm hund hx hvisible hable.retries hfresh hstart
    intro version row v hid hrow hv
    rw [hconfig]
    exact sends_sweepTronOne hcalm hund (hid ▸ hx) hid hrow hv version
      (hable.derived config hconfig htron) hpositive
  | solana invoice bal mint symbol chainId =>
    obtain ⟨config, hconfig, hchain⟩ := hfits
    apply sends_claimAndSweep hcalm hund hx hvisible hable.retries hfresh hstart
    intro version row v hid hrow hv
    rw [hconfig]
    exact sends_sweepSolanaOne hcalm hund (hid ▸ hx) hid hrow hv version hchain hpositive

/-! ## A tick -/

theorem AllFound.tail {r : Ready} {ready : List Ready} {who : String → Prop}
    (h : AllFound who start (r :: ready) w) : AllFound who start ready w where
  since := h.since
  who := fun r' hr' => h.who r' (List.mem_cons_of_mem r hr')
  seen := fun r' hr' => h.seen r' (List.mem_cons_of_mem r hr')

theorem Able.unchanged_eq_false (h : Able cfg x) (hpositive : balance ≠ 0) :
    unchanged cfg balance x = false := by
  obtain ⟨key, hlook, hkey⟩ := h.reads
  unfold unchanged
  rw [hlook]
  apply decide_eq_false
  rintro (hzero | ⟨chainId, hchain, -, hno⟩)
  · exact hpositive hzero
  · rw [hkey chainId hchain] at hno
    cases hno

section

variable (hcalm : Calm script) (hund : Undisturbed script ids cutoff) (hx : x.id ∈ ids)
  (hvisible : Visible cfg cutoff x) (hable : Able cfg x) (hfresh : Fresh x balance w)
include hcalm hund hx hvisible hable hfresh

theorem sends_processAll {ready : List Ready}
    (hready : ∀ r ∈ ready, r.invoice.id = x.id → ReadyFor cfg x balance r)
    (hfound : AllFound (fun _ => True) start ready w) (hmem : ∃ r ∈ ready, r.invoice = x) :
    SentAll start x.id balance (exec (ready.forM (process cfg script)) w).2.log := by
  induction ready generalizing w with
  | nil =>
    obtain ⟨r, hr, -⟩ := hmem
    exact absurd hr List.not_mem_nil
  | cons r ready ih =>
    have hrun : exec (process cfg script r) w = (.ok (), (exec (process cfg script r) w).2) :=
      exec_process_of_calm hcalm r w
    have hforM : exec ((r :: ready).forM (process cfg script)) w =
        exec (ready.forM (process cfg script)) (exec (process cfg script r) w).2 :=
      exec_bind_ok hrun
    have hreach : Reaches cfg script (· = r.invoice.id) start w (exec (process cfg script r) w).2 :=
      leads_process rfl hfound.since (hfound.seen r (List.mem_cons_self ..))
    have hfound' := (hfound.mono hreach.log).tail
    rw [hforM]
    by_cases hid : r.invoice.id = x.id
    · have hsent := sends_process hcalm hund hx hvisible hable
        (hready r (List.mem_cons_self ..) hid) hfresh hfound.since
      exact hsent.mono (Reaches.log (leads_processAll hfound'))
    · apply ih (hfresh.reaches hx hund (fun heq => hid heq.symm) hreach)
        (fun r' hr' => hready r' (List.mem_cons_of_mem r hr')) hfound'
      obtain ⟨r', hr', hself⟩ := hmem
      rcases List.mem_cons.mp hr' with rfl | htail
      · exact absurd (congrArg Invoice.id hself) hid
      · exact ⟨r', htail, hself⟩

/-- A tick without failures that lists an invoice with a balance reads it and sends its sweep. -/
theorem tick_sends (hpast : x.updatedAt ≤ cutoff) (hlisted : x ∈ listed cfg script w)
    (hpositive : balance ≠ 0) :
    Seen w.log.length x.id balance (exec (tick cfg script) w).2.log ∧
      SentAll w.log.length x.id balance (exec (tick cfg script) w).2.log := by
  have hfresh₁ := hfresh.afterWait hx hund
  have hlog : (afterWait script w).log = w.log := log_afterWait script w
  have hsame : ∀ invoice ∈ listed cfg script w, invoice.id = x.id → invoice = x := by
    intro invoice hinvoice hid
    have hfind := find?_of_mem_queue (List.mem_of_mem_take hinvoice)
    rw [hid, hfresh₁.row] at hfind
    exact (Option.some.inj hfind).symm
  have hempty : AllFound (fun _ => True) w.log.length [] (afterWait script w) :=
    ⟨hlog ▸ le_refl _, fun r hr => absurd hr List.not_mem_nil,
      fun r hr => absurd hr List.not_mem_nil⟩
  obtain ⟨ready, w', hrun, hlooking, hfound, hnoticed⟩ := examine_loop hcalm hund hable.retries hx
    hvisible hsame (.inl ⟨hfresh₁, fun r hr => absurd hr List.not_mem_nil⟩) hempty
  obtain ⟨key, hlook, -⟩ := hable.reads
  rcases hlooking with ⟨hfresh', hready⟩ | ⟨hfails, -⟩
  case inr =>
    rw [hlook] at hfails
    cases hfails
  obtain ⟨r, hr, hself⟩ : ∃ r ∈ ready, r.invoice = x := by
    rcases hnoticed (.inl hlisted) with hsame | ⟨row, hrow, hlate⟩ | hmem
    · rw [hable.unchanged_eq_false hpositive] at hsame
      cases hsame
    · rw [hfresh'.row] at hrow
      cases hrow
      exact absurd hlate (not_lt.mpr hpast)
    · exact hmem
  have hfound' : AllFound (fun _ => True) w.log.length (inOrder ready) w' :=
    ⟨hfound.since, fun r hr => hfound.who r (mem_inOrder.mp hr),
      fun r hr => hfound.seen r (mem_inOrder.mp hr)⟩
  have hseen := hfound.seen r hr
  rw [(hready r hr (congrArg Invoice.id hself)).amount, hself] at hseen
  have hsent := sends_processAll hcalm hund hx hvisible hable hfresh'
    (fun r hr => hready r (mem_inOrder.mp hr)) hfound' ⟨r, mem_inOrder.mpr hr, hself⟩
  have htick : exec (tick cfg script) w = exec ((inOrder ready).forM (process cfg script)) w' := by
    rw [tick_eq, exec_bind_ok (exec_fetchInvoices hcalm w)]
    exact exec_bind_ok hrun
  rw [htick]
  exact ⟨hseen.mono (Reaches.log (leads_processAll hfound')), hsent⟩

end

end OnchainInvoice.SweeperWorker
