import OnchainInvoice.Worker.Actions

/-!
# What the worker does to the world

All that a tick does, from its requests to the whole, is made of what can happen in one.
-/

namespace OnchainInvoice.SweeperWorker

open Lib.Handlers Lib.Revert Lib.Tables Relation Server Table

variable {cfg : SweeperConfig} {script : Nat → Turn} {who : String → Prop} {start : Nat}
  {w w' : World} {α : Type}

/-! ## Requests -/

theorem leads_signedFetch {handle : Turn → CommerceDb → Except HttpError (α × CommerceDb)}
    (hhandle : ∀ w' a db', Reaches cfg script who start w w' →
      handle (script w.turn) w'.db = .ok (a, db') →
        Reaches cfg script who start w' { w' with db := db' }) :
    Leads (Reaches cfg script who start) (signedFetch script handle) w := by
  have hserve : ∀ w', Reaches cfg script who start w w' →
      Reaches cfg script who start w' (serve (handle (script w.turn)) w').2 := by
    intro w' hw'
    unfold serve
    cases hrun : handle (script w.turn) w'.db with
    | ok answer => exact hhandle w' answer.1 answer.2 hw' hrun
    | error e => exact .refl
  exact (leads_interact hserve).bind fun _ _ _ => Leads.pure _

theorem claim_eq_ok {id : String} {version : Int} {turn : Turn} {db db' : CommerceDb}
    {invoice : Invoice} (h : claim cfg id version turn db = .ok (invoice, db')) :
    step db (.claim ⟨id, cfg.address, some version, cfg.claimLeaseMs⟩ turn.now.check) = .ok db' :=
  map_eq_ok.mpr ⟨_, h, rfl⟩

theorem track_eq_ok {body : TrackBody} {turn : Turn} {db db' : CommerceDb}
    {answer : Option Invoice} (h : track cfg body turn db = .ok (answer, db')) :
    ∃ id status, body.invoiceId = some id ∧ parseInvoiceStatus body.status = .ok status ∧
      step db (.track (body.input id status (some cfg.address)) turn.now) = .ok db' := by
  unfold track at h
  obtain ⟨⟨callback, db₁⟩, happly, hanswer⟩ := bind_eq_ok.mp h
  cases hanswer
  obtain ⟨id, status, invoice, hid, hstatus, -, -, hstep⟩ := applyTrack_eq_ok happly
  exact ⟨id, status, hid, hstatus, hstep⟩

theorem leads_claimAttempts {id : String} {balance : Nat} (hwho : who id) {n : Nat}
    (hn : n ≤ cfg.maxRetries) {version : Int} (hseen : Seen start id balance w.log) :
    Leads (Reaches cfg script who start) (claimAttempts cfg script id n version) w := by
  induction n generalizing w version with
  | zero => exact Leads.pure _
  | succ n ih =>
    have hfetch : Leads (Reaches cfg script who start)
        (signedFetch script (claim cfg id version)) w := by
      apply leads_signedFetch
      intro w' a db' hw' hclaim
      exact .single (.calls (by omega)
        (.claim hwho (hseen.mono hw'.log) version w.turn) (claim_eq_ok hclaim))
    unfold claimAttempts
    apply hfetch.bind
    intro answer w' hrun
    have hseen' : Seen start id balance w'.log := hseen.mono (hfetch.after hrun).log
    cases answer with
    | ok invoice => exact Leads.pure _
    | error e =>
      dsimp only
      split
      · cases e.invoice with
        | none => exact Leads.pure _
        | some current =>
          dsimp only
          split
          · exact Leads.pure _
          · exact ih (by omega) hseen'
      · split
        · exact ih (by omega) hseen'
        · exact Leads.throw _

theorem leads_trackAttempts {invoice : Invoice} {body : TrackBody} (hwho : who invoice.id) {n : Nat}
    (hn : n ≤ cfg.maxRetries) {expectedVersion : Option Number}
    (hsaid : Says start w.log invoice body) :
    Leads (Reaches cfg script who start) (trackAttempts cfg script body n expectedVersion) w := by
  induction n generalizing w expectedVersion with
  | zero => exact Leads.pure _
  | succ n ih =>
    unfold trackAttempts
    have hpayload := hsaid.withVersion expectedVersion
    have hnote : Leads (Reaches cfg script who start)
        (note (.reported { body with expectedVersion := expectedVersion })) w :=
      .single (.reports hwho hpayload)
    apply hnote.bind
    intro _ w₁ hrun₁
    have hlog₁ : w.log <+: w₁.log := (hnote.after hrun₁).log
    have hfetch : Leads (Reaches cfg script who start)
        (signedFetch script (track cfg { body with expectedVersion := expectedVersion })) w₁ := by
      apply leads_signedFetch
      intro w' a db' hw' htrack
      obtain ⟨id, status, hid, hstatus, hstep⟩ := track_eq_ok htrack
      rw [hpayload.invoiceId] at hid
      cases hid
      have hsaid' := hpayload.mono (hlog₁.trans hw'.log)
      exact .single (.calls (by omega) (.track hwho hsaid' hstatus w₁.turn) hstep)
    apply hfetch.bind
    intro answer w₂ hrun₂
    have hsaid₂ : Says start w₂.log invoice body :=
      hsaid.mono (hlog₁.trans (hfetch.after hrun₂).log)
    cases answer with
    | ok answer => exact Leads.pure _
    | error e =>
      dsimp only
      split
      · cases e.invoice.filter fun invoice => invoice.status = .swept with
        | none => exact ih (by omega) hsaid₂
        | some invoice => exact Leads.pure _
      · split
        · exact ih (by omega) hsaid₂
        · exact Leads.throw _

theorem leads_trackWithRetry {invoice : Invoice} {body : TrackBody} (hwho : who invoice.id)
    (hsaid : Says start w.log invoice body) :
    Leads (Reaches cfg script who start) (trackWithRetry cfg script body) w :=
  leads_trackAttempts hwho (le_refl _) hsaid

theorem leads_claimWithRetry {invoice : Invoice} {balance : Nat} (hwho : who invoice.id)
    (hseen : Seen start invoice.id balance w.log) :
    Leads (Reaches cfg script who start) (claimWithRetry cfg script invoice) w :=
  leads_claimAttempts hwho (le_refl _) hseen

/-! ## Chains -/

theorem log_others (others : List Other) (w : World) :
    (others.foldl World.apply w).log = w.log := by
  induction others generalizing w with
  | nil => rfl
  | cons other others ih => rw [List.foldl_cons, ih, log_apply]

theorem log_afterWait (script : Nat → Turn) (w : World) : (afterWait script w).log = w.log :=
  log_others _ w

theorem readBalance_eq (script : Nat → Turn) (id : String) :
    readBalance script id = rpc script (fun _ => do return (← get).holds id) >>= fun balance =>
      note (.observed id balance) >>= fun _ => pure balance := rfl

theorem read_eq_ok {id : String} {balance : Nat}
    (h : exec (rpc script fun _ => do return (← get).holds id) w = (.ok balance, w')) :
    w' = afterWait script w ∧ balance = w'.holds id := by
  cases rpc_eq_ok h
  exact ⟨rfl, rfl⟩

theorem leads_readBalance {id : String} (hwho : who id) :
    Leads (Reaches cfg script who start) (readBalance script id) w := by
  rw [readBalance_eq]
  have hrpc : Leads (Reaches cfg script who start)
      (rpc script fun _ => do return (← get).holds id) w :=
    leads_rpc fun _ _ => .refl
  apply hrpc.bind
  intro balance w₁ hrun
  obtain ⟨-, rfl⟩ := read_eq_ok hrun
  exact .single (.reads hwho)

theorem log_of_readBalance {id : String} {balance : Nat}
    (h : exec (readBalance script id) w = (.ok balance, w')) :
    w'.log = w.log ++ [Action.observed id balance] := by
  rw [readBalance_eq] at h
  obtain ⟨balance', w₁, hrun₁, hrun₂⟩ := exec_bind_eq_ok h
  obtain ⟨rfl, -⟩ := read_eq_ok hrun₁
  cases hrun₂
  show (afterWait script w).log ++ _ = _
  rw [log_afterWait]

theorem seen_of_readBalance {id : String} {balance : Nat} (hstart : start ≤ w.log.length)
    (hne : balance ≠ 0) (h : exec (readBalance script id) w = (.ok balance, w')) :
    Seen start id balance w'.log := by
  refine ⟨hne, ?_⟩
  rw [log_of_readBalance h, List.drop_append_of_le_length hstart]
  exact List.mem_append_right _ (List.mem_singleton.mpr rfl)

theorem leads_execute {id : String} {amount : Nat} {sweep : World → Sweep} {hash : String}
    (hwho : who id) (hamount : ∀ v, (sweep v).amount = amount) (hmoved : ∀ v, (sweep v).moved = amount)
    (hpositive : 0 < amount) (hcharged : ∀ v, (sweep v).Charged)
    (hseen : ∀ v, Seen start id (sweep v).balance w.log) :
    Reaches cfg script who start w (execute id amount sweep hash w).2 := by
  unfold execute
  split
  · rename_i hholds
    have hstep : Happens cfg script who start w { w.sweep id (sweep w).moved with
        log := w.log ++ [.sent id hash (sweep w) (w.swept id + (sweep w).amount)] } := by
      have hsame := hamount w
      have hsame' := hmoved w
      exact .sends hwho (hseen w) (by omega) (hcharged w) (by omega)
    rw [hamount, hmoved] at hstep
    exact .single hstep
  · exact .refl

theorem sweep_zero (w : World) (id : String) : w.sweep id 0 = w := by
  unfold World.sweep
  rw [Nat.sub_zero, Nat.add_zero, Function.update_eq_self, Function.update_eq_self]

theorem leads_broadcast {id : String} {balance amount : Nat} {hash : String} (hwho : who id)
    (hpositive : 0 < amount) (hseen : Seen start id balance w.log) :
    Reaches cfg script who start w (broadcast id balance amount hash w).2 := by
  have hstep : Happens cfg script who start w { w.sweep id 0 with
      log := w.log ++ [.sent id hash (.tron balance amount) (w.swept id + amount)] } :=
    @Happens.sends cfg script who start w id hash (.tron balance amount) hwho hseen hpositive hpositive
      (Nat.zero_le _)
  rw [sweep_zero] at hstep
  exact .single hstep

theorem log_of_execute {id : String} {amount : Nat} {sweep : World → Sweep} {hash hash' : String}
    (h : execute id amount sweep hash w = (some hash', w')) :
    ∃ v total, w'.log = w.log ++ [Action.sent id hash' (sweep v) total] := by
  unfold execute at h
  split at h
  · cases h
    exact ⟨w, _, rfl⟩
  · cases h

theorem log_of_settle {id : String} {balance : Nat} {feeBps : Int} {hash hash' : String}
    (h : settle id balance feeBps hash w = (some hash', w')) :
    ∃ amount fee total, w'.log =
      w.log ++ [Action.sent id hash' (.solana balance feeBps amount fee) total] := by
  unfold settle at h
  dsimp only at h
  split at h
  · cases h
  · obtain ⟨v, total, hlog⟩ := log_of_execute h
    exact ⟨_, _, total, hlog⟩

/-- A sweep that has been sent is on record, and is then reported with its figures. -/
theorem leads_report {invoice : Invoice} {sweep : Sweep} {hash : String} {total gasSpentWei : Nat}
    {version : Int} (hwho : who invoice.id) (hstart : start ≤ w.log.length)
    (hlog : w'.log = w.log ++ [.sent invoice.id hash sweep total]) {v : World}
    (hv : w'.log <+: v.log) :
    Leads (Reaches cfg script who start)
      (trackWithRetry cfg script (sweptReport invoice sweep.figures.amountPaid
        sweep.figures.amountSwept sweep.figures.feeCollected gasSpentWei hash version)) v := by
  have hmem : .sent invoice.id hash sweep total ∈ w'.log.drop start := by
    rw [hlog, List.drop_append_of_le_length hstart]
    exact List.mem_append_right _ (List.mem_singleton.mpr rfl)
  exact leads_trackWithRetry hwho
    (.swept (mem_drop_mono hv hmem) gasSpentWei version (some (some version)))

theorem leads_sweepOne {invoice : Invoice} {balance : Nat} {version : Int}
    (hwho : who invoice.id) (hstart : start ≤ w.log.length)
    (hseen : Seen start invoice.id balance w.log) :
    Leads (Reaches cfg script who start) (sweepOne cfg script invoice balance version) w := by
  unfold sweepOne
  have hread : Leads (Reaches cfg script who start) (readBalance script invoice.id) w :=
    leads_readBalance hwho
  apply hread.bind
  intro held w₁ hrun₁
  have hlog₁ := (hread.after hrun₁).log
  dsimp only
  split
  · exact Leads.bind (Leads.throw _) fun _ _ hrun => by cases hrun
  have hquote : Leads (Reaches cfg script who start)
      (rpc script fun _ => do return (← get).fees.evm balance) w₁ :=
    leads_rpc fun _ _ => .refl
  apply hquote.bind
  intro fee w₂ hrun₂
  have hlog₂ := hlog₁.trans (hquote.after hrun₂).log
  have hsend : Leads (Reaches cfg script who start)
      (rpc script fun turn => execute invoice.id balance
        (fun w => .evm balance fee (w.fees.evm balance)) turn.hash) w₂ := by
    apply leads_rpc
    intro w' hw'
    have hseen' := hseen.mono (hlog₂.trans hw'.log)
    exact leads_execute hwho (fun _ => rfl) (fun _ => rfl) (by have := hseen.1; omega)
      (fun v => evm_le v.fees balance) fun _ => hseen'
  apply hsend.bind
  intro hash w₃ hrun₃
  apply leads_orThrow.bind
  intro hash' w₄ hrun₄
  obtain ⟨rfl, rfl⟩ := orThrow_eq_ok hrun₄
  have hgas : Leads (Reaches cfg script who start)
      (rpc script fun turn => return turn.gasSpentWei) w₄ :=
    leads_rpc fun _ _ => .refl
  apply hgas.bind
  intro gasSpentWei w₅ hrun₅
  obtain ⟨v, total, hlog⟩ := log_of_execute (rpc_eq_ok hrun₃)
  have hstart₂ : start ≤ (afterWait script w₂).log.length := by
    rw [log_afterWait]
    exact hstart.trans hlog₂.length_le
  have hreport : Leads (Reaches cfg script who start) (trackWithRetry cfg script
      (sweptReport invoice balance balance fee gasSpentWei hash' version)) w₅ :=
    leads_report hwho hstart₂ hlog (hgas.after hrun₅).log
  exact hreport.bind fun _ _ _ => Leads.pure _

theorem leads_sweepTronOne {tron : TronSweeperConfig} {invoice : Invoice} {balance : Nat}
    {version : Int} (hwho : who invoice.id) (hstart : start ≤ w.log.length)
    (hseen : Seen start invoice.id balance w.log) :
    Leads (Reaches cfg script who start)
      (sweepTronOne cfg script tron invoice balance version) w := by
  unfold sweepTronOne
  dsimp only
  split
  · exact Leads.bind (Leads.throw _) fun _ _ hrun => by cases hrun
  have hresources : Leads (Reaches cfg script who start) (rpc script fun _ => return ()) w :=
    leads_rpc fun _ _ => .refl
  apply hresources.bind
  intro _ w₁ hrun₁
  have hlog₁ := (hresources.after hrun₁).log
  have hread : Leads (Reaches cfg script who start) (readBalance script invoice.id) w₁ :=
    leads_readBalance hwho
  apply hread.bind
  intro amount w₂ hrun₂
  have hlog₂ := hlog₁.trans (hread.after hrun₂).log
  split
  · exact Leads.bind (Leads.throw _) fun _ _ hrun => by cases hrun
  rename_i hne
  have hsend : Leads (Reaches cfg script who start)
      (rpc script fun turn => broadcast invoice.id balance amount turn.hash) w₂ := by
    apply leads_rpc
    intro w' hw'
    exact leads_broadcast hwho (by omega) (hseen.mono (hlog₂.trans hw'.log))
  apply hsend.bind
  intro hash w₃ hrun₃
  apply leads_orThrow.bind
  intro hash' w₄ hrun₄
  obtain ⟨rfl, rfl⟩ := orThrow_eq_ok hrun₄
  have hlog : w₄.log = (afterWait script w₂).log ++ [.sent invoice.id hash' (.tron balance amount)
      ((afterWait script w₂).swept invoice.id + amount)] := by
    cases rpc_eq_ok hrun₃
    rfl
  have hstart₂ : start ≤ (afterWait script w₂).log.length := by
    rw [log_afterWait]
    exact hstart.trans hlog₂.length_le
  have hreport : Leads (Reaches cfg script who start) (trackWithRetry cfg script
      (sweptReport invoice balance amount 0 0 hash' version)) w₄ :=
    leads_report hwho hstart₂ hlog (List.prefix_refl _)
  exact hreport.bind fun _ _ _ => Leads.pure _

theorem leads_sweepSolanaOne {solana : SolanaSweeperConfig} {invoice : Invoice} {balance : Nat}
    {chainId : String} {version : Int} (hwho : who invoice.id) (hstart : start ≤ w.log.length)
    (hseen : Seen start invoice.id balance w.log) :
    Leads (Reaches cfg script who start)
      (sweepSolanaOne cfg script solana invoice balance chainId version) w := by
  unfold sweepSolanaOne
  apply leads_orThrow.bind
  intro chain w₁ hrun₁
  obtain ⟨-, rfl⟩ := orThrow_eq_ok hrun₁
  have hsend : Leads (Reaches cfg script who start)
      (rpc script fun turn => settle invoice.id balance
        ((chain.feeBps.or solana.feeBps).getD 50) turn.hash) w₁ := by
    apply leads_rpc
    intro w' hw'
    unfold settle
    dsimp only
    split
    · exact .refl
    · exact leads_execute hwho (fun _ => rfl) (fun _ => rfl) (by omega) (fun _ => trivial)
        fun _ => hseen.mono hw'.log
  apply hsend.bind
  intro hash w₂ hrun₂
  apply leads_orThrow.bind
  intro hash' w₃ hrun₃
  obtain ⟨rfl, rfl⟩ := orThrow_eq_ok hrun₃
  obtain ⟨amount, fee, total, hlog⟩ := log_of_settle (rpc_eq_ok hrun₂)
  have hstart₁ : start ≤ (afterWait script w₁).log.length := by
    rwa [log_afterWait]
  exact (leads_report hwho hstart₁ hlog (List.prefix_refl _)).bind fun _ _ _ => Leads.pure _

/-! ## Invoices -/

theorem leads_claimAndSweep {invoice : Invoice} {balance : Nat} {sweep : Int → Work Unit}
    (hwho : who invoice.id) (hseen : Seen start invoice.id balance w.log)
    (hsweep : ∀ version w', w.log <+: w'.log →
      Leads (Reaches cfg script who start) (sweep version) w') :
    Leads (Reaches cfg script who start) (claimAndSweep cfg script invoice balance sweep) w := by
  unfold claimAndSweep
  have hclaim : Leads (Reaches cfg script who start) (claimWithRetry cfg script invoice) w :=
    leads_claimWithRetry hwho hseen
  apply hclaim.bind
  intro claimed w₁ hrun₁
  have hlog₁ := (hclaim.after hrun₁).log
  cases claimed with
  | none => exact Leads.pure _
  | some claimed =>
    dsimp only
    have hpaid : Leads (Reaches cfg script who start)
        (trackWithRetry cfg script (paidReport invoice balance claimed.version)) w₁ :=
      leads_trackWithRetry hwho
        (.paid (hseen.mono hlog₁) claimed.version (some (some claimed.version)))
    apply hpaid.bind
    intro afterPaid w₂ hrun₂
    exact hsweep _ w₂ (hlog₁.trans (hpaid.after hrun₂).log)

theorem leads_sweepEvm {key : String} {invoice : Invoice} {balance : Nat}
    (hwho : who invoice.id) (hstart : start ≤ w.log.length)
    (hseen : Seen start invoice.id balance w.log) :
    Leads (Reaches cfg script who start) (sweepEvm cfg script key invoice balance) w := by
  unfold sweepEvm
  have hpaid : Leads (Reaches cfg script who start) (markPaid cfg script invoice balance) w := by
    unfold markPaid
    split
    · exact leads_trackWithRetry hwho
        (.paid hseen invoice.version (some (some invoice.version)))
    · exact Leads.pure _
  apply hpaid.bind
  intro afterPaid w₁ hrun₁
  have hlog₁ := (hpaid.after hrun₁).log
  cases afterPaid with
  | none => exact Leads.pure _
  | some afterPaid =>
    dsimp only
    split
    · have hclaim : Leads (Reaches cfg script who start)
          (claimWithRetry cfg script { invoice with version := afterPaid.version }) w₁ :=
        leads_claimWithRetry hwho (hseen.mono hlog₁)
      apply hclaim.bind
      intro claimed w₂ hrun₂
      have hlog₂ := hlog₁.trans (hclaim.after hrun₂).log
      cases claimed with
      | none => exact Leads.pure _
      | some claimed =>
        exact leads_sweepOne hwho (hstart.trans hlog₂.length_le) (hseen.mono hlog₂)
    · exact Leads.pure _

theorem leads_sweepReady {r : Ready} (hwho : who r.invoice.id) (hstart : start ≤ w.log.length)
    (hseen : Seen start r.invoice.id r.balance w.log) :
    Leads (Reaches cfg script who start) (sweepReady cfg script r) w := by
  cases r with
  | evm key invoice token balance => exact leads_sweepEvm hwho hstart hseen
  | tron invoice token balance =>
    apply leads_claimAndSweep hwho hseen
    intro version w' hlog
    apply leads_orThrow.bind
    intro tron w₁ hrun
    obtain ⟨-, rfl⟩ := orThrow_eq_ok hrun
    exact leads_sweepTronOne hwho (hstart.trans hlog.length_le) (hseen.mono hlog)
  | solana invoice balance mint symbol chainId =>
    apply leads_claimAndSweep hwho hseen
    intro version w' hlog
    apply leads_orThrow.bind
    intro solana w₁ hrun
    obtain ⟨-, rfl⟩ := orThrow_eq_ok hrun
    exact leads_sweepSolanaOne hwho (hstart.trans hlog.length_le) (hseen.mono hlog)

theorem leads_reportError {invoice : Invoice} (hwho : who invoice.id) :
    Leads (Reaches cfg script who start) (reportError cfg script invoice) w :=
  (leads_trackWithRetry hwho (.error (some (some invoice.version)))).bind fun _ _ _ => Leads.pure _

theorem leads_process {r : Ready} (hwho : who r.invoice.id) (hstart : start ≤ w.log.length)
    (hseen : Seen start r.invoice.id r.balance w.log) :
    Leads (Reaches cfg script who start) (process cfg script r) w := by
  apply leads_caught (leads_sweepReady hwho hstart hseen)
  intro _ w' _
  apply leads_caught (leads_reportError hwho)
  intro _ w'' _
  exact Leads.pure _

theorem reaches_process (start : Nat) (r : Ready) :
    Reaches cfg script (fun _ => True) start (exec (sweepReady cfg script r) w).2
      (exec (process cfg script r) w).2 :=
  reaches_caught fun _ => leads_caught (leads_reportError trivial) fun _ _ _ => Leads.pure _

theorem leads_resolveToken {chain : EvmChainConfig} {token : Option String} :
    Leads (Reaches cfg script who start) (resolveToken chain token) w := by
  unfold resolveToken
  cases given token with
  | none => exact Leads.pure _
  | some token =>
    dsimp only
    split
    · exact Leads.pure _
    · split
      · exact Leads.pure _
      · exact leads_orThrow.bind fun _ _ _ => Leads.pure _

theorem leads_resolveTronToken {tron : TronSweeperConfig} {token : Option String} :
    Leads (Reaches cfg script who start) (resolveTronToken tron token) w := by
  unfold resolveTronToken
  cases given token with
  | none => exact leads_orThrow
  | some token =>
    dsimp only
    split
    · exact Leads.pure _
    · split
      · exact leads_orThrow
      · exact leads_orThrow

-- What is ready is the invoice that was looked at, with a balance that was read.
structure Found (start : Nat) (invoice : Invoice) (r : Ready) (log : List Action) : Prop where
  same : r.invoice = invoice
  seen : Seen start invoice.id r.balance log

-- `prepare` changes nothing, and finds what is there.
def Finds (cfg : SweeperConfig) (script : Nat → Turn) (who : String → Prop) (start : Nat)
    (invoice : Invoice) (x : Work (Option Ready)) (w : World) : Prop :=
  Leads (Reaches cfg script who start) x w ∧
    ∀ r w', exec x w = (.ok (some r), w') → Found start invoice r w'.log

theorem Finds.none {invoice : Invoice} :
    Finds cfg script who start invoice (pure none) w := by
  refine ⟨Leads.pure _, fun r w' hrun => ?_⟩
  cases hrun

theorem Finds.bind {invoice : Invoice} {x : Work α} {f : α → Work (Option Ready)}
    (hx : Leads (Reaches cfg script who start) x w)
    (hf : ∀ a w', w.log <+: w'.log → Finds cfg script who start invoice (f a) w') :
    Finds cfg script who start invoice (x >>= f) w := by
  apply And.intro
  · apply hx.bind
    intro a w' hrun
    exact (hf a w' (hx.after hrun).log).1
  · intro r w' hrun
    obtain ⟨a, w₁, hrun₁, hrun₂⟩ := exec_bind_eq_ok hrun
    exact (hf a w₁ (hx.after hrun₁).log).2 r w' hrun₂

theorem finds_whenPaid {invoice : Invoice} {read : Work Nat} {ready : Nat → Ready}
    (hread : Leads (Reaches cfg script who start) read w)
    (hseen : ∀ balance w', balance ≠ 0 → exec read w = (.ok balance, w') →
      Seen start invoice.id balance w'.log)
    (hready : ∀ balance, (ready balance).invoice = invoice ∧ (ready balance).balance = balance) :
    Finds cfg script who start invoice (whenPaid read ready) w := by
  unfold whenPaid
  apply And.intro
  · apply hread.bind
    intro balance w₁ _
    split
    · exact Leads.pure _
    · exact Leads.pure _
  · intro r w' hrun
    obtain ⟨balance, w₁, hrun₁, hrun₂⟩ := exec_bind_eq_ok hrun
    split at hrun₂
    · cases hrun₂
    · rename_i hne
      cases hrun₂
      refine ⟨(hready balance).1, ?_⟩
      rw [(hready balance).2]
      exact hseen balance w' hne hrun₁

theorem leads_readInvoiceBalance {id : String} (hwho : who id) :
    Leads (Reaches cfg script who start) (readInvoiceBalance script id) w :=
  leads_caught (leads_readBalance hwho) fun _ _ _ => Leads.pure _

theorem seen_of_readInvoiceBalance {id : String} {balance : Nat} (hstart : start ≤ w.log.length)
    (hne : balance ≠ 0) (h : exec (readInvoiceBalance script id) w = (.ok balance, w')) :
    Seen start id balance w'.log := by
  rcases caught_eq_ok h with hrun | ⟨message, w₁, -, hrun⟩
  · exact seen_of_readBalance hstart hne hrun
  · cases hrun
    exact absurd rfl hne

theorem finds_prepare {invoice : Invoice} (hwho : who invoice.id) (hstart : start ≤ w.log.length) :
    Finds cfg script who start invoice (prepare cfg script invoice) w := by
  have hread : ∀ w', w.log <+: w'.log → ∀ ready : Nat → Ready,
      (∀ balance, (ready balance).invoice = invoice ∧ (ready balance).balance = balance) →
        Finds cfg script who start invoice
          (whenPaid (readBalance script invoice.id) ready) w' := by
    intro w' hlog ready hready
    apply finds_whenPaid (leads_readBalance hwho) _ hready
    intro balance w'' hne hrun
    exact seen_of_readBalance (hstart.trans hlog.length_le) hne hrun
  unfold prepare
  split
  · cases tron cfg with
    | none => exact Finds.none
    | some tron =>
      dsimp only [prepareTronInvoice]
      split
      · apply Finds.bind leads_resolveTronToken
        intro token w' hlog
        exact hread w' hlog _ fun _ => ⟨rfl, rfl⟩
      · exact Finds.none
  · split
    · cases solana cfg with
      | none => exact Finds.none
      | some solana =>
        dsimp only [prepareSolanaInvoice]
        split
        · exact Finds.none
        · split
          · exact Finds.none
          · apply finds_whenPaid (leads_readInvoiceBalance hwho)
            · intro balance w' hne hrun
              exact seen_of_readInvoiceBalance hstart hne hrun
            · exact fun _ => ⟨rfl, rfl⟩
    · unfold prepareInvoice
      split
      · exact Finds.none
      · apply Finds.bind leads_resolveToken
        intro token w' hlog
        exact hread w' hlog _ fun _ => ⟨rfl, rfl⟩

/-! ## A tick -/

theorem mem_inOrder {ready : List Ready} {r : Ready} : r ∈ inOrder ready ↔ r ∈ ready := by
  unfold inOrder
  simp only [List.mem_append, List.mem_flatMap, List.mem_reverse, List.mem_dedup,
    List.mem_filterMap, List.mem_filter, decide_eq_true_eq]
  cases r with
  | evm key invoice token balance =>
    simp only [Ready.key, Ready.isTron, Ready.isSolana, Bool.false_eq_true, and_false, or_false,
      Option.some.injEq]
    apply Iff.intro
    · rintro ⟨key', -, hr, -⟩
      exact hr
    · intro hr
      exact ⟨key, ⟨_, hr, rfl⟩, hr, rfl⟩
  | tron invoice token balance => simp [Ready.key, Ready.isTron, Ready.isSolana]
  | solana invoice balance mint symbol chainId =>
    simp [Ready.key, Ready.isTron, Ready.isSolana]

-- What is ready so far: the invoices are among those looked at, and their balances have been read.
structure AllFound (who : String → Prop) (start : Nat) (ready : List Ready) (w : World) : Prop where
  since : start ≤ w.log.length
  who : ∀ r ∈ ready, who r.invoice.id
  seen : ∀ r ∈ ready, Seen start r.invoice.id r.balance w.log

theorem AllFound.mono {ready : List Ready} (h : AllFound who start ready w)
    (hlog : w.log <+: w'.log) : AllFound who start ready w' where
  since := h.since.trans hlog.length_le
  who := h.who
  seen := fun r hr => (h.seen r hr).mono hlog

theorem leads_examine {ready : List Ready} {invoice : Invoice} (hwho : who invoice.id)
    (hstart : start ≤ w.log.length) :
    Leads (Reaches cfg script who start) (examine cfg script ready invoice) w := by
  have hfinds : Finds cfg script who start invoice (prepare cfg script invoice) w :=
    finds_prepare hwho hstart
  apply leads_caught (hfinds.1.bind fun _ _ _ => Leads.pure _)
  intro _ w' _
  exact leads_caught ((leads_reportError hwho).bind fun _ _ _ => Leads.pure _)
    fun _ _ _ => Leads.pure _

theorem examine_eq_ok {ready ready' : List Ready} {invoice : Invoice}
    (hstart : start ≤ w.log.length)
    (h : exec (examine cfg script ready invoice) w = (.ok ready', w')) :
    ready' = ready ∨ ∃ r, ready' = ready ++ [r] ∧ Found start invoice r w'.log := by
  rcases caught_eq_ok h with hok | ⟨message, w₁, -, hok⟩
  · obtain ⟨found, w₁, hrun, hpure⟩ := exec_bind_eq_ok hok
    cases hpure
    cases found with
    | none => exact .inl (List.append_nil ready)
    | some r =>
      have hfinds : Finds cfg script (fun _ => True) start invoice (prepare cfg script invoice) w :=
        finds_prepare trivial hstart
      exact .inr ⟨r, rfl, hfinds.2 r w' hrun⟩
  · left
    rcases caught_eq_ok hok with hok | ⟨_, w₂, -, hok⟩
    · obtain ⟨_, w₂, -, hpure⟩ := exec_bind_eq_ok hok
      cases hpure
      rfl
    · cases hok
      rfl

theorem AllFound.examine {ready ready' : List Ready} {invoice : Invoice} (hwho : who invoice.id)
    (h : AllFound who start ready w)
    (hrun : exec (examine cfg script ready invoice) w = (.ok ready', w')) :
    AllFound who start ready' w' := by
  have h' := h.mono ((leads_examine hwho h.since).after hrun).log
  rcases examine_eq_ok h.since hrun with rfl | ⟨r, rfl, hfound⟩
  · exact h'
  · refine ⟨h'.since, ?_, ?_⟩
    · intro r' hr'
      rcases List.mem_append.mp hr' with hold | hnew
      · exact h'.who r' hold
      · rw [List.mem_singleton.mp hnew, hfound.same]
        exact hwho
    · intro r' hr'
      rcases List.mem_append.mp hr' with hold | hnew
      · exact h'.seen r' hold
      · rw [List.mem_singleton.mp hnew, hfound.same]
        exact hfound.seen

theorem leads_processAll {ready : List Ready} (h : AllFound who start ready w) :
    Leads (Reaches cfg script who start) (ready.forM (process cfg script)) w := by
  induction ready generalizing w with
  | nil => exact Leads.pure _
  | cons r ready ih =>
    show Leads _ (process cfg script r >>= fun _ => ready.forM (process cfg script)) w
    have hprocess : Leads (Reaches cfg script who start) (process cfg script r) w :=
      leads_process (h.who r (List.mem_cons_self ..)) h.since (h.seen r (List.mem_cons_self ..))
    apply hprocess.bind
    intro _ w' hrun
    have h' := h.mono (hprocess.after hrun).log
    exact ih ⟨h'.since, fun r' hr' => h'.who r' (List.mem_cons_of_mem r hr'),
      fun r' hr' => h'.seen r' (List.mem_cons_of_mem r hr')⟩

theorem leads_fetchInvoices :
    Leads (Reaches cfg script who start) (fetchInvoices cfg script) w := by
  have hfetch : Leads (Reaches cfg script who start) (signedFetch script (listInvoices cfg)) w := by
    apply leads_signedFetch
    intro w' invoices db' _ hlist
    cases hlist
    exact .refl
  unfold fetchInvoices
  apply hfetch.bind
  intro answer w' _
  cases answer with
  | ok invoices => exact Leads.pure _
  | error e => exact Leads.throw _

-- The part of a tick that follows the list.
def handleAll (cfg : SweeperConfig) (script : Nat → Turn) (invoices : List Invoice) : Work Unit := do
  let ready ← invoices.foldlM (examine cfg script) []
  (inOrder ready).forM (process cfg script)

theorem leads_handleAll {invoices : List Invoice} (hwho : ∀ invoice ∈ invoices, who invoice.id)
    (hstart : start ≤ w.log.length) :
    Leads (Reaches cfg script who start) (handleAll cfg script invoices) w := by
  have hempty : AllFound who start [] w :=
    ⟨hstart, fun r hr => absurd hr List.not_mem_nil, fun r hr => absurd hr List.not_mem_nil⟩
  have hexamine := Leads.foldlM (R := Reaches cfg script who start) (g := examine cfg script)
    (I := AllFound who start) (l := invoices)
    (fun _ invoice _ hinvoice h => ⟨leads_examine (hwho invoice hinvoice) h.since,
      fun _ _ hrun => h.examine (hwho invoice hinvoice) hrun⟩) hempty
  unfold handleAll
  apply hexamine.1.bind
  intro ready w' hrun
  have h := hexamine.2 ready w' hrun
  apply leads_processAll
  exact ⟨h.since, fun r hr => h.who r (mem_inOrder.mp hr), fun r hr => h.seen r (mem_inOrder.mp hr)⟩

theorem tick_eq (cfg : SweeperConfig) (script : Nat → Turn) :
    tick cfg script = fetchInvoices cfg script >>= handleAll cfg script := rfl

theorem reaches_tick (w : World) :
    Reaches cfg script (fun _ => True) w.log.length w (exec (tick cfg script) w).2 := by
  have hfetch : Leads (Reaches cfg script (fun _ => True) w.log.length)
      (fetchInvoices cfg script) w :=
    leads_fetchInvoices
  rw [tick_eq]
  apply hfetch.bind
  intro invoices w' hrun
  exact leads_handleAll (fun _ _ => trivial) (hfetch.after hrun).log.length_le

/-! ## Runs -/

-- A tick that fails or stops is followed by the next one.
def ticks (cfg : SweeperConfig) (script : Nat → Turn) : Nat → World → World
  | 0, w => w
  | n + 1, w => ticks cfg script n (exec (tick cfg script) w).2

theorem ticks_succ (n : Nat) (w : World) :
    ticks cfg script (n + 1) w = (exec (tick cfg script) (ticks cfg script n w)).2 := by
  induction n generalizing w with
  | zero => rfl
  | succ n ih => exact ih (exec (tick cfg script) w).2

/-- What everything that happens keeps, whichever invoice it is about, all ticks keep. -/
theorem ticks_invariant {I : World → Prop}
    (hstep : ∀ start w w', I w → Happens cfg script (fun _ => True) start w w' → I w')
    (hw : I w) (n : Nat) : I (ticks cfg script n w) := by
  induction n generalizing w with
  | zero => exact hw
  | succ n ih => exact ih ((reaches_tick w).invariant (hstep w.log.length) hw)

/-! ## A worker for one EVM chain -/

def SweeperConfig.toy : SweeperConfig where
  address := "0xA"
  registered := none
  claimLeaseMs := 60000
  maxRetries := 5
  role := .all
  chains := [⟨"8453", "https://rpc.example", "0xC", "0xK", [("USDC", "0x8335")]⟩]
  tron := none
  solana := none

-- Every request is answered, a second after the one before it.
def quiet (n : Nat) : Turn where
  others := []
  fate := .answered
  now := ⟨1000 * n, 1000 * n, le_refl _⟩
  hash := "0xT"
  gasSpentWei := 21000

-- One invoice, and what its address holds.
def World.toy (balance : Nat) : World where
  db := .toy
  holds := fun _ => balance
  swept := fun _ => 0
  fees := ⟨50, 0, 50⟩
  turn := 1
  log := []
  landed := []

end OnchainInvoice.SweeperWorker
