import OnchainInvoice.Worker.Calm

/-!
# Invoices that nobody else changes

Without failures a tick leaves such an invoice as it is or writes its row, and the balance at its
address says which.
-/

namespace OnchainInvoice.SweeperWorker

open Lib.Handlers Lib.Revert Lib.Runs Lib.Tables Server Table

variable {cfg : SweeperConfig} {script : Nat → Turn} {who : String → Prop} {start : Nat}
  {id : String} {ids : List String} {cutoff : Time} {w w' : World} {x : Invoice} {balance : Nat}

/-! ## What others leave alone -/

-- Others leave the invoices alone, and what they do to the rest is later than the cutoff.
def Other.Leaves (ids : List String) (cutoff : Time) : Other → Prop
  | .pays invoiceId _ => invoiceId ∉ ids
  | .sweeps invoiceId _ => invoiceId ∉ ids
  | .carries _ => True
  | .sets _ => True
  | .calls call => call.invoiceId ∉ ids ∧ cutoff < call.ends

structure Undisturbed (script : Nat → Turn) (ids : List String) (cutoff : Time) : Prop where
  leaves : ∀ n, ∀ other ∈ (script n).others, other.Leaves ids cutoff
  clock : ∀ n, cutoff < (script n).now.check

-- The row has been written after the cutoff.
def Late (cutoff : Time) (id : String) (w : World) : Prop :=
  ∃ row, w.db.invoices.find? id = some row ∧ cutoff < row.updatedAt

theorem Undisturbed.spared (h : Undisturbed script ids cutoff) (hid : id ∈ ids) :
    Spared script id := by
  intro n other hother
  have hleaves := h.leaves n other hother
  cases other with
  | pays invoiceId amount =>
    rintro rfl
    exact hleaves hid
  | sweeps invoiceId amount => trivial
  | carries place => trivial
  | sets fees => trivial
  | calls call =>
    rintro rfl
    exact hleaves.1 hid

theorem updatedAt_update (c : Call) (invoice : Invoice) : (c.update invoice).updatedAt = c.ends := by
  cases c <;> rfl

theorem Licensed.late {call : Call} {log : List Action} (h : Undisturbed script ids cutoff)
    (hcall : Licensed cfg script who start log call) : cutoff < call.ends := by
  cases hcall with
  | claim hwho hseen version n => exact h.clock n
  | track hwho hsaid hstatus n => exact (h.clock n).trans_le (script n).now.ordered

theorem late_or_same_of_step {db db' : CommerceDb} {c : Call} (h : step db c = .ok db')
    (hends : cutoff < c.ends) (id : String) :
    db'.invoices.find? id = db.invoices.find? id ∨
      ∃ row, db'.invoices.find? id = some row ∧ cutoff < row.updatedAt := by
  obtain ⟨row, -, -, hfind⟩ := find?_step h id
  rw [hfind]
  split
  · refine .inr ⟨_, rfl, ?_⟩
    rw [updatedAt_update]
    exact hends
  · exact .inl rfl

theorem late_or_same_of_happens (h : Undisturbed script ids cutoff) (id : String)
    (hstep : Happens cfg script who start w w') :
    w'.db.invoices.find? id = w.db.invoices.find? id ∨ Late cutoff id w' := by
  cases hstep with
  | @others n other hother =>
    have hleaves := h.leaves n other hother
    cases other with
    | pays invoiceId amount => exact .inl rfl
    | sweeps invoiceId amount => exact .inl rfl
    | carries place =>
      left
      show (w.carry place).db.invoices.find? id = _
      rw [db_carry]
    | sets fees => exact .inl rfl
    | calls call =>
      unfold Late
      show (commit step w.db call).invoices.find? id = _ ∨
        ∃ row, (commit step w.db call).invoices.find? id = some row ∧ cutoff < row.updatedAt
      rcases commit_cases step w.db call with ⟨db', hok, hdb⟩ | ⟨e, -, hdb⟩
      · rw [hdb]
        exact late_or_same_of_step hok hleaves.2 id
      · exact .inl (by rw [hdb])
  | turn n => exact .inl rfl
  | reads hwho => exact .inl rfl
  | calls hretries hcall hok => exact late_or_same_of_step hok (hcall.late h) id
  | reports hwho hsaid => exact .inl rfl
  | sends hwho hseen hpositive hcharged hholds => exact .inl rfl

/-- A row is as it was or has been written after the cutoff. -/
theorem late_or_same (h : Undisturbed script ids cutoff) (id : String)
    (hreach : Reaches cfg script who start w w') :
    w'.db.invoices.find? id = w.db.invoices.find? id ∨ Late cutoff id w' := by
  induction hreach with
  | refl => exact .inl rfl
  | tail _ hlast ih =>
    rcases late_or_same_of_happens h id hlast with hsame | hlate
    · unfold Late
      rw [hsame]
      exact ih
    · exact .inr hlate

theorem Late.reaches (hlate : Late cutoff id w) (h : Undisturbed script ids cutoff)
    (hreach : Reaches cfg script who start w w') : Late cutoff id w' := by
  rcases late_or_same h id hreach with hsame | hlate'
  · unfold Late
    rw [hsame]
    exact hlate
  · exact hlate'

theorem ids_of_reaches (hreach : Reaches cfg script who start w w') :
    w'.db.invoices.rows.map Invoice.id = w.db.invoices.rows.map Invoice.id := by
  have hids : ∀ {db db' : CommerceDb} {c : Call}, step db c = .ok db' →
      db'.invoices.rows.map Invoice.id = db.invoices.rows.map Invoice.id := by
    intro db db' c hok
    obtain ⟨row, -, -, rfl⟩ := step_eq_ok.mp hok
    exact map_key_modify c.invoiceId (id_update c) db.invoices.rows
  induction hreach with
  | refl => rfl
  | @tail v v' _ hlast ih =>
    rw [← ih]
    cases hlast with
    | @others n other hother =>
      cases other with
      | pays invoiceId amount => rfl
      | sweeps invoiceId amount => rfl
      | carries place =>
        show (v.carry place).db.invoices.rows.map Invoice.id = _
        rw [db_carry]
      | sets fees => rfl
      | calls call =>
        show (commit step v.db call).invoices.rows.map Invoice.id = _
        rcases commit_cases step v.db call with ⟨db', hok, hdb⟩ | ⟨e, -, hdb⟩
        · rw [hdb]
          exact hids hok
        · rw [hdb]
    | turn n => rfl
    | reads hwho => rfl
    | calls hretries hcall hok => exact hids hok
    | reports hwho hsaid => rfl
    | sends hwho hseen hpositive hcharged hholds => rfl

/-! ## Transfers on their way -/

-- Tron has no transfer from the address to carry out.
def World.Settled (w : World) (id : String) : Prop :=
  ∀ place amount, w.pending place ≠ some (id, amount)

theorem pending_eq_some {place amount : Nat} : w.pending place = some (id, amount) ↔
    (∃ hash balance total, w.log[place]? = some (.sent id hash (.tron balance amount) total)) ∧
      place ∉ w.landed := by
  unfold World.pending
  split
  · rename_i invoiceId hash balance amount' total hplace
    rw [hplace]
    split
    · rename_i hlanded
      simp [hlanded]
    · rename_i hpending
      apply Iff.intro
      · intro heq
        cases heq
        exact ⟨⟨hash, balance, total, rfl⟩, hpending⟩
      · rintro ⟨⟨hash', balance', total', heq⟩, -⟩
        cases heq
        rfl
  · rename_i hno
    apply Iff.intro
    · intro heq
      cases heq
    · rintro ⟨⟨hash, balance, total, hplace⟩, -⟩
      exact absurd hplace (hno id hash balance amount total)

theorem World.Settled.of_log (h : w.Settled id) (hlog : w'.log = w.log)
    (hlanded : w.landed ⊆ w'.landed) : w'.Settled id := by
  intro place amount hpending
  obtain ⟨hplace, hnot⟩ := pending_eq_some.mp hpending
  rw [hlog] at hplace
  exact h place amount (pending_eq_some.mpr ⟨hplace, fun hmem => hnot (hlanded hmem)⟩)

theorem World.Settled.snoc {a : Action} (h : w.Settled id) (hlog : w'.log = w.log ++ [a])
    (hlanded : w'.landed = w.landed)
    (ha : ∀ hash balance amount total, a ≠ .sent id hash (.tron balance amount) total) :
    w'.Settled id := by
  intro place amount hpending
  obtain ⟨⟨hash, balance, total, hplace⟩, hnot⟩ := pending_eq_some.mp hpending
  rw [hlog] at hplace
  rcases lt_or_ge place w.log.length with hold | hnew
  · rw [List.getElem?_append_left hold] at hplace
    rw [hlanded] at hnot
    exact h place amount (pending_eq_some.mpr ⟨⟨hash, balance, total, hplace⟩, hnot⟩)
  · rw [List.getElem?_append_right hnew] at hplace
    exact ha hash balance amount total (List.mem_singleton.mp (List.mem_of_getElem? hplace)).symm

theorem subset_landed_carry (w : World) (place : Nat) : w.landed ⊆ (w.carry place).landed := by
  unfold World.carry
  split
  · exact List.Subset.refl _
  · split
    · exact List.subset_cons_self _ _
    · exact List.Subset.refl _

theorem World.Settled.of_apply (h : w.Settled id) (other : Other) : (w.apply other).Settled id := by
  apply h.of_log (log_apply w other)
  cases other with
  | carries place => exact subset_landed_carry w place
  | _ => exact List.Subset.refl _

theorem holds_carry (h : w.Settled id) (place : Nat) : (w.carry place).holds id = w.holds id := by
  unfold World.carry
  split
  · rfl
  · rename_i invoiceId amount hpending
    split
    · apply Function.update_of_ne
      rintro rfl
      exact h place amount hpending
    · rfl

/-! ## One invoice -/

-- The row is as it was when the queue was formed, and so is the balance, of which nothing is about to
-- be carried off.
structure Fresh (x : Invoice) (balance : Nat) (w : World) : Prop where
  row : w.db.invoices.find? x.id = some x
  holds : w.holds x.id = balance
  settled : w.Settled x.id

theorem Fresh.of_apply {other : Other} (h : Fresh x balance w) (hx : x.id ∈ ids)
    (hleaves : other.Leaves ids cutoff) : Fresh x balance (w.apply other) := by
  have hne : ∀ {invoiceId : String}, invoiceId ∉ ids → x.id ≠ invoiceId := by
    rintro invoiceId hnot rfl
    exact hnot hx
  have hsettled := h.settled.of_apply other
  cases other with
  | pays invoiceId amount =>
    exact ⟨h.row, (Function.update_of_ne (hne hleaves) ..).trans h.holds, hsettled⟩
  | sweeps invoiceId amount =>
    exact ⟨h.row, (Function.update_of_ne (hne hleaves) ..).trans h.holds, hsettled⟩
  | carries place =>
    have hrow : (w.carry place).db.invoices.find? x.id = some x := by
      rw [db_carry]
      exact h.row
    exact ⟨hrow, (holds_carry h.settled place).trans h.holds, hsettled⟩
  | sets fees => exact ⟨h.row, h.holds, hsettled⟩
  | calls call =>
    have hspares : Other.Spares x.id (.calls call) := Ne.symm (hne hleaves.1)
    exact ⟨(find?_apply hspares w).trans h.row, h.holds, hsettled⟩

theorem Fresh.step (h : Fresh x balance w) (hx : x.id ∈ ids) (hund : Undisturbed script ids cutoff)
    (hwho : ¬who x.id) (hstep : Happens cfg script who start w w') : Fresh x balance w' := by
  have hne : ∀ {invoiceId : String}, who invoiceId → x.id ≠ invoiceId := by
    intro invoiceId hid heq
    exact hwho (heq ▸ hid)
  cases hstep with
  | others hother => exact h.of_apply hx (hund.leaves _ _ hother)
  | turn n => exact ⟨h.row, h.holds, h.settled⟩
  | reads hid =>
    exact ⟨h.row, h.holds, h.settled.snoc rfl rfl fun _ _ _ _ heq => by cases heq⟩
  | calls hretries hcall hok =>
    obtain ⟨row, -, -, hfind⟩ := find?_step hok x.id
    refine ⟨hfind.trans ((if_neg ?_).trans h.row), h.holds, h.settled⟩
    cases hcall with
    | claim hid hseen version n => exact hne hid
    | track hid hsaid hstatus n => exact hne hid
  | reports hid hsaid =>
    exact ⟨h.row, h.holds, h.settled.snoc rfl rfl fun _ _ _ _ heq => by cases heq⟩
  | sends hid hseen hpositive hcharged hholds =>
    refine ⟨h.row, (Function.update_of_ne (hne hid) ..).trans h.holds, h.settled.snoc rfl rfl ?_⟩
    intro hash balance amount total heq
    cases heq
    exact hne hid rfl

theorem Fresh.reaches (h : Fresh x balance w) (hx : x.id ∈ ids)
    (hund : Undisturbed script ids cutoff) (hwho : ¬who x.id)
    (hreach : Reaches cfg script who start w w') : Fresh x balance w' :=
  hreach.invariant (fun _ _ h hstep => h.step hx hund hwho hstep) h

theorem Fresh.afterWait (h : Fresh x balance w) (hx : x.id ∈ ids)
    (hund : Undisturbed script ids cutoff) : Fresh x balance (afterWait script w) := by
  have hothers : ∀ others : List Other, (∀ other ∈ others, other.Leaves ids cutoff) →
      ∀ v, Fresh x balance v → Fresh x balance (others.foldl World.apply v) := by
    intro others
    induction others with
    | nil => exact fun _ _ hv => hv
    | cons other others ih =>
      intro hleaves v hv
      exact ih (fun o ho => hleaves o (List.mem_cons_of_mem other ho)) _
        (hv.of_apply hx (hleaves other (List.mem_cons_self ..)))
  have hafter := hothers (script w.turn).others (hund.leaves w.turn) w h
  exact ⟨hafter.row, hafter.holds, hafter.settled⟩

theorem Fresh.afterRead (h : Fresh x balance w) (hx : x.id ∈ ids)
    (hund : Undisturbed script ids cutoff) (invoiceId : String) :
    Fresh x balance (afterRead script invoiceId w) :=
  have hwait := h.afterWait hx hund
  ⟨hwait.row, hwait.holds, hwait.settled.snoc rfl rfl fun _ _ _ _ heq => by cases heq⟩

/-- A report with the version of the row is written at once. -/
theorem exec_report_of_calm (hcalm : Calm script) (hspared : Spared script x.id)
    (hretries : 0 < cfg.maxRetries) (hrow : w.db.invoices.find? x.id = some x)
    {status : Option InvoiceStatus} (body : TrackBody) (hid : body.invoiceId = some x.id)
    (hstatus : parseInvoiceStatus body.status = .ok status)
    (hversion : body.expectedVersion = some (some x.version)) (hawaits : Awaits cfg status x) :
    ∃ row db', row = tracked (body.input x.id status (some cfg.address)) (script w.turn).now.write x ∧
      exec (trackWithRetry cfg script body) w = (.ok (some row),
        { afterWait script { w with log := w.log ++ [.reported body] } with db := db' }) ∧
      db'.invoices.find? x.id = some row := by
  let w₁ : World := { w with log := w.log ++ [.reported body] }
  have hnote : exec (note (.reported body)) w = (.ok (), w₁) := rfl
  have hcurrent : isCurrent body.expectedVersion x = true := by
    rw [hversion]
    exact decide_eq_true rfl
  have hrow₁ : (afterWait script w₁).db.invoices.find? x.id = some x := by
    rw [find?_afterWait hspared]
    exact hrow
  obtain ⟨db', htrack, hfind⟩ :=
    track_of_current (script w.turn) hid hstatus hrow₁ hawaits hcurrent
  have hfetch := exec_signedFetch_of_calm hcalm (track cfg body) w₁
  have hserve : serve (track cfg body (script w₁.turn)) (afterWait script w₁) =
      (.ok (some (tracked (body.input x.id status (some cfg.address)) (script w.turn).now.write x)),
        { afterWait script w₁ with db := db' }) := by
    unfold serve
    rw [htrack]
  rw [hserve] at hfetch
  refine ⟨_, db', rfl, ?_, hfind⟩
  unfold trackWithRetry
  cases hmax : cfg.maxRetries with
  | zero => omega
  | succ n =>
    unfold trackAttempts
    rw [exec_bind_ok hnote, exec_bind_ok hfetch]
    rfl

theorem late_of_report (hcalm : Calm script) (hund : Undisturbed script ids cutoff)
    (hretries : 0 < cfg.maxRetries) (hx : x.id ∈ ids)
    (hrow : w.db.invoices.find? x.id = some x) {status : Option InvoiceStatus} (body : TrackBody)
    (hid : body.invoiceId = some x.id) (hstatus : parseInvoiceStatus body.status = .ok status)
    (hversion : body.expectedVersion = some (some x.version)) (hawaits : Awaits cfg status x) :
    Late cutoff x.id (exec (trackWithRetry cfg script body) w).2 := by
  obtain ⟨row, db', rfl, hrun, hfind⟩ := exec_report_of_calm hcalm (hund.spared hx) hretries hrow body hid
    hstatus hversion hawaits
  rw [hrun]
  exact ⟨_, hfind, (hund.clock w.turn).trans_le (script w.turn).now.ordered⟩

-- No other sweeper holds a lease that ends after the cutoff.
def Unleased (cfg : SweeperConfig) (cutoff : Time) (invoice : Invoice) : Prop :=
  invoice.claimedBy = none ∨ invoice.claimedBy = some cfg.address ∨
    ∀ claimedUntil ∈ invoice.claimedUntil, claimedUntil ≤ cutoff

theorem claimable_of_unleased (h : Unleased cfg cutoff x) (hstatus : x.status ∈ workerStatuses)
    {now : Time} (hnow : cutoff < now) :
    claimable x ⟨x.id, cfg.address, some x.version, cfg.claimLeaseMs⟩ now = true := by
  apply decide_eq_true
  refine ⟨rfl, hstatus, ?_⟩
  rcases h with hnone | hown | hover
  · exact .inl hnone
  · exact .inr (.inl hown)
  · right; right
    cases huntil : x.claimedUntil with
    | none => exact .inl rfl
    | some claimedUntil =>
      exact .inr ⟨claimedUntil, rfl, (hover claimedUntil huntil).trans_lt hnow⟩

/-- So is a claim of a free invoice. -/
theorem exec_claim_of_calm (hcalm : Calm script) (hund : Undisturbed script ids cutoff)
    (hretries : 0 < cfg.maxRetries) (hx : x.id ∈ ids)
    (hrow : w.db.invoices.find? x.id = some x) (hunleased : Unleased cfg cutoff x)
    (hstatus : x.status ∈ workerStatuses) {invoice : Invoice} (hid : invoice.id = x.id)
    (hversion : invoice.version = x.version) :
    ∃ row db', row = claimed ⟨x.id, cfg.address, some x.version, cfg.claimLeaseMs⟩
        (script w.turn).now.check x ∧
      exec (claimWithRetry cfg script invoice) w =
        (.ok (some row), { afterWait script w with db := db' }) ∧
      db'.invoices.find? x.id = some row := by
  have hrow₁ : (afterWait script w).db.invoices.find? x.id = some x := by
    rw [find?_afterWait (hund.spared hx)]
    exact hrow
  obtain ⟨db', hclaim⟩ : ∃ db', claim cfg x.id x.version (script w.turn) (afterWait script w).db =
      .ok (claimed ⟨x.id, cfg.address, some x.version, cfg.claimLeaseMs⟩
        (script w.turn).now.check x, db') :=
    ⟨_, claimInvoice_eq_ok.mpr ⟨x, hrow₁,
      claimable_of_unleased hunleased hstatus (hund.clock w.turn), rfl, rfl⟩⟩
  have hserve : serve (claim cfg x.id x.version (script w.turn)) (afterWait script w) =
      (.ok (claimed ⟨x.id, cfg.address, some x.version, cfg.claimLeaseMs⟩
        (script w.turn).now.check x), { afterWait script w with db := db' }) := by
    unfold serve
    rw [hclaim]
  have hfetch := exec_signedFetch_of_calm hcalm (claim cfg x.id x.version) w
  rw [hserve] at hfetch
  obtain ⟨row, hfound, -, hfind⟩ := find?_step (claim_eq_ok hclaim) x.id
  have hsame : row = x := Option.some.inj (hfound.symm.trans hrow₁)
  refine ⟨_, db', rfl, ?_, ?_⟩
  · unfold claimWithRetry
    rw [hid, hversion]
    cases hmax : cfg.maxRetries with
    | zero => omega
    | succ n =>
      unfold claimAttempts
      rw [exec_bind_ok hfetch]
      rfl
  · rw [hfind, hsame]
    exact if_pos rfl

theorem late_of_claim (hcalm : Calm script) (hund : Undisturbed script ids cutoff)
    (hretries : 0 < cfg.maxRetries) (hx : x.id ∈ ids)
    (hrow : w.db.invoices.find? x.id = some x) (hunleased : Unleased cfg cutoff x)
    (hstatus : x.status ∈ workerStatuses) :
    Late cutoff x.id (exec (claimWithRetry cfg script x) w).2 := by
  obtain ⟨row, db', rfl, hrun, hfind⟩ :=
    exec_claim_of_calm hcalm hund hretries hx hrow hunleased hstatus rfl rfl
  rw [hrun]
  exact ⟨_, hfind, hund.clock w.turn⟩

-- Whether a tick leaves the row as it is: the invoice is passed over, or its address is empty, or it
-- is known to be paid and cannot be swept for want of a key.
def unchanged (cfg : SweeperConfig) (balance : Nat) (invoice : Invoice) : Bool :=
  match look cfg invoice with
  | .passes => true
  | .fails => false
  | .reads key =>
    balance = 0 ∨ ∃ chainId ∈ key, invoice.status ∉ [InvoiceStatus.awaitingPayment, .created] ∧
      ((sweepChains cfg).any fun entry => entry.chainId = chainId) = false

-- What `prepare` makes of the invoice.
structure ReadyFor (cfg : SweeperConfig) (x : Invoice) (balance : Nat) (r : Ready) : Prop where
  invoice : r.invoice = x
  key : look cfg x = .reads r.key
  amount : r.balance = balance
  fits : r.Fits cfg
  positive : balance ≠ 0

theorem late_bind {α β : Type} {y : Work α} {f : α → Work β} (hund : Undisturbed script ids cutoff)
    (hy : Late cutoff id (exec y w).2)
    (hf : ∀ a w', exec y w = (.ok a, w') → Leads (Reaches cfg script who start) (f a) w') :
    Late cutoff id (exec (y >>= f) w).2 := by
  cases hrun : exec y w with
  | mk answer w₁ =>
    rw [hrun] at hy
    cases answer with
    | ok a =>
      rw [exec_bind_ok hrun]
      exact hy.reaches hund (hf a w₁ hrun)
    | error e =>
      rw [exec_bind_error hrun]
      exact hy

-- The invoices that a tick works on are visible to the worker and free.
structure Visible (cfg : SweeperConfig) (cutoff : Time) (x : Invoice) : Prop where
  status : x.status ∈ workerStatuses
  unleased : Unleased cfg cutoff x

theorem Visible.awaits {status : Option InvoiceStatus} (h : Visible cfg cutoff x)
    (hstatus : status ≠ some .swept) : Awaits cfg status x where
  unswept := ne_swept_of_worker h.status
  lease := fun hswept => absurd hswept hstatus

theorem late_of_claimAndSweep {bal : Nat} {sweep : Int → Work Unit} (hcalm : Calm script)
    (hund : Undisturbed script ids cutoff) (hretries : 0 < cfg.maxRetries) (hx : x.id ∈ ids)
    (hvisible : Visible cfg cutoff x) (hrow : w.db.invoices.find? x.id = some x)
    (hseen : Seen start x.id bal w.log)
    (hsweep : ∀ version w', w.log <+: w'.log →
      Leads (Reaches cfg script (fun _ => True) start) (sweep version) w') :
    Late cutoff x.id (exec (claimAndSweep cfg script x bal sweep) w).2 := by
  have hclaim : Leads (Reaches cfg script (fun _ => True) start) (claimWithRetry cfg script x) w :=
    leads_claimWithRetry trivial hseen
  apply late_bind hund
    (late_of_claim hcalm hund hretries hx hrow hvisible.unleased hvisible.status)
  intro claimed w₁ hrun
  have hlog := (hclaim.after hrun).log
  cases claimed with
  | none => exact Leads.pure _
  | some claimed =>
    have hpaid : Leads (Reaches cfg script (fun _ => True) start)
        (trackWithRetry cfg script (paidReport x bal claimed.version)) w₁ :=
      leads_trackWithRetry trivial
        (.paid (hseen.mono hlog) claimed.version (some (some claimed.version)))
    apply hpaid.bind
    intro afterPaid w₂ hrun₂
    exact hsweep _ w₂ (hlog.trans (hpaid.after hrun₂).log)

theorem sweepEvm_self (key : String) {bal : Nat} (hcalm : Calm script)
    (hund : Undisturbed script ids cutoff) (hretries : 0 < cfg.maxRetries) (hx : x.id ∈ ids)
    (hvisible : Visible cfg cutoff x) (hrow : w.db.invoices.find? x.id = some x)
    (hstart : start ≤ w.log.length) (hseen : Seen start x.id bal w.log) :
    if x.status ∉ [InvoiceStatus.awaitingPayment, .created] ∧
        ((sweepChains cfg).any fun entry => entry.chainId = key) = false then
      exec (sweepEvm cfg script key x bal) w = (.ok (), w)
    else Late cutoff x.id (exec (sweepEvm cfg script key x bal) w).2 := by
  have hsweep : ∀ version w', w.log <+: w'.log →
      Leads (Reaches cfg script (fun _ => True) start) (sweepOne cfg script x bal version) w' :=
    fun _ _ hlog => leads_sweepOne trivial (hstart.trans hlog.length_le) (hseen.mono hlog)
  unfold sweepEvm
  by_cases hawaiting : x.status ∈ [InvoiceStatus.awaitingPayment, .created]
  · rw [if_neg fun h => h.1 hawaiting]
    obtain ⟨status, hworker, hstatus⟩ := parse_paidReport x bal x.version
    have hunswept := ne_swept_of_worker hworker
    have hmark : markPaid cfg script x bal =
        trackWithRetry cfg script (paidReport x bal x.version) := by
      unfold markPaid
      rw [if_pos hawaiting]
    rw [hmark]
    have hpaid : Leads (Reaches cfg script (fun _ => True) start)
        (trackWithRetry cfg script (paidReport x bal x.version)) w :=
      leads_trackWithRetry trivial (.paid hseen x.version (some (some x.version)))
    apply late_bind hund (late_of_report hcalm hund hretries hx hrow _ rfl hstatus rfl
      (hvisible.awaits fun h => hunswept (Option.some.inj h)))
    intro afterPaid w₁ hrun
    have hlog := (hpaid.after hrun).log
    cases afterPaid with
    | none => exact Leads.pure _
    | some afterPaid =>
      dsimp only
      split
      · have hclaim : Leads (Reaches cfg script (fun _ => True) start)
            (claimWithRetry cfg script { x with version := afterPaid.version }) w₁ :=
          leads_claimWithRetry trivial (hseen.mono hlog)
        apply hclaim.bind
        intro claimed w₂ hrun₂
        cases claimed with
        | none => exact Leads.pure _
        | some claimed => exact hsweep _ w₂ (hlog.trans (hclaim.after hrun₂).log)
      · exact Leads.pure _
  · have hmark : exec (markPaid cfg script x bal) w = (.ok (some x), w) := by
      unfold markPaid
      rw [if_neg hawaiting]
      rfl
    rw [exec_bind_ok hmark]
    dsimp only
    cases hkey : (sweepChains cfg).any fun entry => entry.chainId = key with
    | false =>
      rw [if_pos ⟨hawaiting, rfl⟩]
      rfl
    | true =>
      rw [if_neg fun h => Bool.noConfusion h.2]
      have hclaim : Leads (Reaches cfg script (fun _ => True) start)
          (claimWithRetry cfg script x) w :=
        leads_claimWithRetry trivial hseen
      apply late_bind hund
        (late_of_claim hcalm hund hretries hx hrow hvisible.unleased hvisible.status)
      intro claimed w₁ hrun
      cases claimed with
      | none => exact Leads.pure _
      | some claimed => exact hsweep _ w₁ (hclaim.after hrun).log

theorem ReadyFor.unchanged_eq_false {r : Ready} (h : ReadyFor cfg x balance r)
    (hkey : r.key = none) : unchanged cfg balance x = false := by
  unfold unchanged
  rw [h.key, hkey]
  simp [h.positive]

/-- What is ready is written or, on an EVM chain without a key, left as it is. -/
theorem process_self {r : Ready} (hcalm : Calm script) (hund : Undisturbed script ids cutoff)
    (hretries : 0 < cfg.maxRetries) (hx : x.id ∈ ids) (hvisible : Visible cfg cutoff x)
    (hready : ReadyFor cfg x balance r) (hfresh : Fresh x balance w)
    (hstart : start ≤ w.log.length) (hseen : Seen start x.id r.balance w.log) :
    if unchanged cfg balance x then Fresh x balance (exec (process cfg script r) w).2
    else Late cutoff x.id (exec (process cfg script r) w).2 := by
  have hlate : Late cutoff x.id (exec (sweepReady cfg script r) w).2 →
      Late cutoff x.id (exec (process cfg script r) w).2 :=
    fun h => h.reaches hund (reaches_process start r)
  have hlook : unchanged cfg balance x = decide (balance = 0 ∨ ∃ chainId ∈ r.key,
      x.status ∉ [InvoiceStatus.awaitingPayment, .created] ∧
        ((sweepChains cfg).any fun entry => entry.chainId = chainId) = false) := by
    unfold unchanged
    rw [hready.key]
  have hnone : r.key = none → unchanged cfg balance x = false := hready.unchanged_eq_false
  obtain ⟨rfl, -, -, -, hpositive⟩ := hready
  cases r with
  | evm key invoice token bal =>
    rw [hlook]
    have hself := sweepEvm_self key hcalm hund hretries hx hvisible hfresh.row hstart hseen
    split at hself
    · rename_i hno
      have hrest : exec (process cfg script (.evm key invoice token bal)) w = (.ok (), w) :=
        exec_caught_ok hself
      rw [if_pos (decide_eq_true (.inr ⟨key, rfl, hno⟩)), hrest]
      exact hfresh
    · rename_i hsome
      rw [if_neg]
      · exact hlate hself
      · intro h
        rcases of_decide_eq_true h with hzero | ⟨chainId, hchain, hno⟩
        · exact hpositive hzero
        · cases hchain
          exact hsome hno
  | tron invoice token bal =>
    rw [hnone rfl, if_neg Bool.false_ne_true]
    apply hlate
    apply late_of_claimAndSweep hcalm hund hretries hx hvisible hfresh.row hseen
    intro version w' hlog
    apply leads_orThrow.bind
    intro tron w₁ hrun
    obtain ⟨-, rfl⟩ := orThrow_eq_ok hrun
    exact leads_sweepTronOne trivial (hstart.trans hlog.length_le) (hseen.mono hlog)
  | solana invoice bal mint symbol chainId =>
    rw [hnone rfl, if_neg Bool.false_ne_true]
    apply hlate
    apply late_of_claimAndSweep hcalm hund hretries hx hvisible hfresh.row hseen
    intro version w' hlog
    apply leads_orThrow.bind
    intro solana w₁ hrun
    obtain ⟨-, rfl⟩ := orThrow_eq_ok hrun
    exact leads_sweepSolanaOne trivial (hstart.trans hlog.length_le) (hseen.mono hlog)

/-- A look at the invoice leaves it as it is, or finds it ready, or writes that it failed. -/
theorem examine_self (ready : List Ready) (hcalm : Calm script)
    (hund : Undisturbed script ids cutoff) (hretries : 0 < cfg.maxRetries) (hx : x.id ∈ ids)
    (hvisible : Visible cfg cutoff x) (hfresh : Fresh x balance w) :
    ∃ ready' w', exec (examine cfg script ready x) w = (.ok ready', w') ∧
      ((ready' = ready ∧ look cfg x = .fails ∧ Late cutoff x.id w') ∨
        (ready' = ready ∧ unchanged cfg balance x = true ∧ Fresh x balance w') ∨
        ∃ r, ready' = ready ++ [r] ∧ ReadyFor cfg x balance r ∧ Fresh x balance w') := by
  have hlooks := looks_prepare hcalm cfg x w
  have hread := hfresh.afterRead hx hund x.id
  have hholds : (afterWait script w).holds x.id = balance := (hfresh.afterWait hx hund).holds
  unfold unchanged
  cases hlook : look cfg x with
  | passes =>
    rw [hlook] at hlooks
    have hrun : exec (prepare cfg script x) w = (.ok none, w) := hlooks
    refine ⟨_, w, exec_caught_ok (exec_bind_ok hrun), ?_⟩
    exact .inr (.inl ⟨List.append_nil ready, rfl, hfresh⟩)
  | fails =>
    rw [hlook] at hlooks
    obtain ⟨message, hrun⟩ : ∃ message, exec (prepare cfg script x) w =
        (.error (.thrown message), w) := hlooks
    have hreport : Late cutoff x.id (exec (reportError cfg script x) w).2 := by
      unfold reportError
      rw [exec_bind_pure]
      exact late_of_report hcalm hund hretries hx hfresh.row (errorReport x) rfl rfl rfl
        (hvisible.awaits (by simp))
    have hdone : exec (examine cfg script ready x) w =
        (.ok ready, (exec (reportError cfg script x) w).2) :=
      (exec_caught_thrown (exec_bind_error hrun)).trans (exec_reportError_of_calm hcalm x ready w)
    exact ⟨ready, _, hdone, .inl ⟨rfl, rfl, hreport⟩⟩
  | reads key =>
    rw [hlook] at hlooks
    dsimp only [Looks] at hlooks
    rw [hholds] at hlooks
    split at hlooks
    · rename_i hzero
      refine ⟨_, _, exec_caught_ok (exec_bind_ok hlooks),
        .inr (.inl ⟨List.append_nil ready, ?_, hread⟩)⟩
      exact decide_eq_true (.inl hzero)
    · rename_i hne
      obtain ⟨r, hrun, hinvoice, hkey, hbalance, hfits⟩ := hlooks
      refine ⟨_, _, exec_caught_ok (exec_bind_ok hrun),
        .inr (.inr ⟨r, rfl, ⟨hinvoice, ?_, hbalance, hfits, hne⟩, hread⟩)⟩
      rw [hkey, hlook]

end OnchainInvoice.SweeperWorker
