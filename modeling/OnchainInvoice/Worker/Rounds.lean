import OnchainInvoice.Lib.Polling
import OnchainInvoice.Worker.Undisturbed

/-!
# Rounds of the worker

The list that the worker polls is sorted by the last change and cut at a limit, and a tick changes
some of the rows it examines.  So the ticks poll a queue from its front.
-/

namespace OnchainInvoice.SweeperWorker

open Lib.Handlers Lib.Polling Lib.Revert Lib.Runs Lib.Tables Relation Server Table

variable {cfg : SweeperConfig} {script : Nat → Turn} {who : String → Prop} {start : Nat}
  {id : String} {ids : List String} {cutoff : Time} {w w' : World} {x : Invoice} {balance : Nat}

/-! ## One tick -/

-- The row is as it was and what is ready of it is up to date, or the row has been written, which is
-- only for cause.
def Looking (cause : Prop) (cfg : SweeperConfig) (cutoff : Time) (x : Invoice) (balance : Nat)
    (ready : List Ready) (w : World) : Prop :=
  (Fresh x balance w ∧ ∀ r ∈ ready, r.invoice.id = x.id → ReadyFor cfg x balance r) ∨
    (cause ∧ Late cutoff x.id w)

theorem unchanged_of_fails (h : look cfg x = .fails) : unchanged cfg balance x = false := by
  unfold unchanged
  rw [h]

-- If the tick is to write the row, it has done so or is going to.
def Noticed (cfg : SweeperConfig) (cutoff : Time) (x : Invoice) (balance : Nat) (ready : List Ready)
    (w : World) : Prop :=
  unchanged cfg balance x = true ∨ Late cutoff x.id w ∨ ∃ r ∈ ready, r.invoice = x

section

variable (hcalm : Calm script) (hund : Undisturbed script ids cutoff) (hretries : 0 < cfg.maxRetries)
  (hx : x.id ∈ ids) (hvisible : Visible cfg cutoff x)
include hcalm hund hretries hx hvisible

theorem examine_step {ready : List Ready} {invoice : Invoice}
    (hinvoice : invoice.id = x.id → invoice = x) (h : Looking (look cfg x = .fails) cfg cutoff x balance ready w)
    (hstart : start ≤ w.log.length) :
    ∃ ready' w', exec (examine cfg script ready invoice) w = (.ok ready', w') ∧
      Looking (look cfg x = .fails) cfg cutoff x balance ready' w' ∧
      (invoice = x ∨ Noticed cfg cutoff x balance ready w →
        Noticed cfg cutoff x balance ready' w') := by
  obtain ⟨ready', w', hrun⟩ : ∃ ready' w',
      exec (examine cfg script ready invoice) w = (.ok ready', w') :=
    exec_examine_of_calm hcalm ready invoice w
  have hlead :
      Leads (Reaches cfg script (· = invoice.id) start) (examine cfg script ready invoice) w :=
    leads_examine rfl hstart
  have hreach := hlead.after hrun
  rcases h with ⟨hfresh, hready⟩ | ⟨hfails, hlate⟩
  · by_cases hid : invoice.id = x.id
    · have hself := hinvoice hid
      subst hself
      obtain ⟨ready'', w'', hrun', hcases⟩ :=
        examine_self ready hcalm hund hretries hx hvisible hfresh
      rcases hcases with ⟨rfl, hfails, hlate⟩ | ⟨rfl, hsame, hfresh'⟩ | ⟨r, rfl, hr, hfresh'⟩
      · exact ⟨_, _, hrun', .inr ⟨hfails, hlate⟩, fun _ => .inr (.inl hlate)⟩
      · exact ⟨_, _, hrun', .inl ⟨hfresh', hready⟩, fun _ => .inl hsame⟩
      · refine ⟨_, _, hrun', .inl ⟨hfresh', ?_⟩, fun _ => .inr (.inr ⟨r, ?_, hr.invoice⟩)⟩
        · intro r' hr' hid'
          rcases List.mem_append.mp hr' with hold | hnew
          · exact hready r' hold hid'
          · rw [List.mem_singleton.mp hnew]
            exact hr
        · exact List.mem_append_right _ (List.mem_singleton_self r)
    · have hfresh' := hfresh.reaches hx hund (fun heq => hid heq.symm) hreach
      refine ⟨ready', w', hrun, .inl ⟨hfresh', ?_⟩, ?_⟩
      · intro r hr hid'
        rcases examine_eq_ok hstart hrun with rfl | ⟨r', rfl, hfound⟩
        · exact hready r hr hid'
        · rcases List.mem_append.mp hr with hold | hnew
          · exact hready r hold hid'
          · rw [List.mem_singleton.mp hnew, hfound.same] at hid'
            exact absurd hid' hid
      · rintro (rfl | hsame | hlate | ⟨r, hr, hself⟩)
        · exact absurd rfl hid
        · exact .inl hsame
        · exact .inr (.inl (hlate.reaches hund hreach))
        · rcases examine_eq_ok hstart hrun with rfl | ⟨r', rfl, -⟩
          · exact .inr (.inr ⟨r, hr, hself⟩)
          · exact .inr (.inr ⟨r, List.mem_append_left _ hr, hself⟩)
  · have hlate' := hlate.reaches hund hreach
    exact ⟨ready', w', hrun, .inr ⟨hfails, hlate'⟩, fun _ => .inr (.inl hlate')⟩

theorem examine_loop {invoices : List Invoice} {ready : List Ready}
    (hinvoices : ∀ invoice ∈ invoices, invoice.id = x.id → invoice = x)
    (h : Looking (look cfg x = .fails) cfg cutoff x balance ready w)
    (hfound : AllFound (fun _ => True) start ready w) :
    ∃ ready' w', exec (invoices.foldlM (examine cfg script) ready) w = (.ok ready', w') ∧
      Looking (look cfg x = .fails) cfg cutoff x balance ready' w' ∧
      AllFound (fun _ => True) start ready' w' ∧
      (x ∈ invoices ∨ Noticed cfg cutoff x balance ready w →
        Noticed cfg cutoff x balance ready' w') := by
  induction invoices generalizing ready w with
  | nil =>
    refine ⟨ready, w, rfl, h, hfound, ?_⟩
    rintro (hmem | hnoticed)
    · exact absurd hmem List.not_mem_nil
    · exact hnoticed
  | cons invoice invoices ih =>
    obtain ⟨ready₁, w₁, hrun, hlooking, hnoticed⟩ := examine_step hcalm hund hretries hx hvisible
      (hinvoices invoice (List.mem_cons_self ..)) h hfound.since
    obtain ⟨ready₂, w₂, hrest, hlooking₂, hfound₂, hnoticed₂⟩ :=
      ih (fun i hi => hinvoices i (List.mem_cons_of_mem invoice hi)) hlooking
        (hfound.examine trivial hrun)
    refine ⟨ready₂, w₂, ?_, hlooking₂, hfound₂, ?_⟩
    · rw [List.foldlM_cons, exec_bind_ok hrun]
      exact hrest
    · rintro (hmem | hbefore)
      · rcases List.mem_cons.mp hmem with rfl | htail
        · exact hnoticed₂ (.inr (hnoticed (.inl rfl)))
        · exact hnoticed₂ (.inl htail)
      · exact hnoticed₂ (.inr (hnoticed (.inr hbefore)))

theorem process_step {r : Ready} {ready : List Ready}
    (h : Looking (unchanged cfg balance x = false) cfg cutoff x balance (r :: ready) w)
    (hfound : AllFound (fun _ => True) start (r :: ready) w) :
    Looking (unchanged cfg balance x = false) cfg cutoff x balance ready (exec (process cfg script r) w).2 ∧
      (unchanged cfg balance x = false → r.invoice = x →
        Late cutoff x.id (exec (process cfg script r) w).2) := by
  have hseen := hfound.seen r (List.mem_cons_self ..)
  have hreach : Reaches cfg script (· = r.invoice.id) start w (exec (process cfg script r) w).2 :=
    leads_process rfl hfound.since hseen
  rcases h with ⟨hfresh, hready⟩ | ⟨hchanged, hlate⟩
  · have htail : ∀ r' ∈ ready, r'.invoice.id = x.id → ReadyFor cfg x balance r' :=
      fun r' hr' => hready r' (List.mem_cons_of_mem r hr')
    by_cases hid : r.invoice.id = x.id
    · have hr := hready r (List.mem_cons_self ..) hid
      rw [hid] at hseen
      have hself := process_self hcalm hund hretries hx hvisible hr hfresh hfound.since hseen
      cases hcase : unchanged cfg balance x with
      | true =>
        rw [if_pos hcase] at hself
        exact ⟨.inl ⟨hself, htail⟩, fun hfalse => Bool.noConfusion hfalse⟩
      | false =>
        rw [if_neg (by simp [hcase])] at hself
        exact ⟨.inr ⟨rfl, hself⟩, fun _ _ => hself⟩
    · have hfresh' := hfresh.reaches hx hund (fun heq => hid heq.symm) hreach
      refine ⟨.inl ⟨hfresh', htail⟩, fun _ hself => ?_⟩
      exact absurd (congrArg Invoice.id hself) hid
  · have hlate' := hlate.reaches hund hreach
    exact ⟨.inr ⟨hchanged, hlate'⟩, fun _ _ => hlate'⟩

theorem process_loop {ready : List Ready}
    (h : Looking (unchanged cfg balance x = false) cfg cutoff x balance ready w)
    (hfound : AllFound (fun _ => True) start ready w)
    (hnoticed : Noticed cfg cutoff x balance ready w) :
    if unchanged cfg balance x then
      Fresh x balance (exec (ready.forM (process cfg script)) w).2
    else Late cutoff x.id (exec (ready.forM (process cfg script)) w).2 := by
  induction ready generalizing w with
  | nil =>
    show if unchanged cfg balance x then Fresh x balance w else Late cutoff x.id w
    rcases h with ⟨hfresh, -⟩ | ⟨hchanged, hlate⟩
    · split
      · exact hfresh
      · rename_i hchanged
        rcases hnoticed with hsame | hlate | ⟨r, hr, -⟩
        · exact absurd hsame hchanged
        · exact hlate
        · exact absurd hr List.not_mem_nil
    · rw [if_neg (by simp [hchanged])]
      exact hlate
  | cons r ready ih =>
    have hrun : exec (process cfg script r) w = (.ok (), (exec (process cfg script r) w).2) :=
      exec_process_of_calm hcalm r w
    obtain ⟨hlooking, hwritten⟩ := process_step hcalm hund hretries hx hvisible h hfound
    have hreach : Reaches cfg script (fun _ => True) start w (exec (process cfg script r) w).2 :=
      leads_process trivial hfound.since (hfound.seen r (List.mem_cons_self ..))
    have hfound' := hfound.mono hreach.log
    have htail := ih hlooking ⟨hfound'.since,
      fun r' hr' => hfound'.who r' (List.mem_cons_of_mem r hr'),
      fun r' hr' => hfound'.seen r' (List.mem_cons_of_mem r hr')⟩
    have hforM : exec ((r :: ready).forM (process cfg script)) w =
        exec (ready.forM (process cfg script)) (exec (process cfg script r) w).2 :=
      exec_bind_ok hrun
    rw [hforM]
    apply htail
    cases hcase : unchanged cfg balance x with
    | true => exact .inl hcase
    | false =>
      rcases hnoticed with hsame | hlate | ⟨r', hr', hself⟩
      · exact .inl hsame
      · exact .inr (.inl (hlate.reaches hund hreach))
      · rcases List.mem_cons.mp hr' with rfl | hmem
        · exact .inr (.inl (hwritten hcase hself))
        · exact .inr (.inr ⟨r', hmem, hself⟩)

end

def onChain (chains : Option (List String)) (invoice : Invoice) : Bool :=
  match chains with
  | some chains => invoice.chainId.any (· ∈ chains)
  | none => true

-- The invoices that the worker has to see to, in the order in which it is to.
def queue (cfg : SweeperConfig) (db : CommerceDb) : List Invoice :=
  byUpdatedAt (byStatus (db.invoices.rows.filter fun invoice =>
    invoice.status ∈ workerStatuses ∧ onChain cfg.registered invoice))

theorem listWorkerInvoices_eq (cfg : SweeperConfig) (db : CommerceDb) :
    listWorkerInvoices db workerStatuses cfg.registered = (queue cfg db).take LIMIT := rfl

-- What the next tick fetches and examines.
def listed (cfg : SweeperConfig) (script : Nat → Turn) (w : World) : List Invoice :=
  (queue cfg (afterWait script w).db).take LIMIT

theorem exec_fetchInvoices (hcalm : Calm script) (w : World) :
    exec (fetchInvoices cfg script) w = (.ok (listed cfg script w), afterWait script w) := by
  rw [exec_fetchInvoices_of_calm hcalm, listWorkerInvoices_eq]
  rfl

theorem mem_queue {db : CommerceDb} : x ∈ queue cfg db → x ∈ db.invoices.rows ∧
    x.status ∈ workerStatuses := by
  unfold queue byUpdatedAt byStatus
  rw [List.mem_insertionSort, List.mem_insertionSort, List.mem_filter, decide_eq_true_eq]
  rintro ⟨hmem, hstatus, -⟩
  exact ⟨hmem, hstatus⟩

theorem find?_of_mem_queue {db : CommerceDb} (h : x ∈ queue cfg db) :
    db.invoices.find? x.id = some x :=
  find?_of_mem (mem_queue h).1

/-- A tick writes the rows that it examines, but for those that it leaves as they are. -/
theorem tick_self (hcalm : Calm script) (hund : Undisturbed script ids cutoff)
    (hretries : 0 < cfg.maxRetries) (hx : x.id ∈ ids) (hvisible : Visible cfg cutoff x)
    (hfresh : Fresh x balance w) :
    if x ∈ listed cfg script w ∧ unchanged cfg balance x = false then
      Late cutoff x.id (exec (tick cfg script) w).2
    else Fresh x balance (exec (tick cfg script) w).2 := by
  have hfresh₁ := hfresh.afterWait hx hund
  rw [tick_eq, exec_bind_ok (exec_fetchInvoices hcalm w)]
  by_cases hlisted : x ∈ listed cfg script w
  · have hsame : ∀ invoice ∈ listed cfg script w, invoice.id = x.id → invoice = x := by
      intro invoice hinvoice hid
      have hfind := find?_of_mem_queue (List.mem_of_mem_take hinvoice)
      rw [hid, hfresh₁.row] at hfind
      exact (Option.some.inj hfind).symm
    have hempty : AllFound (fun _ => True) (afterWait script w).log.length []
        (afterWait script w) :=
      ⟨le_refl _, fun r hr => absurd hr List.not_mem_nil, fun r hr => absurd hr List.not_mem_nil⟩
    obtain ⟨ready, w', hrun, hlooking, hfound, hnoticed⟩ := examine_loop hcalm hund hretries hx
      hvisible hsame (.inl ⟨hfresh₁, fun r hr => absurd hr List.not_mem_nil⟩) hempty
    have hlooking' : Looking (unchanged cfg balance x = false) cfg cutoff x balance
        (inOrder ready) w' :=
      hlooking.imp (fun h => ⟨h.1, fun r hr => h.2 r (mem_inOrder.mp hr)⟩)
        (And.imp_left unchanged_of_fails)
    have hfound' : AllFound (fun _ => True) (afterWait script w).log.length (inOrder ready) w' :=
      ⟨hfound.since, fun r hr => hfound.who r (mem_inOrder.mp hr),
        fun r hr => hfound.seen r (mem_inOrder.mp hr)⟩
    have hnoticed' : Noticed cfg cutoff x balance (inOrder ready) w' := by
      rcases hnoticed (.inl hlisted) with hsame | hlate | ⟨r, hr, hself⟩
      · exact .inl hsame
      · exact .inr (.inl hlate)
      · exact .inr (.inr ⟨r, mem_inOrder.mpr hr, hself⟩)
    have hprocess := process_loop hcalm hund hretries hx hvisible hlooking' hfound' hnoticed'
    show if _ then Late cutoff x.id (exec (_ >>= _) _).2 else Fresh x balance (exec (_ >>= _) _).2
    rw [exec_bind_ok hrun]
    cases hcase : unchanged cfg balance x with
    | true =>
      rw [if_neg fun h => Bool.noConfusion h.2]
      rwa [if_pos hcase] at hprocess
    | false =>
      rw [if_pos ⟨hlisted, rfl⟩]
      rwa [if_neg (by simp [hcase])] at hprocess
  · rw [if_neg fun h => hlisted h.1]
    have hlead : Leads (Reaches cfg script (· ∈ (listed cfg script w).map Invoice.id)
        (afterWait script w).log.length) (handleAll cfg script (listed cfg script w))
        (afterWait script w) :=
      leads_handleAll (fun _ hinvoice => List.mem_map_of_mem hinvoice) (le_refl _)
    apply hfresh₁.reaches hx hund _ hlead
    intro hmem
    obtain ⟨invoice, hinvoice, hid⟩ := List.mem_map.mp hmem
    have hfind := find?_of_mem_queue (List.mem_of_mem_take hinvoice)
    rw [hid, hfresh₁.row] at hfind
    exact hlisted (Option.some.inj hfind ▸ hinvoice)

/-! ## Many ticks -/

-- Without retries the worker sends no requests but the first.
def stays (cfg : SweeperConfig) (holds : String → Nat) (x : Invoice) : Bool :=
  cfg.maxRetries = 0 || unchanged cfg (holds x.id) x

-- The rows are those of the first world, or have been written after the cutoff.
structure Dated (cutoff : Time) (w₀ w : World) : Prop where
  ids : w.db.invoices.rows.map Invoice.id = w₀.db.invoices.rows.map Invoice.id
  rows : ∀ id, w.db.invoices.find? id = w₀.db.invoices.find? id ∨ Late cutoff id w

theorem Dated.refl (cutoff : Time) (w : World) : Dated cutoff w w := ⟨rfl, fun _ => .inl rfl⟩

theorem Dated.reaches {w₀ : World} (h : Dated cutoff w₀ w) (hund : Undisturbed script ids cutoff)
    (hreach : Reaches cfg script who start w w') : Dated cutoff w₀ w' where
  ids := (ids_of_reaches hreach).trans h.ids
  rows id := by
    rcases late_or_same hund id hreach with hsame | hlate
    · rcases h.rows id with hfirst | hlate
      · exact .inl (hsame.trans hfirst)
      · exact .inr (hlate.reaches hund hreach)
    · exact .inr hlate

theorem Dated.mem {w₀ : World} (h : Dated cutoff w₀ w) (hmem : x ∈ w.db.invoices.rows)
    (hpast : x.updatedAt ≤ cutoff) : x ∈ w₀.db.invoices.rows := by
  have hfind := find?_of_mem hmem
  rcases h.rows x.id with hsame | ⟨row, hrow, hlate⟩
  · exact mem_of_find? (hsame.symm.trans hfind)
  · rw [hfind] at hrow
    cases hrow
    exact absurd hlate (not_lt.mpr hpast)

-- The part of the first queue that has not been written.
def still (cfg : SweeperConfig) (w₀ w : World) : List Invoice :=
  (queue cfg w₀.db).filter fun x => w.db.invoices.find? x.id = some x

instance : Std.Total fun a b : Invoice => a.updatedAt ≤ b.updatedAt :=
  ⟨fun a b => le_total a.updatedAt b.updatedAt⟩

instance : IsTrans Invoice fun a b => a.updatedAt ≤ b.updatedAt :=
  ⟨fun _ _ _ h h' => le_trans h h'⟩

instance : Std.Total fun a b : Invoice => a.status.rank ≤ b.status.rank :=
  ⟨fun a b => le_total a.status.rank b.status.rank⟩

instance : IsTrans Invoice fun a b => a.status.rank ≤ b.status.rank :=
  ⟨fun _ _ _ h h' => le_trans h h'⟩

/-- The rows that have been written come after those that have not. -/
theorem queue_eq {w₀ : World} (hpast : ∀ row ∈ w₀.db.invoices.rows, row.updatedAt ≤ cutoff)
    (h : Dated cutoff w₀ w) :
    ∃ late, queue cfg w.db = still cfg w₀ w ++ late ∧ ∀ row ∈ late, cutoff < row.updatedAt := by
  let selected (invoice : Invoice) : Bool :=
    invoice.status ∈ workerStatuses ∧ onChain cfg.registered invoice
  let old (invoice : Invoice) : Bool := invoice.updatedAt ≤ cutoff
  let rows := byStatus (w.db.invoices.rows.filter selected)
  refine ⟨byUpdatedAt (rows.filter fun a => !old a), ?_, ?_⟩
  · have hsplit : queue cfg w.db =
        byUpdatedAt (rows.filter old) ++ byUpdatedAt (rows.filter fun a => !old a) := by
      apply insertionSort_eq_append
      intro a _ b _ ha hb hle
      have hnew := of_decide_eq_false ha
      exact hnew (hle.trans (of_decide_eq_true hb))
    rw [hsplit]
    congr 1
    unfold rows still queue byUpdatedAt byStatus
    rw [filter_insertionSort, filter_insertionSort, filter_insertionSort, List.filter_filter,
      List.filter_filter]
    congr 2
    have hrows := filter_rows_eq h.ids (p := fun a => old a && selected a) fun row hrow hp =>
      h.mem hrow (of_decide_eq_true (Bool.and_eq_true_iff.mp hp).1)
    rw [hrows]
    apply List.filter_congr
    intro row hrow
    have hold : old row = true := decide_eq_true (hpast row hrow)
    rw [hold, Bool.true_and, Bool.and_comm]
  · intro row hrow
    unfold byUpdatedAt at hrow
    rw [List.mem_insertionSort, List.mem_filter] at hrow
    have hnew := hrow.2
    simp only [old, Bool.not_eq_true', decide_eq_false_iff_not, not_le] at hnew
    exact hnew

-- The row is as it was in the first world, and if the worker acts at all so is the balance.
structure Waits (cfg : SweeperConfig) (holds : String → Nat) (x : Invoice) (w : World) : Prop where
  row : w.db.invoices.find? x.id = some x
  holds : 0 < cfg.maxRetries → w.holds x.id = holds x.id
  settled : 0 < cfg.maxRetries → w.Settled x.id

theorem find?_of_no_retries (hund : Undisturbed script ids cutoff) (hx : id ∈ ids)
    (hretries : cfg.maxRetries = 0) (hreach : Reaches cfg script who start w w') :
    w'.db.invoices.find? id = w.db.invoices.find? id := by
  apply hreach.invariant (I := fun v => v.db.invoices.find? id = w.db.invoices.find? id) _ rfl
  intro v v' hv hstep
  cases hstep with
  | others hother => exact (find?_apply (hund.spared hx _ _ hother) v).trans hv
  | turn n => exact hv
  | reads hwho => exact hv
  | calls hpositive hcall hok => omega
  | reports hwho hsaid => exact hv
  | sends hwho hseen hpositive hcharged hholds => exact hv

theorem tick_row {holds : String → Nat} (hcalm : Calm script) (hund : Undisturbed script ids cutoff)
    (hx : x.id ∈ ids) (hvisible : Visible cfg cutoff x) (h : Waits cfg holds x w) :
    if x ∈ listed cfg script w ∧ stays cfg holds x = false then
      Late cutoff x.id (exec (tick cfg script) w).2
    else Waits cfg holds x (exec (tick cfg script) w).2 := by
  rcases Nat.eq_zero_or_pos cfg.maxRetries with hzero | hpositive
  · have hstays : stays cfg holds x = true := by simp [stays, hzero]
    rw [if_neg fun h => by simp [hstays] at h]
    refine ⟨?_, fun hpos => by omega, fun hpos => by omega⟩
    rw [find?_of_no_retries hund hx hzero (reaches_tick w)]
    exact h.row
  · have hstays : stays cfg holds x = unchanged cfg (holds x.id) x := by
      simp [stays, Nat.ne_of_gt hpositive]
    have hself := tick_self hcalm hund hpositive hx hvisible
      ⟨h.row, h.holds hpositive, h.settled hpositive⟩
    rw [hstays]
    split at hself
    · rename_i hwritten
      rw [if_pos hwritten]
      exact hself
    · rename_i hleft
      rw [if_neg hleft]
      exact ⟨hself.row, fun _ => hself.holds, fun _ => hself.settled⟩

-- The state of the first queue after some ticks.
structure Standing (cfg : SweeperConfig) (cutoff : Time) (w₀ w : World) : Prop where
  dated : Dated cutoff w₀ w
  rows : ∀ x ∈ queue cfg w₀.db, Waits cfg w₀.holds x w ∨ Late cutoff x.id w

theorem nodup_queue (cfg : SweeperConfig) (db : CommerceDb) : (queue cfg db).Nodup := by
  have hrows : db.invoices.rows.Nodup := List.Nodup.of_map Invoice.id db.invoices.nodup
  have hstatus := (List.perm_insertionSort (fun a b => a.status.rank ≤ b.status.rank) _).nodup_iff.mpr
    (hrows.filter fun invoice =>
      invoice.status ∈ workerStatuses ∧ onChain cfg.registered invoice)
  exact (List.perm_insertionSort _ _).nodup_iff.mpr hstatus

theorem mem_still {w₀ : World} : x ∈ still cfg w₀ w ↔
    x ∈ queue cfg w₀.db ∧ w.db.invoices.find? x.id = some x := by
  unfold still
  rw [List.mem_filter, decide_eq_true_eq]

theorem nodup_still (cfg : SweeperConfig) (w₀ w : World) : (still cfg w₀ w).Nodup :=
  (nodup_queue cfg w₀.db).filter _

-- Neither a failure nor anybody else gets in the way of the ticks, which find the queue with its
-- times in the past and its invoices free, of which Tron has no transfer to carry out.
structure Smooth (cfg : SweeperConfig) (script : Nat → Turn) (cutoff : Time) (w : World) : Prop where
  calm : Calm script
  undisturbed : Undisturbed script ((queue cfg w.db).map Invoice.id) cutoff
  past : ∀ row ∈ w.db.invoices.rows, row.updatedAt ≤ cutoff
  unleased : ∀ x ∈ queue cfg w.db, Unleased cfg cutoff x
  settled : ∀ x ∈ queue cfg w.db, w.Settled x.id

section

variable {w₀ : World} (hsmooth : Smooth cfg script cutoff w₀)
include hsmooth

theorem Smooth.visible (hx : x ∈ queue cfg w₀.db) : Visible cfg cutoff x :=
  ⟨(mem_queue hx).2, hsmooth.unleased x hx⟩

theorem Smooth.not_late (hx : x ∈ queue cfg w₀.db) (hrow : w.db.invoices.find? x.id = some x) :
    ¬Late cutoff x.id w := by
  rintro ⟨row, hfind, hlate⟩
  rw [hrow] at hfind
  cases hfind
  exact absurd hlate (not_lt.mpr (hsmooth.past x (mem_queue hx).1))

theorem Smooth.mem_listed (hdated : Dated cutoff w₀ w) (hx : x ∈ queue cfg w₀.db) :
    x ∈ listed cfg script w ↔ x ∈ (still cfg w₀ w).take LIMIT := by
  have hwait : Reaches cfg script (fun _ => False) 0 w (afterWait script w) := reaches_afterWait w
  obtain ⟨late, hqueue, hlate⟩ : ∃ late, queue cfg (afterWait script w).db =
      still cfg w₀ (afterWait script w) ++ late ∧ ∀ row ∈ late, cutoff < row.updatedAt :=
    queue_eq hsmooth.past (hdated.reaches hsmooth.undisturbed hwait)
  have hstill : still cfg w₀ (afterWait script w) = still cfg w₀ w := by
    apply List.filter_congr
    intro y hy
    rw [find?_afterWait (hsmooth.undisturbed.spared (List.mem_map_of_mem hy))]
  have hnot : x ∉ late := fun hmem =>
    absurd (hlate x hmem) (not_lt.mpr (hsmooth.past x (mem_queue hx).1))
  unfold listed
  rw [hqueue, hstill, List.take_append, List.mem_append]
  apply Iff.intro
  · rintro (hfront | hback)
    · exact hfront
    · exact absurd (List.mem_of_mem_take hback) hnot
  · exact .inl

theorem Standing.tick (h : Standing cfg cutoff w₀ w) :
    Standing cfg cutoff w₀ (exec (tick cfg script) w).2 where
  dated := h.dated.reaches hsmooth.undisturbed (reaches_tick w)
  rows := by
    intro x hx
    rcases h.rows x hx with hwaits | hlate
    · have hrow := tick_row hsmooth.calm hsmooth.undisturbed (List.mem_map_of_mem hx)
        (hsmooth.visible hx) hwaits
      split at hrow
      · exact .inr hrow
      · exact .inl hrow
    · exact .inr (hlate.reaches hsmooth.undisturbed (reaches_tick w))

/-- A tick polls the queue. -/
theorem still_tick (h : Standing cfg cutoff w₀ w) : still cfg w₀ (exec (tick cfg script) w).2 =
    poll LIMIT (stays cfg w₀.holds) (still cfg w₀ w) := by
  rw [poll_eq_filter LIMIT _ (nodup_still cfg w₀ w)]
  conv_rhs =>
    arg 2
    unfold still
  rw [List.filter_filter]
  apply List.filter_congr
  intro x hx
  have hlate_ne : ∀ {v : World}, Late cutoff x.id v → v.db.invoices.find? x.id ≠ some x :=
    fun hlate hrow => hsmooth.not_late hx hrow hlate
  have hmem := hsmooth.mem_listed h.dated hx
  rcases h.rows x hx with hwaits | hlate
  · have hrow := tick_row hsmooth.calm hsmooth.undisturbed (List.mem_map_of_mem hx)
      (hsmooth.visible hx) hwaits
    rw [decide_eq_true hwaits.row, Bool.and_true]
    split at hrow
    · rename_i hwritten
      rw [decide_eq_false (hlate_ne hrow), decide_eq_true (hmem.mp hwritten.1), hwritten.2]
      rfl
    · rename_i hleft
      rw [decide_eq_true hrow.row]
      cases hstays : stays cfg w₀.holds x with
      | true => rw [Bool.or_true]
      | false =>
        have hnot : x ∉ (still cfg w₀ w).take LIMIT := fun hfront =>
          hleft ⟨hmem.mpr hfront, hstays⟩
        rw [decide_eq_false hnot]
        rfl
  · have hlate' : Late cutoff x.id (exec (tick cfg script) w).2 :=
      hlate.reaches hsmooth.undisturbed (reaches_tick w)
    rw [decide_eq_false (hlate_ne hlate'), decide_eq_false (hlate_ne hlate), Bool.and_false]

/-- The ticks poll the queue as rounds do. -/
theorem Smooth.standing (n : Nat) : Standing cfg cutoff w₀ (ticks cfg script n w₀) ∧
    still cfg w₀ (ticks cfg script n w₀) =
      waiting LIMIT (stays cfg w₀.holds) (queue cfg w₀.db) n := by
  induction n with
  | zero =>
    apply And.intro
    · exact ⟨.refl cutoff w₀, fun x hx =>
        .inl ⟨find?_of_mem_queue hx, fun _ => rfl, fun _ => hsmooth.settled x hx⟩⟩
    · show (queue cfg w₀.db).filter _ = queue cfg w₀.db
      rw [List.filter_eq_self]
      exact fun x hx => decide_eq_true (find?_of_mem_queue hx)
  | succ n ih =>
    rw [ticks_succ]
    apply And.intro
    · exact ih.1.tick hsmooth
    · rw [still_tick hsmooth ih.1, ih.2]
      rfl

end

-- The tick fetches the invoice, and it examines all that it fetches.
def Examines (cfg : SweeperConfig) (script : Nat → Turn) (id : String) (w : World) : Prop :=
  ∃ invoices w', exec (fetchInvoices cfg script) w = (.ok invoices, w') ∧
    ∃ invoice ∈ invoices, invoice.id = id

theorem examines_iff (hcalm : Calm script) (id : String) (w : World) :
    Examines cfg script id w ↔ ∃ invoice ∈ listed cfg script w, invoice.id = id := by
  unfold Examines
  rw [exec_fetchInvoices hcalm]
  apply Iff.intro
  · rintro ⟨invoices, w', hrun, hinvoice⟩
    cases hrun
    exact hinvoice
  · intro hinvoice
    exact ⟨_, _, rfl, hinvoice⟩

theorem Smooth.examined_iff (hsmooth : Smooth cfg script cutoff w) (hx : x ∈ queue cfg w.db)
    (n : Nat) : (∃ m < n, Examines cfg script x.id (ticks cfg script m w)) ↔
      ∃ m < n, x ∈ (waiting LIMIT (stays cfg w.holds) (queue cfg w.db) m).take LIMIT := by
  apply Iff.intro
  · rintro ⟨m, hm, hexamines⟩
    obtain ⟨hstanding, hstill⟩ := hsmooth.standing m
    rcases waiting_or_seen LIMIT (stays cfg w.holds) (queue cfg w.db) hx m with
      hwaits | ⟨k, hk, hseen⟩
    · -- It is fetched as it waits in the queue.
      rw [← hstill] at hwaits
      obtain ⟨invoice, hlisted, hid⟩ := (examines_iff hsmooth.calm _ _).mp hexamines
      have hfind := find?_of_mem_queue (List.mem_of_mem_take hlisted)
      rw [hid, find?_afterWait (hsmooth.undisturbed.spared (List.mem_map_of_mem hx)),
        (mem_still.mp hwaits).2] at hfind
      cases hfind
      refine ⟨m, hm, ?_⟩
      rw [← hstill]
      exact (hsmooth.mem_listed hstanding.dated hx).mp hlisted
    · exact ⟨k, hk.trans hm, hseen⟩
  · rintro ⟨m, hm, hseen⟩
    obtain ⟨hstanding, hstill⟩ := hsmooth.standing m
    rw [← hstill] at hseen
    exact ⟨m, hm, (examines_iff hsmooth.calm _ _).mpr
      ⟨x, (hsmooth.mem_listed hstanding.dated hx).mpr hseen, rfl⟩⟩

-- How many lists the invoices fill.
def rounds (n : Nat) : Nat := (n + LIMIT - 1) / LIMIT

/-- Ticks without failures run to their end, and as many as there are lists to fill examine every
invoice if and only if the invoices that they leave as they are do not take up the lists. -/
theorem all_examined_iff (cfg : SweeperConfig) (script : Nat → Turn) (cutoff : Time) (w : World)
    (hsmooth : Smooth cfg script cutoff w) :
    (∀ n, (exec (tick cfg script) (ticks cfg script n w)).1 = .ok ()) ∧
      ((∀ x ∈ queue cfg w.db, ∃ n < rounds (queue cfg w.db).length,
          Examines cfg script x.id (ticks cfg script n w)) ↔
        reached LIMIT (stays cfg w.holds) (queue cfg w.db) (rounds (queue cfg w.db).length) =
          (queue cfg w.db).length) := by
  apply And.intro
  · intro n
    obtain ⟨w', hrun⟩ : ∃ w', exec (tick cfg script) (ticks cfg script n w) = (.ok (), w') :=
      exec_tick_of_calm hsmooth.calm _
    rw [hrun]
  · rw [← all_seen_iff LIMIT _ _ (nodup_queue cfg w.db)]
    apply forall₂_congr
    intro x hx
    exact hsmooth.examined_iff hx _

/-! ## A crowd of unpaid invoices -/

def crowded (i : Nat) : Invoice :=
  { toyInvoice with id := String.ofList (List.replicate i 'x'), updatedAt := i }

theorem crowded_injective : Function.Injective (Invoice.id ∘ crowded) := by
  intro i j h
  have hlists : List.replicate i 'x' = List.replicate j 'x' := String.ofList_injective h
  simpa using congrArg List.length hlists

def World.crowd (n : Nat) : World :=
  { World.toy 0 with
    db := ⟨⟨(List.range n).map crowded, by
      rw [List.map_map]
      exact List.nodup_range.map crowded_injective⟩, fun _ => none⟩ }

-- As `quiet`, a second later.
def later (n : Nat) : Turn := quiet (n + 1)

theorem queue_crowd (n : Nat) : queue .toy (World.crowd n).db = (List.range n).map crowded := by
  have hsorted : ((List.range n).map crowded).Pairwise fun a b => a.updatedAt ≤ b.updatedAt := by
    rw [List.pairwise_map]
    exact List.pairwise_le_range.imp fun h => Int.ofNat_le.mpr h
  have hstatus : ((List.range n).map crowded).Pairwise fun a b => a.status.rank ≤ b.status.rank := by
    rw [List.pairwise_map]
    exact List.pairwise_le_range.imp fun _ => le_refl 0
  unfold queue byUpdatedAt byStatus
  rw [List.filter_eq_self.mpr]
  · show ((World.crowd n).db.invoices.rows.insertionSort _).insertionSort _ = _
    have hrows : (World.crowd n).db.invoices.rows = (List.range n).map crowded := rfl
    rw [hrows, hstatus.insertionSort_eq, hsorted.insertionSort_eq]
  · intro x hx
    obtain ⟨i, -, rfl⟩ := List.mem_map.mp hx
    rfl

theorem smooth_crowd {n : Nat} (hn : n ≤ 1000) : Smooth .toy later 999 (.crowd n) where
  calm := fun _ => rfl
  undisturbed := ⟨fun _ _ hother => absurd hother List.not_mem_nil, fun n => by
    show (999 : Int) < 1000 * ((n + 1 : Nat) : Int)
    omega⟩
  past := by
    intro x hx
    obtain ⟨i, hi, rfl⟩ := List.mem_map.mp hx
    have hlt : i < n := List.mem_range.mp hi
    show (i : Int) ≤ 999
    omega
  unleased := by
    intro x hx
    obtain ⟨i, -, rfl⟩ := List.mem_map.mp (mem_queue hx).1
    exact .inl rfl
  settled := fun _ _ _ _ hpending => by cases hpending

theorem stays_crowd (n i : Nat) : stays .toy (World.crowd n).holds (crowded i) = true := by
  rfl

theorem all_examined_iff_crowd :
    (∀ n, (exec (tick .toy later) (ticks .toy later n (.crowd 2))).1 = .ok ()) ∧
      ((∀ x ∈ queue .toy (World.crowd 2).db, ∃ n < rounds (queue .toy (World.crowd 2).db).length,
          Examines .toy later x.id (ticks .toy later n (.crowd 2))) ↔
        reached LIMIT (stays .toy (World.crowd 2).holds) (queue .toy (World.crowd 2).db)
          (rounds (queue .toy (World.crowd 2).db).length) =
            (queue .toy (World.crowd 2).db).length) :=
  all_examined_iff .toy later 999 (.crowd 2) (smooth_crowd (by decide))

/-- Of 251 unpaid invoices the last is never examined. -/
theorem last_never_examined :
    crowded 250 ∈ queue .toy (World.crowd 251).db ∧
      rounds (queue .toy (World.crowd 251).db).length = 2 ∧
      ∀ n, ¬Examines .toy later (crowded 250).id (ticks .toy later n (.crowd 251)) := by
  rw [queue_crowd]
  have hlast : crowded 250 ∈ (List.range 251).map crowded :=
    List.mem_map_of_mem (List.mem_range.mpr (by decide))
  refine ⟨hlast, ?_, fun n hexamines => ?_⟩
  · rw [List.length_map, List.length_range]
    rfl
  · have hseen := ((smooth_crowd (by decide : 251 ≤ 1000)).examined_iff (queue_crowd 251 ▸ hlast) (n + 1)).mp
      ⟨n, Nat.lt_succ_self n, hexamines⟩
    rw [seen_iff, queue_crowd] at hseen
    have hreached : reached LIMIT (stays .toy (World.crowd 251).holds) ((List.range 251).map crowded)
        (n + 1) ≤ LIMIT := by
      apply reached_le_limit
      intro x hx
      obtain ⟨i, -, rfl⟩ := List.mem_map.mp (List.mem_of_mem_take hx)
      exact stays_crowd 251 i
    have hfront := List.take_subset_take_left _ hreached hseen
    rw [← List.map_take, List.take_range] at hfront
    obtain ⟨i, hi, hsame⟩ := List.mem_map.mp hfront
    have heq : i = 250 := crowded_injective (congrArg Invoice.id hsame)
    rw [heq] at hi
    exact absurd hi (by decide)

end OnchainInvoice.SweeperWorker
