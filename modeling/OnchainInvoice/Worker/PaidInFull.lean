import OnchainInvoice.Worker.Attended

/-!
# Paid in full

The worker takes any balance for the payment, and a sweep for the end of the invoice.  What it reports
paid and what it sweeps covers the price if the first balance that it finds does, and it sees to an
invoice until the price has been swept if every sweep that it sends completes the price.
-/

namespace OnchainInvoice.SweeperWorker

open Lib.Handlers Lib.Revert Lib.Runs Lib.Tables Server Table

variable {cfg : SweeperConfig} {script : Nat → Turn} {who : String → Prop} {start price : Nat}
  {id : String} {w w' : World} {log log' : List Action}

/-! ## Balances before actions -/

-- Reports of a status, and sweeps.
def Acts (id : String) : Action → Prop
  | .observed _ _ => False
  | .sent invoiceId _ _ _ => invoiceId = id
  | .reported body => body.invoiceId = some id ∧ body.status ≠ none

-- Whatever is done to the invoice, a balance has been read before that covers the price.
def PaidInFull (price : Nat) (id : String) (log : List Action) : Prop :=
  ∀ pre a post, log = pre ++ a :: post → Acts id a →
    ∃ balance, price ≤ balance ∧ .observed id balance ∈ pre

-- The first balance that is found covers the price.
def FirstCovers (price : Nat) (id : String) (log : List Action) : Prop :=
  ∀ pre balance post, log = pre ++ .observed id balance :: post → balance ≠ 0 →
    (∀ earlier, .observed id earlier ∈ pre → earlier = 0) → price ≤ balance

theorem FirstCovers.antitone (h : FirstCovers price id log') (hlog : log <+: log') :
    FirstCovers price id log := by
  intro pre balance post hsplit hne hfirst
  obtain ⟨rest, hrest⟩ := hlog
  exact h pre balance (post ++ rest) (by rw [← hrest, hsplit]; simp) hne hfirst

-- Some balance has been found.
def Nonzero (id : String) (log : List Action) : Prop :=
  ∃ balance, balance ≠ 0 ∧ .observed id balance ∈ log

theorem Nonzero.mono (h : Nonzero id log) (hlog : log <+: log') : Nonzero id log' := by
  obtain ⟨balance, hne, hmem⟩ := h
  exact ⟨balance, hne, hlog.subset hmem⟩

theorem Nonzero.of_seen {balance : Nat} (h : Seen start id balance log) : Nonzero id log :=
  ⟨balance, h.1, List.mem_of_mem_drop h.2⟩

theorem exists_covering (hfirst : FirstCovers price id log) (h : Nonzero id log) :
    ∃ balance, price ≤ balance ∧ .observed id balance ∈ log := by
  induction log using List.reverseRecOn with
  | nil =>
    obtain ⟨balance, -, hmem⟩ := h
    exact absurd hmem List.not_mem_nil
  | append_singleton log a ih =>
    by_cases hearlier : Nonzero id log
    · obtain ⟨balance, hle, hmem⟩ := ih (hfirst.antitone (List.prefix_append ..)) hearlier
      exact ⟨balance, hle, List.mem_append_left _ hmem⟩
    · -- The first balance is the last thing in the log.
      obtain ⟨balance, hne, hmem⟩ := h
      rcases List.mem_append.mp hmem with hold | hlast
      · exact absurd ⟨balance, hne, hold⟩ hearlier
      · rw [← List.mem_singleton.mp hlast] at hfirst ⊢
        refine ⟨balance, hfirst log balance [] rfl hne fun earlier hmem => ?_, ?_⟩
        · by_contra hzero
          exact hearlier ⟨earlier, hzero, hmem⟩
        · exact List.mem_append_right _ (List.mem_singleton_self _)

-- Nothing is done to an invoice before a balance has been found.
def Grounded (id : String) (log : List Action) : Prop :=
  ∀ pre a post, log = pre ++ a :: post → Acts id a → Nonzero id pre

theorem Grounded.snoc {a : Action} (h : Grounded id log) (ha : Acts id a → Nonzero id log) :
    Grounded id (log ++ [a]) := by
  intro pre b post hsplit hacts
  rcases split_snoc hsplit with ⟨rfl, rfl⟩ | ⟨post', hold⟩
  · exact ha hacts
  · exact h pre b post' hold hacts

theorem Says.nonzero {invoice : Invoice} {body : TrackBody} (h : Says start log invoice body)
    (hstatus : body.status ≠ none) (hsent : ∀ hash sweep total,
      .sent invoice.id hash sweep total ∈ log → Nonzero invoice.id log) : Nonzero invoice.id log := by
  cases h with
  | error _ => exact absurd rfl hstatus
  | paid hseen _ _ => exact .of_seen hseen
  | swept hmem _ _ _ => exact hsent _ _ _ (List.mem_of_mem_drop hmem)

theorem Grounded.nonzero {hash : String} {sweep : Sweep} {total : Nat} (h : Grounded id log)
    (hmem : .sent id hash sweep total ∈ log) : Nonzero id log := by
  obtain ⟨pre, post, rfl⟩ := List.append_of_mem hmem
  exact (h pre _ post rfl rfl).mono (List.prefix_append ..)

theorem Grounded.step (h : Grounded id w.log) (hstep : Happens cfg script who start w w') :
    Grounded id w'.log := by
  cases hstep with
  | others hother => rwa [log_apply]
  | turn n => exact h
  | reads hwho => exact h.snoc fun hacts => hacts.elim
  | calls hretries hcall hok => exact h
  | reports hwho hsaid =>
    apply h.snoc
    rintro ⟨hid, hstatus⟩
    rw [hsaid.invoiceId] at hid
    cases hid
    exact hsaid.nonzero hstatus fun _ _ _ hmem => h.nonzero hmem
  | sends hwho hseen hpositive hcharged hholds =>
    apply h.snoc
    rintro rfl
    exact .of_seen hseen

theorem PaidInFull.of_grounded (h : Grounded id log) (hfirst : FirstCovers price id log) :
    PaidInFull price id log := by
  intro pre a post hsplit hacts
  apply exists_covering
  · exact hfirst.antitone ⟨a :: post, hsplit.symm⟩
  · exact h pre a post hsplit hacts

/-! ## The row -/

-- The list query selects the invoice.
def Selected (id : String) (w : World) : Prop :=
  ∃ invoice, w.db.invoices.find? id = some invoice ∧ invoice.status ∈ workerStatuses

-- Nobody else reports a status of the invoice.
def OnlyReporter (script : Nat → Turn) (id : String) : Prop :=
  ∀ n input now, .calls (.track input now) ∈ (script n).others → input.invoiceId = id →
    input.status = none

-- The list query selects the invoice unless the worker has sent a sweep of it.
def Kept (id : String) (w : World) : Prop :=
  ∃ invoice, w.db.invoices.find? id = some invoice ∧ (invoice.status ∈ workerStatuses ∨
    ∃ hash sweep total, .sent id hash sweep total ∈ w.log)

theorem Kept.of_same (h : Kept id w) (hrow : w'.db.invoices.find? id = w.db.invoices.find? id)
    (hlog : w.log <+: w'.log) : Kept id w' := by
  obtain ⟨invoice, hinvoice, hstatus⟩ := h
  refine ⟨invoice, hrow.trans hinvoice, hstatus.imp_right ?_⟩
  rintro ⟨hash, sweep, total, hmem⟩
  exact ⟨hash, sweep, total, hlog.subset hmem⟩

-- What a call makes of the status.
def Call.status : Call → Option InvoiceStatus
  | .claim _ _ => none
  | .track input _ => input.status

theorem status_update (c : Call) (invoice : Invoice) :
    (c.update invoice).status = (Call.status c).getD invoice.status := by
  cases c <;> rfl

theorem Kept.of_call {c : Call} {db' : CommerceDb} (h : Kept id w) (hok : step w.db c = .ok db')
    (hstatus : c.invoiceId = id → ∀ status, Call.status c = some status →
      status ∈ workerStatuses ∨ ∃ hash sweep total, .sent id hash sweep total ∈ w.log) :
    Kept id { w with db := db' } := by
  obtain ⟨invoice, hinvoice, hrow⟩ := h
  obtain ⟨row, hfound, -, hfind⟩ := find?_step hok id
  by_cases hid : id = c.invoiceId
  · rw [if_pos hid] at hfind
    rw [← hid, hinvoice] at hfound
    cases hfound
    refine ⟨_, hfind, ?_⟩
    rw [status_update]
    cases hsaid : Call.status c with
    | none => exact hrow
    | some status => exact hstatus hid.symm status hsaid
  · rw [if_neg hid] at hfind
    exact ⟨invoice, hfind.trans hinvoice, hrow⟩

theorem Says.status {invoice : Invoice} {body : TrackBody} {status : InvoiceStatus}
    (h : Says start log invoice body)
    (hstatus : parseInvoiceStatus body.status = .ok (some status)) :
    status ∈ workerStatuses ∨ ∃ hash sweep total, .sent invoice.id hash sweep total ∈ log := by
  cases h with
  | error _ => cases hstatus
  | @paid balance _ version _ =>
    obtain ⟨status', hworker, hparsed⟩ := parse_paidReport invoice balance version
    cases hstatus.symm.trans hparsed
    exact .inl hworker
  | swept hmem _ _ _ => exact .inr ⟨_, _, _, List.mem_of_mem_drop hmem⟩

theorem Kept.step (h : Kept id w) (hothers : OnlyReporter script id)
    (hstep : Happens cfg script who start w w') : Kept id w' := by
  have hlog : w.log <+: w'.log := Reaches.log (.single hstep)
  cases hstep with
  | @others n other hother =>
    cases other with
    | calls call =>
      rcases commit_cases Server.step w.db call with ⟨db', hok, hdb⟩ | ⟨e, -, hdb⟩
      · show Kept id { w with db := commit Server.step w.db call }
        rw [hdb]
        apply h.of_call hok
        intro hid status hstatus
        cases call with
        | claim input now => cases hstatus
        | track input now =>
          have hnone := hothers n input now hother hid
          exact absurd (hnone.symm.trans hstatus) (by simp)
      · show Kept id { w with db := commit Server.step w.db call }
        rw [hdb]
        exact h
    | pays invoiceId amount => exact h.of_same rfl hlog
    | sweeps invoiceId amount => exact h.of_same rfl hlog
    | carries place =>
      apply h.of_same _ hlog
      show (w.carry place).db.invoices.find? id = _
      rw [db_carry]
    | sets fees => exact h.of_same rfl hlog
  | turn n => exact h.of_same rfl hlog
  | reads hwho => exact h.of_same rfl hlog
  | calls hretries hcall hok =>
    apply h.of_call hok
    intro hid status hstatus
    cases hcall with
    | claim hwho hseen version n => cases hstatus
    | track hwho hsaid hparsed n =>
      cases hid
      cases hstatus
      exact hsaid.status hparsed
  | reports hwho hsaid => exact h.of_same rfl hlog
  | sends hwho hseen hpositive hcharged hholds => exact h.of_same rfl hlog

/-! ## The swept total -/

-- What a sweep that has been sent is still to move.
def World.due (w : World) (place : Nat) : Sweep → Nat
  | .tron _ amount => if place ∈ w.landed then 0 else amount
  | _ => 0

-- The totals that come with the sweeps of the invoice are reached once they are carried out.
structure Totals (id : String) (w : World) : Prop where
  landed : ∀ place ∈ w.landed, place < w.log.length
  total : ∀ place hash sweep total, w.log[place]? = some (.sent id hash sweep total) →
    total ≤ w.swept id + w.due place sweep

theorem swept_le_sweep (w : World) (invoiceId : String) (amount : Nat) :
    w.swept id ≤ (w.sweep invoiceId amount).swept id := by
  show _ ≤ Function.update w.swept invoiceId _ id
  rw [Function.update_apply]
  split
  · rename_i hid
    rw [hid]
    exact Nat.le_add_right ..
  · exact le_refl _

theorem Totals.of_grows (h : Totals id w) (hlog : w'.log = w.log) (hlanded : w'.landed = w.landed)
    (hswept : w.swept id ≤ w'.swept id) : Totals id w' where
  landed := by
    rw [hlog, hlanded]
    exact h.landed
  total place hash sweep total hplace := by
    rw [hlog] at hplace
    have hle := h.total place hash sweep total hplace
    have hdue : w'.due place sweep = w.due place sweep := by
      unfold World.due
      rw [hlanded]
    omega

theorem Totals.carry (h : Totals id w) (place : Nat) : Totals id (w.carry place) := by
  unfold World.carry
  split
  · exact h
  rename_i invoiceId amount hpending
  split
  case isFalse => exact h
  obtain ⟨⟨hash, balance, total, hplace⟩, hnot⟩ := pending_eq_some.mp hpending
  have hswept : w.swept id ≤ (w.sweep invoiceId amount).swept id := swept_le_sweep w invoiceId amount
  apply Totals.mk
  · intro place' hmem
    rcases List.mem_cons.mp hmem with rfl | hold
    · exact (List.getElem?_eq_some_iff.mp hplace).1
    · exact h.landed place' hold
  · intro place' hash' sweep' total' hplace'
    have hle := h.total place' hash' sweep' total' hplace'
    show total' ≤ (w.sweep invoiceId amount).swept id +
      World.due { w.sweep invoiceId amount with landed := place :: w.landed } place' sweep'
    by_cases hsame : place' = place
    · -- The transfer itself has moved what it was to.
      subst hsame
      cases hplace.symm.trans hplace'
      have hmoved : (w.sweep id amount).swept id = w.swept id + amount := Function.update_self ..
      have hdue : w.due place' (.tron balance amount) = amount := if_neg hnot
      omega
    · have hdue : World.due { w.sweep invoiceId amount with landed := place :: w.landed } place'
          sweep' = w.due place' sweep' := by
        unfold World.due
        simp only [List.mem_cons, hsame, false_or]
      omega

theorem Totals.snoc {a : Action} (h : Totals id w) (hlog : w'.log = w.log ++ [a])
    (hlanded : w'.landed = w.landed) (hswept : w.swept id ≤ w'.swept id)
    (ha : ∀ hash sweep total, a = .sent id hash sweep total →
      total ≤ w'.swept id + w'.due w.log.length sweep) : Totals id w' where
  landed := by
    rw [hlog, hlanded, List.length_append]
    exact fun place hmem => (h.landed place hmem).trans_le (Nat.le_add_right ..)
  total place hash sweep total hplace := by
    rw [hlog] at hplace
    rcases lt_or_ge place w.log.length with hold | hnew
    · rw [List.getElem?_append_left hold] at hplace
      have hle := h.total place hash sweep total hplace
      have hdue : w'.due place sweep = w.due place sweep := by
        unfold World.due
        rw [hlanded]
      omega
    · have hlast : place = w.log.length := by
        have hlt := (List.getElem?_eq_some_iff.mp hplace).1
        rw [List.length_append, List.length_singleton] at hlt
        omega
      subst hlast
      rw [List.getElem?_concat_length] at hplace
      exact ha hash sweep total (Option.some.inj hplace)

theorem Totals.step (h : Totals id w) (hstep : Happens cfg script who start w w') :
    Totals id w' := by
  cases hstep with
  | @others n other hother =>
    cases other with
    | pays invoiceId amount => exact h.of_grows rfl rfl (le_refl _)
    | sweeps invoiceId amount => exact h.of_grows rfl rfl (swept_le_sweep w _ _)
    | carries place => exact h.carry place
    | sets fees => exact h.of_grows rfl rfl (le_refl _)
    | calls call => exact h.of_grows rfl rfl (le_refl _)
  | turn n => exact h.of_grows rfl rfl (le_refl _)
  | reads hwho => exact h.snoc rfl rfl (le_refl _) fun _ _ _ heq => by cases heq
  | calls hretries hcall hok => exact h.of_grows rfl rfl (le_refl _)
  | reports hwho hsaid => exact h.snoc rfl rfl (le_refl _) fun _ _ _ heq => by cases heq
  | @sends id' hash sweep hwho hseen hpositive hcharged hholds =>
    have hgrows : w.swept id ≤ (w.sweep id' sweep.moved).swept id := swept_le_sweep w _ _
    refine Totals.snoc h rfl rfl hgrows ?_
    intro hash' sweep' total heq
    cases heq
    show w.swept id + sweep.amount ≤ (w.sweep id sweep.moved).swept id +
      w.due w.log.length sweep
    have hmoved : (w.sweep id sweep.moved).swept id = w.swept id + sweep.moved :=
      Function.update_self ..
    have hdue : sweep.amount ≤ sweep.moved + w.due w.log.length sweep := by
      cases sweep with
      | evm balance quoted fee => exact Nat.le_add_right ..
      | tron balance amount =>
        -- Nothing has landed at a place that the log has only now.
        have hnot : w.log.length ∉ w.landed := fun hmem => lt_irrefl _ (h.landed _ hmem)
        show amount ≤ 0 + (if w.log.length ∈ w.landed then 0 else amount)
        rw [if_neg hnot, Nat.zero_add]
      | solana balance feeBps amount fee => exact Nat.le_add_right ..
    omega

/-! ## Attention -/

-- A tick without failures is to come, by a worker that is set up for the invoice and lists it, while
-- nobody else changes or holds it.
structure Clear (cfg : SweeperConfig) (script : Nat → Turn) (cutoff : Time) (x : Invoice)
    (w : World) : Prop where
  calm : Calm script
  undisturbed : Undisturbed script [x.id] cutoff
  able : Able cfg x
  unleased : Unleased cfg cutoff x
  past : x.updatedAt ≤ cutoff
  listed : x ∈ listed cfg script w

-- The list query selects the invoice, and what is paid to its address is read and swept.
def Attended (cfg : SweeperConfig) (id : String) (w : World) : Prop :=
  ∃ x, w.db.invoices.find? id = some x ∧ x.status ∈ workerStatuses ∧
    ∀ script cutoff, Clear cfg script cutoff x w → w.holds id ≠ 0 →
      Seen w.log.length id (w.holds id) (exec (tick cfg script) w).2.log ∧
        SentAll w.log.length id (w.holds id) (exec (tick cfg script) w).2.log

-- Every sweep that the worker has sent of the invoice has completed the price.
def Completes (price : Nat) (id : String) (w : World) : Prop :=
  ∀ place hash sweep total, w.log[place]? = some (.sent id hash sweep total) →
    price ≤ total ∧ w.due place sweep = 0

theorem Attended.of_kept (hkept : Kept id w) (htotals : Totals id w)
    (hcompletes : Completes price id w) (hless : w.swept id < price) : Attended cfg id w := by
  have hunsent : ∀ hash sweep total, .sent id hash sweep total ∉ w.log := by
    intro hash sweep total hmem
    obtain ⟨place, hplace⟩ := List.getElem?_of_mem hmem
    obtain ⟨hprice, hdue⟩ := hcompletes place hash sweep total hplace
    have hle := htotals.total place hash sweep total hplace
    omega
  obtain ⟨x, hrow, hstatus | ⟨hash, sweep, total, hmem⟩⟩ := hkept
  case inr => exact absurd hmem (hunsent hash sweep total)
  have hid : x.id = id := key_of_find? hrow
  subst hid
  refine ⟨x, hrow, hstatus, ?_⟩
  rintro script cutoff ⟨hcalm, hund, hable, hunleased, hpast, hlisted⟩ hholds
  have hsettled : w.Settled x.id := by
    intro place amount hpending
    obtain ⟨⟨hash, balance, total, hplace⟩, -⟩ := pending_eq_some.mp hpending
    exact hunsent _ _ _ (List.mem_of_getElem? hplace)
  exact tick_sends hcalm hund (List.mem_singleton_self _) ⟨hstatus, hunleased⟩ hable
    ⟨hrow, rfl, hsettled⟩ hpast hlisted hholds

/-! ## Runs -/

/-- In every run in which the first balance that is found covers the price, the worker acts on the
invoice only after a balance that does.  In every run in which each sweep completes the price, the
invoice is attended to until the price has been swept. -/
theorem paid_in_full (cfg : SweeperConfig) (script : Nat → Turn) (price : Nat) (id : String)
    (w : World) (hlog : w.log = []) (hlanded : w.landed = []) (hselected : Selected id w)
    (hothers : OnlyReporter script id) (n : Nat) :
    (FirstCovers price id (ticks cfg script n w).log →
        PaidInFull price id (ticks cfg script n w).log) ∧
      (Completes price id (ticks cfg script n w) → (ticks cfg script n w).swept id < price →
        Attended cfg id (ticks cfg script n w)) := by
  have hgrounded : Grounded id (ticks cfg script n w).log := by
    apply ticks_invariant (I := fun v => Grounded id v.log) fun _ _ _ h hstep => h.step hstep
    intro pre a post hsplit
    rw [hlog] at hsplit
    simp at hsplit
  have hkept : Kept id (ticks cfg script n w) := by
    apply ticks_invariant (I := Kept id) fun _ _ _ h hstep => h.step hothers hstep
    obtain ⟨invoice, hinvoice, hstatus⟩ := hselected
    exact ⟨invoice, hinvoice, .inl hstatus⟩
  have htotals : Totals id (ticks cfg script n w) := by
    apply ticks_invariant (I := Totals id) fun _ _ _ h hstep => h.step hstep
    apply Totals.mk
    · rw [hlanded]
      exact fun place hmem => absurd hmem List.not_mem_nil
    · intro place hash sweep total hplace
      rw [hlog] at hplace
      cases hplace
  exact ⟨PaidInFull.of_grounded hgrounded, Attended.of_kept hkept htotals⟩

def Action.read : Action → Option Nat
  | .observed _ balance => some balance
  | _ => none

theorem FirstCovers.of_reads (h : ∀ a ∈ log, ∀ balance ∈ a.read, price ≤ balance) :
    FirstCovers price id log := by
  rintro pre balance post rfl - -
  exact h (.observed id balance) (by simp) balance rfl

-- The list of the first tick does not arrive.
def failing (n : Nat) : Turn :=
  { quiet n with fate := if n = 1 then .failed else .answered }

theorem paid_in_full_toy :
    PaidInFull 25000000 "id" (ticks .toy quiet 1 (.toy 25000000)).log ∧
      Attended .toy "id" (ticks .toy failing 1 (.toy 10000000)) := by
  have hpaid := paid_in_full .toy quiet 25000000 "id" (.toy 25000000) rfl rfl
    ⟨toyInvoice, by decide, by decide⟩ (fun _ _ _ hmem => absurd hmem List.not_mem_nil) 1
  have hpartial := paid_in_full .toy failing 25000000 "id" (.toy 10000000) rfl rfl
    ⟨toyInvoice, by decide, by decide⟩ (fun _ _ _ hmem => absurd hmem List.not_mem_nil) 1
  refine ⟨hpaid.1 (.of_reads (by decide +kernel)), hpartial.2 ?_ (by decide +kernel)⟩
  intro place hash sweep total hplace
  have hlog : (ticks .toy failing 1 (.toy 10000000)).log = [] := by decide +kernel
  rw [hlog] at hplace
  cases hplace

/-- A payment of one millionth of a dollar is reported, swept and the end of an invoice over 25. -/
theorem dust_is_swept :
    ¬PaidInFull 25000000 "id" (ticks .toy quiet 1 (.toy 1)).log ∧
      (ticks .toy quiet 1 (.toy 1)).swept "id" = 1 ∧
      ((ticks .toy quiet 1 (.toy 1)).db.invoices.find? "id").map Invoice.status = some .swept := by
  refine ⟨fun h => ?_, by decide +kernel, by decide +kernel⟩
  have hsent : .sent "id" "0xT" (.evm 1 0 0) 1 ∈ (ticks .toy quiet 1 (.toy 1)).log := by
    decide +kernel
  have hdust : ∀ a ∈ (ticks .toy quiet 1 (.toy 1)).log, ∀ balance ∈ a.read, balance < 25000000 := by
    decide +kernel
  obtain ⟨pre, post, hsplit⟩ := List.append_of_mem hsent
  obtain ⟨balance, hle, hmem⟩ := h pre _ post hsplit rfl
  have hless := hdust (.observed "id" balance) (by rw [hsplit]; simp [hmem]) balance rfl
  omega

end OnchainInvoice.SweeperWorker
