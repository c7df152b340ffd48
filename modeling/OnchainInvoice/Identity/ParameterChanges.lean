import OnchainInvoice.Identity.Provenance
import OnchainInvoice.Identity.StoreTimelock

/-!
# Changes of the timelocked parameters

While the timelock owns the store, the recovery operator and the restore delay change by executions
only, and behind every execution stands the last schedule of its parameter, which it uses up.
-/

namespace OnchainInvoice.IdentityStoreTimelock

open Evm Lib.Revert Lib.Runs IdentityStore

variable {α : Type} {P : Parameter α} {env : Env} {w : System} {txs : List (Tx Call)}

/-! ## Histories -/

def Parameter.Touches (P : Parameter α) (tx : Tx Call) : Prop :=
  (∃ v, tx.call = P.schedule v) ∨ ∃ v, tx.call = P.execute v

/-- The run ends with a schedule of the value by the then proposer and transactions none of which
schedules or executes the parameter. -/
structure LastSchedule (P : Parameter α) (env : Env) (w : System) (txs : List (Tx Call)) (v : α)
    (sched : Tx Call) (earlier between : List (Tx Call)) : Prop where
  split : txs = earlier ++ sched :: between
  call : sched.call = P.schedule v
  succeeds : Succeeds (step env) (run (step env) w earlier) sched
  proposer : sched.sender = (run (step env) w earlier).timelock.proposer
  quiet : ∀ first tx, first ++ [tx] <+: between → P.Touches tx →
    ¬Succeeds (step env) (run (step env) w (earlier ++ sched :: first)) tx

/-- Only executions change the parameter, each of them the first since the last schedule, which was
of the same value and at least the delay earlier on the clock. -/
structure Timelocked (clock : Uint256 → Nat) (P : Parameter α) (env : Env) (w : System)
    (txs : List (Tx Call)) : Prop where
  change : ∀ before tx after, txs = before ++ tx :: after →
    (run (step env) w before).store.owner = env.this →
    P.value (commit (step env) (run (step env) w before) tx).store ≠
      P.value (run (step env) w before).store →
    Succeeds (step env) (run (step env) w before) tx ∧
      tx.call = P.execute (P.value (commit (step env) (run (step env) w before) tx).store)
  execution : ∀ before tx after v, txs = before ++ tx :: after → tx.call = P.execute v →
    Succeeds (step env) (run (step env) w before) tx →
    ∃ sched earlier between, LastSchedule P env w before v sched earlier between ∧
      clock sched.timestamp + w.timelock.delay.toNat ≤ tx.timestamp.toNat

/-! ## Slots -/

theorem delay_of_run (env : Env) (w : System) (txs : List (Tx Call)) :
    (run (step env) w txs).timelock.delay = w.timelock.delay :=
  run_invariant (I := fun w' => w'.timelock.delay = w.timelock.delay)
    (fun _ _ _ hdelay hok => (delay_of_step hok).trans hdelay) rfl txs

-- A transaction that leaves the parameter alone comes after the last schedule.
theorem LastSchedule.concat {v : α} {sched tx : Tx Call} {earlier between : List (Tx Call)}
    (h : LastSchedule P env w txs v sched earlier between)
    (htx : P.Touches tx → ¬Succeeds (step env) (run (step env) w txs) tx) :
    LastSchedule P env w (txs ++ [tx]) v sched earlier (between ++ [tx]) := by
  apply LastSchedule.mk
  · rw [h.split]
    simp
  · exact h.call
  · exact h.succeeds
  · exact h.proposer
  · intro first t hprefix
    rcases List.prefix_concat_iff.mp hprefix with hlast | hinner
    · obtain ⟨rfl, ht⟩ := List.append_inj' hlast rfl
      cases ht
      rw [← h.split]
      exact htx
    · exact h.quiet first t hinner

/-- A value that is pending was scheduled last, and is ready when the delay is over. -/
theorem lastSchedule_of_pending (hlawful : P.Lawful) {proposer : Address} {delay : Uint64}
    {store : IdentityStore.State} (hsent : ∀ tx ∈ txs, SentByOthers env tx)
    (hpending : (P.slot (run (step env) ⟨deployed proposer delay, store⟩ txs).timelock).pending =
      true) :
    ∃ sched earlier between,
      LastSchedule P env ⟨deployed proposer delay, store⟩ txs
        (P.slot (run (step env) ⟨deployed proposer delay, store⟩ txs).timelock).value
        sched earlier between ∧
      (P.slot (run (step env) ⟨deployed proposer delay, store⟩ txs).timelock).readyAt.toNat =
        (uint64 sched.timestamp).toNat + delay.toNat := by
  induction txs using List.reverseRecOn with
  | nil =>
    rw [run_nil, hlawful.idle] at hpending
    cases hpending
  | append_singleton txs tx ih =>
    have ih' := ih fun tx htx => hsent tx (List.mem_append_left _ htx)
    rw [run_concat] at hpending ⊢
    rcases commit_cases (step env) (run (step env) ⟨deployed proposer delay, store⟩ txs) tx with
      ⟨w', hok, hcommit⟩ | ⟨e, herror, hcommit⟩
    · rw [hcommit] at hpending ⊢
      cases hlawful.effect env _ tx w' hok (hsent tx (by simp)) with
      | schedule next hcall hcan hslot =>
        rw [hslot]
        refine ⟨tx, txs, [], ⟨by simp, hcall, ⟨w', hok⟩, hcan.sender, ?_⟩, ?_⟩
        · intro first t hprefix
          exact absurd (List.prefix_nil.mp hprefix) (by simp)
        · have hdelay := delay_of_run env ⟨deployed proposer delay, store⟩ txs
          have hfit := hcan.noOverflow
          unfold Slot.scheduled
          rw [hdelay] at hfit ⊢
          exact BitVec.toNat_add_of_lt hfit
      | execute next hcall hcan hslot =>
        rw [hslot] at hpending
        cases hpending
      | other hschedule hexecute hslot =>
        rw [hslot] at hpending ⊢
        obtain ⟨sched, earlier, between, hlast, hready⟩ := ih' hpending
        refine ⟨sched, earlier, between ++ [tx], hlast.concat ?_, hready⟩
        rintro (⟨v, hv⟩ | ⟨v, hv⟩)
        · exact absurd hv (hschedule v)
        · exact absurd hv (hexecute v)
    · rw [hcommit] at hpending ⊢
      obtain ⟨sched, earlier, between, hlast, hready⟩ := ih' hpending
      refine ⟨sched, earlier, between ++ [tx], hlast.concat ?_, hready⟩
      rintro - ⟨w', hok⟩
      cases herror.symm.trans hok

theorem timelocked_of_lawful (hlawful : P.Lawful) (proposer : Address) (delay : Uint64)
    (store : IdentityStore.State) (hsent : ∀ tx ∈ txs, SentByOthers env tx) :
    Timelocked uint64Clock P env ⟨deployed proposer delay, store⟩ txs := by
  apply Timelocked.mk
  · intro before tx after htxs howner hchange
    have htx : tx ∈ txs := by simp [htxs]
    rcases commit_cases (step env) (run (step env) ⟨deployed proposer delay, store⟩ before) tx with
      ⟨w', hok, hcommit⟩ | ⟨e, -, hcommit⟩
    · rw [hcommit] at hchange ⊢
      cases hlawful.effect env _ tx w' hok (hsent tx htx) with
      | schedule next hcall hcan hslot hvalue => exact absurd hvalue hchange
      | execute next hcall hcan hslot hvalue =>
        rw [hvalue]
        exact ⟨⟨w', hok⟩, hcall⟩
      | other hschedule hexecute hslot hvalue => exact absurd (hvalue howner) hchange
    · rw [hcommit] at hchange
      exact absurd rfl hchange
  · intro before tx after v htxs hcall hsucceeds
    obtain ⟨w', hok⟩ := hsucceeds
    have htx : tx ∈ txs := by simp [htxs]
    have hbefore : ∀ tx ∈ before, SentByOthers env tx := by
      intro t ht
      exact hsent t (by simp [htxs, ht])
    cases hlawful.effect env _ tx w' hok (hsent tx htx) with
    | schedule next hcall' => exact absurd (hcall.symm.trans hcall') (hlawful.distinct v next)
    | execute next hcall' hcan =>
      have hv := hlawful.execute_inj v next (hcall.symm.trans hcall')
      obtain ⟨sched, earlier, between, hlast, hready⟩ :=
        lastSchedule_of_pending hlawful hbefore hcan.pending
      refine ⟨sched, earlier, between, ?_, ?_⟩
      · rw [hv, ← hcan.value]
        exact hlast
      · have htime := hcan.ready
        rw [hready] at htime
        exact htime
    | other hschedule hexecute => exact absurd hcall (hexecute v)

/-- Both parameters of the store are timelocked from the deployment of the timelock on. -/
theorem parameters_timelocked_of_run (env : Env) (proposer : Address) (delay : Uint64)
    (store : IdentityStore.State) (txs : List (Tx Call))
    (hsent : ∀ tx ∈ txs, SentByOthers env tx) :
    Timelocked uint64Clock operator env ⟨deployed proposer delay, store⟩ txs ∧
      Timelocked uint64Clock restoreDelay env ⟨deployed proposer delay, store⟩ txs :=
  ⟨timelocked_of_lawful operator_lawful proposer delay store hsent,
    timelocked_of_lawful restoreDelay_lawful proposer delay store hsent⟩

-- The timelock owns the store from the start.
def ownedEnv : Env := ⟨toyEnv, 0x7131⟩

def ownedStore : IdentityStore.State := IdentityStore.deployed 0x0BE0 0x7131

-- Both parameters are scheduled, the operator a second time by the next proposer, and executed.
def changesRun : List (Tx Call) :=
  [⟨0x0A11CE, 100, .scheduleRecoveryOperator 0x0BE1⟩,
    ⟨0x0A11CE, 101, .scheduleRestoreDelay 60⟩,
    ⟨0x0A11CE, 110, .setProposer 0x0B0B⟩,
    ⟨0x0B0B, 120, .scheduleRecoveryOperator 0x0BE2⟩,
    ⟨0xCA11, 200, .executeRecoveryOperator 0x0BE1⟩,
    ⟨0xCA11, 201, .executeRestoreDelay 60⟩,
    ⟨0xCA11, 220, .executeRecoveryOperator 0x0BE2⟩]

theorem timelocked_of_changesRun :
    (run (step ownedEnv) ⟨deployed 0x0A11CE 100, ownedStore⟩ changesRun).store.recoveryOperator =
        0x0BE2 ∧
      Timelocked uint64Clock operator ownedEnv ⟨deployed 0x0A11CE 100, ownedStore⟩ changesRun ∧
      Timelocked uint64Clock restoreDelay ownedEnv ⟨deployed 0x0A11CE 100, ownedStore⟩
        changesRun :=
  ⟨by decide +kernel,
    parameters_timelocked_of_run ownedEnv 0x0A11CE 100 ownedStore changesRun
      (by simp [changesRun, SentByOthers])⟩

/-- Read with the full `block.timestamp`, the delay is not always waited for: with a delay of 100 s,
a value scheduled in a block of time 2^64 is executed in the same block. -/
theorem late_schedule_undercuts_delay :
    ¬Timelocked BitVec.toNat operator ownedEnv ⟨deployed 0x0A11CE 100, ownedStore⟩
      [⟨0x0A11CE, 2 ^ 64, .scheduleRecoveryOperator 0x0BE1⟩,
        ⟨0xCA11, 2 ^ 64, .executeRecoveryOperator 0x0BE1⟩] := by
  intro h
  have hsucceeds : Succeeds (step ownedEnv)
      (run (step ownedEnv) ⟨deployed 0x0A11CE 100, ownedStore⟩
        [⟨0x0A11CE, 2 ^ 64, .scheduleRecoveryOperator 0x0BE1⟩])
      ⟨0xCA11, 2 ^ 64, .executeRecoveryOperator 0x0BE1⟩ := by decide +kernel
  obtain ⟨sched, earlier, between, hlast, hdelay⟩ :=
    h.execution [_] _ [] 0x0BE1 rfl rfl hsucceeds
  have hsched : sched ∈ [(⟨0x0A11CE, 2 ^ 64, .scheduleRecoveryOperator 0x0BE1⟩ : Tx Call)] := by
    rw [hlast.split]
    simp
  rw [List.mem_singleton.mp hsched] at hdelay
  exact absurd hdelay (by decide +kernel)

end OnchainInvoice.IdentityStoreTimelock
