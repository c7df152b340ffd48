import Mathlib.Logic.Relation
import OnchainInvoice.Server.Reports
import OnchainInvoice.Worker.SweeperWorker

/-!
# What can happen in a tick

All that can happen while a tick runs is one of a few things, each with what the worker has read or
done before it.
-/

namespace OnchainInvoice.SweeperWorker

open Lib.Handlers Lib.Revert Lib.Tables Relation Server Table

variable (cfg : SweeperConfig) (script : Nat → Turn)

/-! ## Sweeps and reports -/

-- What the worker had read when it sent the sweep, and what the sweep is to move.
def Sweep.balance : Sweep → Nat
  | .evm balance _ _ => balance
  | .tron balance _ => balance
  | .solana balance _ _ _ => balance

def Sweep.amount : Sweep → Nat
  | .evm balance _ _ => balance
  | .tron _ amount => amount
  | .solana _ _ amount _ => amount

-- What moves when it is sent.
def Sweep.moved : Sweep → Nat
  | .evm balance _ _ => balance
  | .tron _ _ => 0
  | .solana _ _ amount _ => amount

structure Figures where
  amountPaid : Int
  amountSwept : Int
  feeCollected : Int
deriving DecidableEq, Repr

-- The figures that are reported of a sweep.
def Sweep.figures : Sweep → Figures
  | .evm balance quoted _ => ⟨balance, balance, quoted⟩
  | .tron balance amount => ⟨balance, amount, 0⟩
  | .solana balance feeBps _ _ =>
    ⟨balance, balance - ((balance : Int) * feeBps).tdiv 10000, ((balance : Int) * feeBps).tdiv 10000⟩

-- The fee that an EVM chain takes is part of the balance.  A Tron transfer is not of nothing.
def Sweep.Charged : Sweep → Prop
  | .evm balance _ fee => fee ≤ balance
  | .tron _ amount => 0 < amount
  | .solana _ _ _ _ => True

theorem evm_le (fees : Fees) (amount : Nat) : fees.evm amount ≤ amount := Lib.Fees.fee_le ..

-- The balance has been read since the tick began.
def Seen (start : Nat) (id : String) (balance : Nat) (log : List Action) : Prop :=
  balance ≠ 0 ∧ .observed id balance ∈ log.drop start

-- The reports that the worker sends of an invoice, for any version.
inductive Says (start : Nat) (log : List Action) (invoice : Invoice) : TrackBody → Prop
  | error (expectedVersion : Option Number) :
    Says start log invoice { errorReport invoice with expectedVersion := expectedVersion }
  | paid {balance : Nat} (hseen : Seen start invoice.id balance log) (version : Int)
      (expectedVersion : Option Number) :
    Says start log invoice
      { paidReport invoice balance version with expectedVersion := expectedVersion }
  | swept {hash : String} {sweep : Sweep} {total : Nat}
      (hsent : .sent invoice.id hash sweep total ∈ log.drop start) (gasSpentWei : Nat)
      (version : Int) (expectedVersion : Option Number) :
    Says start log invoice
      { sweptReport invoice sweep.figures.amountPaid sweep.figures.amountSwept
          sweep.figures.feeCollected gasSpentWei hash version with
        expectedVersion := expectedVersion }

-- The calls that the worker makes, of the invoices it works on.
inductive Licensed (who : String → Prop) (start : Nat) (log : List Action) : Call → Prop
  | claim {id : String} {balance : Nat} (hwho : who id) (hseen : Seen start id balance log)
      (version : Int) (n : Nat) :
    Licensed who start log
      (.claim ⟨id, cfg.address, some version, cfg.claimLeaseMs⟩ (script n).now.check)
  | track {invoice : Invoice} {body : TrackBody} {status : Option InvoiceStatus}
      (hwho : who invoice.id) (hsaid : Says start log invoice body)
      (hstatus : parseInvoiceStatus body.status = .ok status) (n : Nat) :
    Licensed who start log
      (.track (body.input invoice.id status (some cfg.address)) (script n).now)

inductive Happens (who : String → Prop) (start : Nat) (w : World) : World → Prop
  | others {n : Nat} {other : Other} (hother : other ∈ (script n).others) :
    Happens who start w (w.apply other)
  | turn (n : Nat) : Happens who start w { w with turn := n }
  | reads {id : String} (hwho : who id) :
    Happens who start w { w with log := w.log ++ [.observed id (w.holds id)] }
  | calls {call : Call} {db' : CommerceDb} (hretries : 0 < cfg.maxRetries)
      (hcall : Licensed cfg script who start w.log call) (hok : step w.db call = .ok db') :
    Happens who start w { w with db := db' }
  | reports {invoice : Invoice} {body : TrackBody} (hwho : who invoice.id)
      (hsaid : Says start w.log invoice body) :
    Happens who start w { w with log := w.log ++ [.reported body] }
  | sends {id hash : String} {sweep : Sweep} (hwho : who id)
      (hseen : Seen start id sweep.balance w.log) (hpositive : 0 < sweep.amount)
      (hcharged : sweep.Charged)
      (hholds : sweep.moved ≤ w.holds id) :
    Happens who start w { w.sweep id sweep.moved with
      log := w.log ++ [.sent id hash sweep (w.swept id + sweep.amount)] }

abbrev Reaches (who : String → Prop) (start : Nat) : World → World → Prop :=
  ReflTransGen (Happens cfg script who start)

variable {cfg script} {who : String → Prop} {start : Nat} {w w' : World}

/-- What everything that happens keeps is kept throughout. -/
theorem Reaches.invariant {I : World → Prop}
    (hstep : ∀ w w', I w → Happens cfg script who start w w' → I w')
    (h : Reaches cfg script who start w w') (hw : I w) : I w' := by
  induction h with
  | refl => exact hw
  | tail _ hlast ih => exact hstep _ _ ih hlast

theorem log_carry (w : World) (place : Nat) : (w.carry place).log = w.log := by
  unfold World.carry
  split
  · rfl
  · split <;> rfl

theorem log_apply (w : World) (other : Other) : (w.apply other).log = w.log := by
  cases other with
  | carries place => exact log_carry w place
  | _ => rfl

theorem db_carry (w : World) (place : Nat) : (w.carry place).db = w.db := by
  unfold World.carry
  split
  · rfl
  · split <;> rfl

theorem Reaches.log (h : Reaches cfg script who start w w') : w.log <+: w'.log := by
  apply h.invariant (I := fun v => w.log <+: v.log) _ (List.prefix_refl _)
  intro v v' hv hstep
  cases hstep with
  | others hother => rwa [log_apply]
  | turn n => exact hv
  | reads hwho => exact hv.trans (List.prefix_append ..)
  | calls hretries hcall hok => exact hv
  | reports hwho hsaid => exact hv.trans (List.prefix_append ..)
  | sends hwho hseen hpositive hcharged hholds => exact hv.trans (List.prefix_append ..)

/-- A log that has grown by one action is split there or where it was split before. -/
theorem split_snoc {log pre post : List Action} {a b : Action} (h : log ++ [a] = pre ++ b :: post) :
    (pre = log ∧ b = a) ∨ ∃ post', log = pre ++ b :: post' := by
  rcases List.eq_nil_or_concat post with rfl | ⟨post', c, rfl⟩
  · left
    obtain ⟨hpre, hlast⟩ := List.append_inj' h rfl
    exact ⟨hpre.symm, (List.singleton_inj.mp hlast).symm⟩
  · right
    rw [List.concat_eq_append, ← List.cons_append, ← List.append_assoc] at h
    exact ⟨post', (List.append_inj' h rfl).1⟩

theorem mem_drop_mono {log log' : List Action} {a : Action} (h : log <+: log')
    (ha : a ∈ log.drop start) : a ∈ log'.drop start :=
  (h.drop start).subset ha

theorem Seen.mono {id : String} {balance : Nat} {log log' : List Action}
    (h : Seen start id balance log) (hlog : log <+: log') : Seen start id balance log' :=
  ⟨h.1, mem_drop_mono hlog h.2⟩

theorem Says.mono {invoice : Invoice} {body : TrackBody} {log log' : List Action}
    (h : Says start log invoice body) (hlog : log <+: log') : Says start log' invoice body := by
  cases h with
  | error expectedVersion => exact .error expectedVersion
  | paid hseen version expectedVersion => exact .paid (hseen.mono hlog) version expectedVersion
  | swept hsent gasSpentWei version expectedVersion =>
    exact .swept (mem_drop_mono hlog hsent) gasSpentWei version expectedVersion

theorem Says.invoiceId {invoice : Invoice} {body : TrackBody} {log : List Action}
    (h : Says start log invoice body) : body.invoiceId = some invoice.id := by
  cases h <;> rfl

theorem Says.withVersion {invoice : Invoice} {body : TrackBody} {log : List Action}
    (h : Says start log invoice body) (expectedVersion : Option Number) :
    Says start log invoice { body with expectedVersion := expectedVersion } := by
  cases h with
  | error _ => exact .error expectedVersion
  | paid hseen version _ => exact .paid hseen version expectedVersion
  | swept hsent gasSpentWei version _ =>
    exact .swept hsent gasSpentWei version expectedVersion

/-! ## Turns -/

theorem reaches_others {n : Nat} {others : List Other}
    (h : ∀ other ∈ others, other ∈ (script n).others) (w : World) :
    Reaches cfg script who start w (others.foldl World.apply w) := by
  induction others generalizing w with
  | nil => exact .refl
  | cons other others ih =>
    rw [List.foldl_cons]
    have hhead : Reaches cfg script who start w (w.apply other) :=
      .single (.others (h other (List.mem_cons_self ..)))
    exact hhead.trans (ih (fun o ho => h o (List.mem_cons_of_mem other ho)) _)

-- The world when the worker's request arrives.
def afterWait (script : Nat → Turn) (w : World) : World :=
  { (script w.turn).others.foldl World.apply w with turn := w.turn + 1 }

theorem exec_wait (script : Nat → Turn) (w : World) :
    exec (wait script) w = (.ok (script w.turn), afterWait script w) := rfl

theorem reaches_afterWait (w : World) : Reaches cfg script who start w (afterWait script w) :=
  .tail (reaches_others (fun _ ho => ho) w) (.turn _)

variable {α : Type} {act : Turn → StateM World α}

theorem exec_interact (script : Nat → Turn) (act : Turn → StateM World α) (w : World) :
    exec (interact script act) w =
      match (script w.turn).fate with
      | .answered => (.ok (some (act (script w.turn) (afterWait script w)).1),
          (act (script w.turn) (afterWait script w)).2)
      | .failed => (.ok none, afterWait script w)
      | .unsent => (.error (.thrown "fetch failed"), afterWait script w)
      | .unanswered => (.error (.thrown "fetch failed"),
          (act (script w.turn) (afterWait script w)).2)
      | .stopped => (.error .stopped, afterWait script w)
      | .stoppedAfter => (.error .stopped, (act (script w.turn) (afterWait script w)).2) := by
  unfold interact
  rw [exec_bind_ok (exec_wait script w)]
  cases (script w.turn).fate <;> simp [Except.map]

theorem leads_interact (hact : ∀ w', Reaches cfg script who start w w' →
      Reaches cfg script who start w' (act (script w.turn) w').2) :
    Leads (Reaches cfg script who start) (interact script act) w := by
  have hwait : Reaches cfg script who start w (afterWait script w) := reaches_afterWait w
  unfold Leads
  rw [exec_interact]
  cases (script w.turn).fate with
  | answered => exact hwait.trans (hact _ hwait)
  | failed => exact hwait
  | unsent => exact hwait
  | unanswered => exact hwait.trans (hact _ hwait)
  | stopped => exact hwait
  | stoppedAfter => exact hwait.trans (hact _ hwait)

theorem interact_eq_some {a : α} (h : exec (interact script act) w = (.ok (some a), w')) :
    act (script w.turn) (afterWait script w) = (a, w') := by
  rw [exec_interact] at h
  cases hfate : (script w.turn).fate <;> rw [hfate] at h <;> cases h
  rfl

theorem exec_rpc (script : Nat → Turn) (act : Turn → StateM World α) (w : World) :
    exec (rpc script act) w =
      match (script w.turn).fate with
      | .answered => (.ok (act (script w.turn) (afterWait script w)).1,
          (act (script w.turn) (afterWait script w)).2)
      | .failed => (.error (.thrown "call failed"), afterWait script w)
      | .unsent => (.error (.thrown "fetch failed"), afterWait script w)
      | .unanswered => (.error (.thrown "fetch failed"),
          (act (script w.turn) (afterWait script w)).2)
      | .stopped => (.error .stopped, afterWait script w)
      | .stoppedAfter => (.error .stopped, (act (script w.turn) (afterWait script w)).2) := by
  have hinteract := exec_interact script act w
  unfold rpc
  cases hfate : (script w.turn).fate <;> rw [hfate] at hinteract
  · rw [exec_bind_ok hinteract]
    rfl
  · rw [exec_bind_ok hinteract]
    rfl
  · exact exec_bind_error hinteract
  · exact exec_bind_error hinteract
  · exact exec_bind_error hinteract
  · exact exec_bind_error hinteract

theorem rpc_eq_ok {a : α} (h : exec (rpc script act) w = (.ok a, w')) :
    act (script w.turn) (afterWait script w) = (a, w') := by
  obtain ⟨answer, w₁, hanswer, hthrow⟩ := exec_bind_eq_ok h
  cases answer with
  | none => cases hthrow
  | some a' =>
    cases hthrow
    exact interact_eq_some hanswer

theorem leads_orThrow {message : String} {o : Option α} :
    Leads (Reaches cfg script who start) (orThrow message o) w := by
  cases o with
  | none => exact Leads.throw _
  | some a => exact Leads.pure a

theorem orThrow_eq_ok {message : String} {o : Option α} {a : α}
    (h : exec (orThrow message o) w = (.ok a, w')) : o = some a ∧ w' = w := by
  cases o with
  | none => cases h
  | some a' =>
    cases h
    exact ⟨rfl, rfl⟩

theorem leads_rpc (hact : ∀ w', Reaches cfg script who start w w' →
      Reaches cfg script who start w' (act (script w.turn) w').2) :
    Leads (Reaches cfg script who start) (rpc script act) w :=
  (leads_interact hact).bind fun _ _ _ => leads_orThrow

theorem leads_caught {x : Work α} {h : String → Work α}
    (hx : Leads (Reaches cfg script who start) x w)
    (hh : ∀ message w', Reaches cfg script who start w w' →
      Leads (Reaches cfg script who start) (h message) w') :
    Leads (Reaches cfg script who start) (caught x h) w := by
  apply hx.rescue
  intro e w' hrun
  cases e with
  | thrown message => exact hh message w' (hx.after hrun)
  | stopped => exact Leads.throw _

theorem reaches_caught {x : Work α} {h : String → Work α}
    (hh : ∀ message, Leads (Reaches cfg script who start) (h message) (exec x w).2) :
    Reaches cfg script who start (exec x w).2 (exec (caught x h) w).2 := by
  unfold caught
  cases hx : exec x w with
  | mk answer w₁ =>
    rw [hx] at hh
    cases answer with
    | ok a =>
      rw [exec_rescue_ok hx]
    | error e =>
      rw [exec_rescue_error hx]
      cases e with
      | thrown message => exact hh message
      | stopped => exact .refl

theorem caught_eq_ok {x : Work α} {h : String → Work α} {a : α}
    (hrun : exec (caught x h) w = (.ok a, w')) : exec x w = (.ok a, w') ∨
      ∃ message w₁, exec x w = (.error (.thrown message), w₁) ∧
        exec (h message) w₁ = (.ok a, w') := by
  unfold caught at hrun
  cases hx : exec x w with
  | mk answer w₁ =>
    cases answer with
    | ok a' =>
      rw [exec_rescue_ok hx] at hrun
      cases hrun
      exact .inl rfl
    | error e =>
      rw [exec_rescue_error hx] at hrun
      cases e with
      | thrown message => exact .inr ⟨message, w₁, rfl, hrun⟩
      | stopped => cases hrun

end OnchainInvoice.SweeperWorker
