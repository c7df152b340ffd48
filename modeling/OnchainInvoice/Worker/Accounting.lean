import OnchainInvoice.Worker.Effects

/-!
# The figures of a sweep

The three chains report a sweep in three ways: before the fee on EVM chains, after a fee that is
worked out from the configuration on Solana, and as two readings of the balance on Tron, before
anything has come of the transfer.
-/

namespace OnchainInvoice.SweeperWorker

open Lib.Handlers Lib.Tables Server Table

variable {cfg : SweeperConfig} {script : Nat → Turn} {who : String → Prop} {start : Nat}
  {w w' : World} {log : List Action}

/-! ## What the merchant receives -/

-- What the merchant has received of the sweep that is at a place of the log.
def World.received (w : World) (place : Nat) : Sweep → Nat
  | .evm balance _ fee => balance - fee
  | .tron _ amount => if place ∈ w.landed then amount else 0
  | .solana _ _ amount fee => amount - fee

structure Balanced (figures : Figures) (received : Nat) : Prop where
  paid : figures.amountPaid = figures.amountSwept + figures.feeCollected
  swept : figures.amountSwept = received

-- No fee on EVM chains; one balance, read twice, on Tron, and a transfer that has been carried out;
-- on Solana what is left of the balance at the configured rate is what is left of the amount moved
-- after the fee that was taken.
def World.Square (w : World) (place : Nat) : Sweep → Prop
  | .evm _ quoted fee => quoted = 0 ∧ fee = 0
  | .tron balance amount => amount = balance ∧ place ∈ w.landed
  | .solana balance feeBps amount fee =>
    (balance : Int) - ((balance : Int) * feeBps).tdiv 10000 = (amount - fee : Nat)

theorem balanced_iff {sweep : Sweep} {place : Nat} (hcharged : sweep.Charged) :
    Balanced sweep.figures (w.received place sweep) ↔ w.Square place sweep := by
  cases sweep with
  | evm balance quoted fee =>
    have hle : fee ≤ balance := hcharged
    apply Iff.intro
    · rintro ⟨hpaid, hswept⟩
      have hpaid' : (balance : Int) = balance + quoted := hpaid
      have hswept' : (balance : Int) = (balance - fee : Nat) := hswept
      show quoted = 0 ∧ fee = 0
      omega
    · rintro ⟨rfl, rfl⟩
      exact ⟨(add_zero _).symm, rfl⟩
  | tron balance amount =>
    have hpositive : 0 < amount := hcharged
    apply Iff.intro
    · rintro ⟨hpaid, hswept⟩
      have hpaid' : (balance : Int) = amount + 0 := hpaid
      have hswept' : (amount : Int) = (if place ∈ w.landed then amount else 0 : Nat) := hswept
      refine ⟨by omega, ?_⟩
      by_contra hpending
      rw [if_neg hpending] at hswept'
      omega
    · rintro ⟨rfl, hlanded⟩
      refine ⟨(add_zero _).symm, ?_⟩
      show (amount : Int) = (if place ∈ w.landed then amount else 0 : Nat)
      rw [if_pos hlanded]
  | solana balance feeBps amount fee =>
    apply Iff.intro
    · rintro ⟨-, hswept⟩
      exact hswept
    · intro hnet
      exact ⟨(sub_add_cancel _ _).symm, hnet⟩

/-! ## What is recorded -/

-- The amounts of an invoice.
structure Records (figures : Figures) (invoice : Invoice) : Prop where
  amountPaid : invoice.amountPaid = toString figures.amountPaid
  amountSwept : invoice.amountSwept = toString figures.amountSwept
  feeCollected : invoice.feeCollected = toString figures.feeCollected

-- A report of the sweep, which the server takes over wherever it accepts it.
structure Tells (body : TrackBody) (id hash : String) (figures : Figures) : Prop where
  invoiceId : body.invoiceId = some id
  sweepTx : body.sweepTx = some hash
  recorded : ∀ cfg turn db answer db', track cfg body turn db = .ok (answer, db') →
    ∃ invoice, db'.invoices.find? id = some invoice ∧ invoice.status = .swept ∧
      invoice.sweepTx = some hash ∧ Records figures invoice

theorem tells_sweptReport (invoice : Invoice) (figures : Figures) (gasSpentWei : Nat)
    (hash : String) (version : Int) (expectedVersion : Option Number) :
    Tells { sweptReport invoice figures.amountPaid figures.amountSwept figures.feeCollected
      gasSpentWei hash version with expectedVersion := expectedVersion } invoice.id hash figures where
  invoiceId := rfl
  sweepTx := rfl
  recorded := by
    intro cfg turn db answer db' htrack
    obtain ⟨id, status, hid, hstatus, hstep⟩ := track_eq_ok htrack
    cases hid
    cases hstatus
    obtain ⟨row, -, -, hfind⟩ := find?_step hstep invoice.id
    exact ⟨_, hfind.trans (if_pos rfl), rfl, rfl, rfl, rfl, rfl⟩

theorem Says.tells {invoice : Invoice} {body : TrackBody} (h : Says start log invoice body)
    (hswept : body.status = some "swept") : ∃ hash sweep total,
      .sent invoice.id hash sweep total ∈ log ∧ Tells body invoice.id hash sweep.figures := by
  cases h with
  | error _ => cases hswept
  | paid _ _ _ =>
    unfold paidReport at hswept
    dsimp only at hswept
    split at hswept <;> exact absurd hswept (by decide)
  | swept hsent gasSpentWei version expectedVersion =>
    exact ⟨_, _, _, List.mem_of_mem_drop hsent,
      tells_sweptReport invoice _ gasSpentWei _ version expectedVersion⟩

-- Every report of a sweep comes after a sweep that it tells.
structure Accounted (log : List Action) : Prop where
  charged : ∀ id hash sweep total, .sent id hash sweep total ∈ log → sweep.Charged
  told : ∀ pre body post, log = pre ++ .reported body :: post → body.status = some "swept" →
    ∃ id hash sweep total, .sent id hash sweep total ∈ pre ∧ Tells body id hash sweep.figures

theorem Accounted.snoc {a : Action} (h : Accounted log)
    (hcharged : ∀ id hash sweep total, a = .sent id hash sweep total → sweep.Charged)
    (htold : ∀ body, a = .reported body → body.status = some "swept" →
      ∃ id hash sweep total, .sent id hash sweep total ∈ log ∧ Tells body id hash sweep.figures) :
    Accounted (log ++ [a]) where
  charged id hash sweep total hmem := by
    rcases List.mem_append.mp hmem with hold | hnew
    · exact h.charged id hash sweep total hold
    · exact hcharged id hash sweep total (List.mem_singleton.mp hnew).symm
  told pre body post hsplit hswept := by
    rcases split_snoc hsplit with ⟨rfl, heq⟩ | ⟨post', hold⟩
    · exact htold body heq.symm hswept
    · exact h.told pre body post' hold hswept

theorem Accounted.step (h : Accounted w.log) (hstep : Happens cfg script who start w w') :
    Accounted w'.log := by
  cases hstep with
  | others hother => rwa [log_apply]
  | turn n => exact h
  | reads hwho => exact h.snoc (fun _ _ _ _ heq => by cases heq) fun _ heq => by cases heq
  | calls hretries hcall hok => exact h
  | reports hwho hsaid =>
    apply h.snoc (fun _ _ _ _ heq => by cases heq)
    intro body heq hswept
    cases heq
    obtain ⟨hash, sweep, total, hmem, htells⟩ := hsaid.tells hswept
    exact ⟨_, hash, sweep, total, hmem, htells⟩
  | sends hwho hseen hpositive hcharged hholds =>
    apply h.snoc _ fun _ heq => by cases heq
    intro id hash sweep total heq
    cases heq
    exact hcharged

/-! ## Runs -/

/-- Every report of a sweep, in any run, is of a sweep before it, and the amounts that it makes the
server record balance if and only if that sweep is square by the end of the run. -/
theorem recorded_amounts (cfg : SweeperConfig) (script : Nat → Turn) (w : World) (hlog : w.log = [])
    (n : Nat) (pre : List Action) (body : TrackBody) (post : List Action)
    (hrun : (ticks cfg script n w).log = pre ++ .reported body :: post)
    (hswept : body.status = some "swept") :
    ∃ place id hash sweep total, pre[place]? = some (.sent id hash sweep total) ∧
      Tells body id hash sweep.figures ∧
      (Balanced sweep.figures ((ticks cfg script n w).received place sweep) ↔
        (ticks cfg script n w).Square place sweep) := by
  have haccounted : Accounted (ticks cfg script n w).log := by
    apply ticks_invariant (I := fun v => Accounted v.log) fun _ _ _ h hstep => h.step hstep
    rw [hlog]
    apply Accounted.mk
    · intro id hash sweep total hmem
      exact absurd hmem List.not_mem_nil
    · intro pre body post hsplit
      simp at hsplit
  obtain ⟨id, hash, sweep, total, hmem, htells⟩ := haccounted.told pre body post hrun hswept
  have hcharged : sweep.Charged := by
    apply haccounted.charged id hash sweep total
    rw [hrun]
    exact List.mem_append_left _ hmem
  obtain ⟨place, hplace⟩ := List.getElem?_of_mem hmem
  exact ⟨place, id, hash, sweep, total, hplace, htells, balanced_iff hcharged⟩

-- The report of the sweep in a run without fees, and with a fee of 50 basis points.
def toySweptReport (feeCollected : Int) : TrackBody :=
  sweptReport toyInvoice 25000000 25000000 feeCollected 21000 "0xT" 3

def World.toyFree : World := { World.toy 25000000 with fees := ⟨0, 0, 0⟩ }

theorem recorded_amounts_toy :
    ∃ pre post, (ticks .toy quiet 1 .toyFree).log = pre ++ .reported (toySweptReport 0) :: post ∧
      ∃ place id hash sweep total, pre[place]? = some (.sent id hash sweep total) ∧
        Tells (toySweptReport 0) id hash sweep.figures ∧
        (Balanced sweep.figures ((ticks .toy quiet 1 .toyFree).received place sweep) ↔
          (ticks .toy quiet 1 .toyFree).Square place sweep) := by
  have hmem : .reported (toySweptReport 0) ∈ (ticks .toy quiet 1 .toyFree).log := by decide +kernel
  obtain ⟨pre, post, hrun⟩ := List.append_of_mem hmem
  exact ⟨pre, post, hrun, recorded_amounts .toy quiet .toyFree rfl 1 pre _ post hrun rfl⟩

/-- The whole balance is recorded as swept, and the fee beside it. -/
theorem fee_recorded_twice :
    (ticks .toy quiet 1 (.toy 25000000)).log[3]? =
        some (.sent "id" "0xT" (.evm 25000000 125000 125000) 25000000) ∧
      ((ticks .toy quiet 1 (.toy 25000000)).db.invoices.find? "id").map (fun invoice =>
        (invoice.status, invoice.amountPaid, invoice.amountSwept, invoice.feeCollected)) =
          some (.swept, "25000000", "25000000", "125000") ∧
      ¬Balanced (Sweep.evm 25000000 125000 125000).figures
        ((ticks .toy quiet 1 (.toy 25000000)).received 3 (.evm 25000000 125000 125000)) := by
  refine ⟨by decide +kernel, by decide +kernel, fun hbalanced => ?_⟩
  have hpaid := hbalanced.paid
  exact absurd hpaid (by decide)

end OnchainInvoice.SweeperWorker
