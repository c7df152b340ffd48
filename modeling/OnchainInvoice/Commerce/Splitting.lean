import Mathlib.Algebra.Order.BigOperators.Group.List
import OnchainInvoice.Commerce.Conservation

/-!
# Sweeping in parts

Anybody may sweep an invoice and choose the amount, and the minimum fee is taken from every sweep.  In
parts an invoice can cost the merchant one more minimum for every part but the first.
-/

namespace OnchainInvoice.CommerceInvoiceSweeper

open Evm Lib.Runs Lib.Tokens Function

variable {env : Env} {s s' : State} {tx : Tx Call} {token to_ : Address} {invoiceId : Bytes32}

/-! ## The parts of an invoice -/

-- The amounts that these sweeps ask for from one invoice in one token.
def partsOf (token to_ : Address) (invoiceId : Bytes32) : List SweepCall → List Nat
  | [] => []
  | call :: calls =>
    if call.token = token ∧ call.to_ = to_ ∧ call.invoiceId = invoiceId then
      call.amount.toNat :: partsOf token to_ invoiceId calls
    else partsOf token to_ invoiceId calls

-- The parts in which a run sweeps the invoice: those of its transactions that succeed.
def parts (env : Env) (token to_ : Address) (invoiceId : Bytes32) : State → List (Tx Call) → List Nat
  | _, [] => []
  | s, tx :: txs =>
    (if Succeeds (step env) s tx then partsOf token to_ invoiceId (tx.call.sweeps.getD []) else []) ++
      parts env token to_ invoiceId (commit (step env) s tx) txs

-- What the merchant has got from the address of the invoice, and between two states.
def paidOut (env : Env) (token to_ : Address) (invoiceId : Bytes32) (s : State) : Nat :=
  paid s.ledger.transfers token (getInvoiceAddress env to_ invoiceId) to_

def received (env : Env) (token to_ : Address) (invoiceId : Bytes32) (s s' : State) : Nat :=
  paidOut env token to_ invoiceId s' - paidOut env token to_ invoiceId s

/-! ## What the merchant gets -/

theorem paid_leg (token src dst : Address) (amount : Nat) :
    paid (leg ⟨token, src, dst, amount⟩) token src dst = amount := by
  unfold leg
  split
  · rename_i hzero
    exact hzero.symm
  · simp [paid]

theorem amount_le_paid (env : Env) (s : State) (call : SweepCall) :
    call.amount.toNat ≤ paid (payouts env s call) call.token
      (getInvoiceAddress env call.to_ call.invoiceId) call.to_ +
        feeOf s call.token call.amount.toNat := by
  rw [payouts, paid_append, paid_leg]
  omega

-- Of a batch, the merchant gets at least the parts less their fees.
theorem sum_partsOf_le (env : Env) (s : State) (token to_ : Address) (invoiceId : Bytes32)
    (calls : List SweepCall) : (partsOf token to_ invoiceId calls).sum ≤
      paid (batchPayouts env s calls) token (getInvoiceAddress env to_ invoiceId) to_ +
        ((partsOf token to_ invoiceId calls).map (feeOf s token)).sum := by
  induction calls with
  | nil => exact Nat.zero_le _
  | cons call calls ih =>
    rw [batchPayouts_cons, paid_append, partsOf]
    split
    · rename_i hnamed
      rcases hnamed with ⟨rfl, rfl, rfl⟩
      have hpart := amount_le_paid env s call
      rw [List.sum_cons, List.map_cons, List.sum_cons]
      omega
    · omega

theorem sum_parts_le_of_step (token to_ : Address) (invoiceId : Bytes32)
    (h : step env s tx = .ok s') :
    (partsOf token to_ invoiceId (tx.call.sweeps.getD [])).sum + paidOut env token to_ invoiceId s ≤
      paidOut env token to_ invoiceId s' +
        ((partsOf token to_ invoiceId (tx.call.sweeps.getD [])).map (feeOf s token)).sum := by
  unfold paidOut
  cases hcalls : tx.call.sweeps with
  | none =>
    rcases grows_of_changes (step_changes h) with ⟨log, hlog⟩
    rw [hlog, paid_append]
    simp only [Option.getD_none, partsOf, List.map_nil, List.sum_nil]
    omega
  | some calls =>
    have hparts := sum_partsOf_le env s token to_ invoiceId calls
    rw [(split_of_changes (step_changes h) hcalls).moves.transfers, paid_append, Option.getD_some]
    omega

/-- Over a run with one fee configuration, the merchant gets at least the parts less their fees. -/
theorem sum_parts_le_of_run (env : Env) (token to_ : Address) (invoiceId : Bytes32) (s : State)
    (txs : List (Tx Call)) (hfixed : ∀ tx ∈ txs, tx.call.setsFees = false) :
    (parts env token to_ invoiceId s txs).sum + paidOut env token to_ invoiceId s ≤
      paidOut env token to_ invoiceId (run (step env) s txs) +
        ((parts env token to_ invoiceId s txs).map (feeOf s token)).sum := by
  induction txs generalizing s with
  | nil => exact Nat.le_of_eq (Nat.add_comm ..)
  | cons tx txs ih =>
    rw [parts, run_cons, List.map_append, List.sum_append, List.sum_append]
    have hrest := ih (commit (step env) s tx) (fun u hu => hfixed u (List.mem_cons_of_mem _ hu))
    rcases commit_cases (step env) s tx with ⟨s', hok, hcommit⟩ | ⟨e, herror, hcommit⟩
    · have hfees := feeOf_of_changes (step_changes hok) (hfixed tx (List.mem_cons_self ..))
      have hstep := sum_parts_le_of_step token to_ invoiceId hok
      rw [hcommit, hfees] at hrest
      rw [hcommit, if_pos ⟨s', hok⟩]
      omega
    · have hfails : ¬Succeeds (step env) s tx := by
        rintro ⟨s', hok⟩
        rw [herror] at hok
        cases hok
      rw [hcommit] at hrest
      rw [hcommit, if_neg hfails, List.map_nil, List.sum_nil]
      omega

/-- In any number of parts, an invoice costs its merchant the fee of a single sweep and at most one
minimum fee for each part but the first. -/
theorem received_of_run (env : Env) (s₀ : State) (txs : List (Tx Call)) (token to_ : Address)
    (invoiceId : Bytes32) (hfixed : ∀ tx ∈ txs, tx.call.setsFees = false) (total fee : Uint256)
    (htotal : total.toNat = (parts env token to_ invoiceId s₀ txs).sum)
    (hquote : quoteFee s₀ token total = .ok fee) :
    total.toNat ≤ received env token to_ invoiceId s₀ (run (step env) s₀ txs) + (fee.toNat +
      ((parts env token to_ invoiceId s₀ txs).length - 1) * (s₀.minFeeByToken token).toNat) := by
  have hrun := sum_parts_le_of_run env token to_ invoiceId s₀ txs hfixed
  have hsplit : ((parts env token to_ invoiceId s₀ txs).map (feeOf s₀ token)).sum ≤ _ :=
    Lib.Fees.sum_fee_le ..
  have hfee := toNat_of_quoteFee hquote
  rw [htotal] at hfee ⊢
  unfold received
  unfold feeOf at hfee
  omega

/-! ## While the owner sets fees -/

/-- A fee is at most a tenth of the amount or the minimum. -/
theorem feeOf_le (hs : Configured s) (token : Address) (amount : Nat) :
    feeOf s token amount ≤ max (amount / 10) (s.minFeeByToken token).toNat := by
  have hbps : s.feeBps.toNat ≤ 1000 := hs.feeBps
  have hshare : amount * s.feeBps.toNat / 10000 ≤ amount / 10 := by
    calc amount * s.feeBps.toNat / 10000
        ≤ amount * 1000 / (10 * 1000) := Nat.div_le_div_right (Nat.mul_le_mul_left _ hbps)
      _ = amount / 10 := Nat.mul_div_mul_right _ _ (by decide)
  unfold feeOf Lib.Fees.fee
  show min amount (max (amount * _ / 10000) _) ≤ _
  omega

theorem sum_feeOf_le (hs : Configured s) {least : Nat} (hleast : (s.minFeeByToken token).toNat ≤ least)
    (amounts : List Nat) :
    (amounts.map (feeOf s token)).sum ≤ (amounts.map fun amount => max (amount / 10) least).sum := by
  apply List.sum_le_sum
  intro amount _
  have hfee := feeOf_le hs token amount
  omega

/-- From the deployment on, and however the owner sets the fees, the merchant gets what the parts
leave after a tenth each, or after the minimum where that is more. -/
theorem share_of_run {ledger : Ledger Address Address} {code : Address → Bool}
    {feeRecipient initialOwner : Address} {feeBps : Uint16} {s₀ : State}
    (hdeployed : deploy ledger code feeRecipient feeBps initialOwner = .ok s₀) (txs : List (Tx Call))
    (token to_ : Address) (invoiceId : Bytes32) (least : Nat)
    (hleast : ∀ pre, pre <+: txs → ((run (step env) s₀ pre).minFeeByToken token).toNat ≤ least) :
    (parts env token to_ invoiceId s₀ txs).sum + paidOut env token to_ invoiceId s₀ ≤
      paidOut env token to_ invoiceId (run (step env) s₀ txs) +
        ((parts env token to_ invoiceId s₀ txs).map fun amount => max (amount / 10) least).sum := by
  have hconfigured := configured_of_deploy hdeployed
  clear hdeployed
  induction txs generalizing s₀ with
  | nil => exact Nat.le_of_eq (Nat.add_comm ..)
  | cons tx txs ih =>
    have hnow := hleast [] List.nil_prefix
    have hnext : ∀ pre, pre <+: txs →
        ((run (step env) (commit (step env) s₀ tx) pre).minFeeByToken token).toNat ≤ least :=
      fun pre hpre => hleast (tx :: pre) (List.cons_prefix_cons.mpr ⟨rfl, hpre⟩)
    rw [parts, run_cons, List.map_append, List.sum_append, List.sum_append]
    rcases commit_cases (step env) s₀ tx with ⟨s', hok, hcommit⟩ | ⟨e, herror, hcommit⟩
    · rw [hcommit] at hnext ⊢
      have hrest := ih hnext (configured_of_changes (step_changes hok) hconfigured)
      have hstep := sum_parts_le_of_step token to_ invoiceId hok
      have hfees := sum_feeOf_le hconfigured hnow
        (partsOf token to_ invoiceId (tx.call.sweeps.getD []))
      rw [if_pos ⟨s', hok⟩]
      omega
    · have hfails : ¬Succeeds (step env) s₀ tx := by
        rintro ⟨s', hok⟩
        rw [herror] at hok
        cases hok
      rw [hcommit] at hnext ⊢
      have hrest := ih hnext hconfigured
      rw [if_neg hfails, List.map_nil, List.sum_nil]
      omega

/-! ## Two parts -/

-- A stranger sweeps twenty wei in two parts.
def splitRun : List (Tx Call) :=
  [payInvoice 0xB1 7 20, ⟨0xA2, 200, .bulkSweep [⟨0, 10, 0xB1, 7⟩, ⟨0, 10, 0xB1, 7⟩]⟩]

theorem received_splitRun :
    (20 : Uint256).toNat ≤
      received toyEnv 0 0xB1 7 toyStart (run (step toyEnv) toyStart splitRun) +
        ((10 : Uint256).toNat + ((parts toyEnv 0 0xB1 7 toyStart splitRun).length - 1) *
          (toyStart.minFeeByToken 0).toNat) := by
  have htotal : (20 : Uint256).toNat = (parts toyEnv 0 0xB1 7 toyStart splitRun).sum := by
    decide +kernel
  exact received_of_run toyEnv toyStart splitRun 0 0xB1 7 (by decide) 20 10 htotal rfl

/-- Two parts cost the merchant more than one sweep does. -/
theorem split_overcharges :
    (20 : Uint256).toNat = (parts toyEnv 0 0xB1 7 toyStart splitRun).sum ∧
      quoteFee toyStart 0 20 = .ok 10 ∧
      received toyEnv 0 0xB1 7 toyStart (run (step toyEnv) toyStart splitRun) + 10 < 20 := by
  exact ⟨by decide +kernel, rfl, by decide +kernel⟩

end OnchainInvoice.CommerceInvoiceSweeper
