import OnchainInvoice.Commerce.CommerceInvoiceSweeper
import OnchainInvoice.Lib.Fees

/-!
# What the commerce sweeper does

The transfers of a sweep and of a batch of sweeps, and everything a transaction can change.
-/

namespace OnchainInvoice.CommerceInvoiceSweeper

open Evm Lib.Revert Lib.Tokens Function

variable {env : Env} {s s' : State} {tx : Tx Call} {forwarder token to_ sender : Address}
  {amount fee : Uint256} {invoiceId : Bytes32}

/-! ## The fee -/

-- `min(amount, max(floor(amount * feeBps / 10000), minFee))`
def feeOf (s : State) (token : Address) (amount : Nat) : Nat :=
  Lib.Fees.fee BPS_DENOMINATOR.toNat s.feeBps.toNat (s.minFeeByToken token).toNat amount

theorem toNat_of_quoteFee (h : quoteFee s token amount = .ok fee) :
    fee.toNat = feeOf s token amount.toNat := by
  simp only [quoteFee, bind_eq_ok, pure_eq_ok] at h
  rcases h with ⟨product, hproduct, hfee⟩
  have hshare : (product / BPS_DENOMINATOR.setWidth 256).toNat =
      amount.toNat * s.feeBps.toNat / BPS_DENOMINATOR.toNat := by
    rw [BitVec.toNat_udiv, toNat_of_checkedMul hproduct, BitVec.toNat_setWidth_of_le (by decide),
      BitVec.toNat_setWidth_of_le (by decide)]
  rw [← hfee]
  unfold feeOf Lib.Fees.fee
  rw [← hshare]
  simp only [BitVec.lt_def]
  split <;> split <;> omega

theorem fee_le_of_quoteFee (h : quoteFee s token amount = .ok fee) : fee.toNat ≤ amount.toNat := by
  rw [toNat_of_quoteFee h]
  exact Lib.Fees.fee_le ..

/-! ## The transfers of a sweep -/

-- A transfer of nothing is not made.
def leg (x : Transfer Address Address) : List (Transfer Address Address) :=
  if x.amount = 0 then [] else [x]

theorem mem_leg {x y : Transfer Address Address} (h : y ∈ leg x) : y = x := by
  unfold leg at h
  split at h
  · cases h
  · exact List.mem_singleton.mp h

theorem sum_leg (x : Transfer Address Address) : ((leg x).map Transfer.amount).sum = x.amount := by
  unfold leg
  split
  · rename_i hzero
    exact hzero.symm
  · exact Nat.add_zero _

-- What a successful sweep transfers, the last transfer first.
def payouts (env : Env) (s : State) (call : SweepCall) : List (Transfer Address Address) :=
  leg ⟨call.token, getInvoiceAddress env call.to_ call.invoiceId, call.to_,
    call.amount.toNat - feeOf s call.token call.amount.toNat⟩ ++
  leg ⟨call.token, getInvoiceAddress env call.to_ call.invoiceId, s.feeRecipient,
    feeOf s call.token call.amount.toNat⟩

theorem sum_payouts (env : Env) (s : State) (call : SweepCall) :
    ((payouts env s call).map Transfer.amount).sum = call.amount.toNat := by
  have hle : feeOf s call.token call.amount.toNat ≤ call.amount.toNat := Lib.Fees.fee_le ..
  rw [payouts, List.map_append, List.sum_append, sum_leg, sum_leg]
  exact Nat.sub_add_cancel hle

theorem mem_payouts {x : Transfer Address Address} {call : SweepCall}
    (h : x ∈ payouts env s call) : x.src = getInvoiceAddress env call.to_ call.invoiceId ∧
      (x.dst = call.to_ ∨ x.dst = s.feeRecipient) := by
  rcases List.mem_append.mp h with hmerchant | hfee
  · rw [mem_leg hmerchant]
    exact ⟨rfl, .inl rfl⟩
  · rw [mem_leg hfee]
    exact ⟨rfl, .inr rfl⟩

-- Sweeps move balances and deploy forwarders, and that is all they do.
structure SweepEffect (s : State) (log : List (Transfer Address Address)) (s' : State) : Prop where
  moves : Moves s.ledger log s'.ledger
  allowance : s'.ledger.allowance = s.ledger.allowance
  feeRecipient : s'.feeRecipient = s.feeRecipient
  feeBps : s'.feeBps = s.feeBps
  minFeeByToken : s'.minFeeByToken = s.minFeeByToken

theorem SweepEffect.refl (s : State) : SweepEffect s [] s := ⟨.refl _, rfl, rfl, rfl, rfl⟩

theorem SweepEffect.trans {s'' : State} {log log' : List (Transfer Address Address)}
    (h : SweepEffect s log s') (h' : SweepEffect s' log' s'') : SweepEffect s (log' ++ log) s'' where
  moves := h.moves.trans h'.moves
  allowance := h'.allowance.trans h.allowance
  feeRecipient := h'.feeRecipient.trans h.feeRecipient
  feeBps := h'.feeBps.trans h.feeBps
  minFeeByToken := h'.minFeeByToken.trans h.minFeeByToken

theorem SweepEffect.feeOf_eq {log : List (Transfer Address Address)} (h : SweepEffect s log s') :
    feeOf s' = feeOf s := by
  funext token amount
  simp only [feeOf, h.feeBps, h.minFeeByToken]

theorem SweepEffect.payouts_eq {log : List (Transfer Address Address)} (h : SweepEffect s log s') :
    payouts env s' = payouts env s := by
  funext call
  simp only [payouts, h.feeOf_eq, h.feeRecipient]

theorem moved_of_sweepEth (h : CommerceForwarder.sweepEth env s forwarder sender to_ amount =
    .ok (fee, s')) :
    sender = env.sweeper ∧ SweepEffect s [⟨0, forwarder, to_, amount.toNat⟩] s' := by
  simp only [CommerceForwarder.sweepEth, bind_eq_ok, revertIf_eq_ok, orRevert_eq_ok, pure_eq_ok,
    exists_const, Prod.mk.injEq, bne_eq_false_iff_eq] at h
  rcases h with ⟨-, hsender, -, -, -, l, hl, -, rfl⟩
  refine ⟨hsender, .transfer hl, ?_, rfl, rfl, rfl⟩
  rw [← (transfer_eq_some.mp hl).2]
  rfl

theorem moved_of_sweepToken
    (h : CommerceForwarder.sweepToken env s forwarder sender token to_ amount = .ok (fee, s')) :
    sender = env.sweeper ∧ SweepEffect s [⟨token, forwarder, to_, amount.toNat⟩] s' := by
  simp only [CommerceForwarder.sweepToken, bind_eq_ok, revertIf_eq_ok, orRevert_eq_ok, pure_eq_ok,
    exists_const, Prod.mk.injEq, bne_eq_false_iff_eq] at h
  rcases h with ⟨-, hsender, -, _, -, -, l, hl, -, rfl⟩
  refine ⟨hsender, .transfer hl, ?_, rfl, rfl, rfl⟩
  rw [← (transfer_eq_some.mp hl).2]
  rfl

theorem effect_of_pay (h : pay env s forwarder token to_ amount = .ok s') :
    SweepEffect s (leg ⟨token, forwarder, to_, amount.toNat⟩) s' := by
  unfold pay at h
  unfold leg
  have hzero : amount = 0 ↔ amount.toNat = 0 := by
    rw [BitVec.toNat_eq]
    rfl
  by_cases hamount : amount = 0
  · rw [if_pos hamount, pure_eq_ok] at h
    rw [if_pos (hzero.mp hamount), h]
    exact .refl s'
  · rw [if_neg hamount] at h
    rw [if_neg (fun hnat => hamount (hzero.mpr hnat))]
    by_cases htoken : token = 0
    · simp only [if_pos htoken, bind_eq_ok, pure_eq_ok] at h
      rcases h with ⟨⟨_, _⟩, hsweep, rfl⟩
      rw [htoken]
      exact (moved_of_sweepEth hsweep).2
    · simp only [if_neg htoken, bind_eq_ok, pure_eq_ok] at h
      rcases h with ⟨⟨_, _⟩, hsweep, rfl⟩
      exact (moved_of_sweepToken hsweep).2

theorem effect_of_createInvoice (h : createInvoice env s to_ invoiceId = .ok (forwarder, s')) :
    forwarder = getInvoiceAddress env to_ invoiceId ∧ SweepEffect s [] s' := by
  simp only [createInvoice, bind_eq_ok, pure_eq_ok, Prod.mk.injEq] at h
  rcases h with ⟨_, -, rfl, rfl⟩
  split
  · exact ⟨rfl, .refl s⟩
  · exact ⟨rfl, .refl _, rfl, rfl, rfl, rfl⟩

/-- A sweep pays the fee and the merchant from the forwarder of the invoice. -/
theorem effect_of_sweep (h : sweep env s token amount to_ invoiceId = .ok (forwarder, fee, s')) :
    fee.toNat = feeOf s token amount.toNat ∧
      SweepEffect s (payouts env s ⟨token, amount, to_, invoiceId⟩) s' := by
  simp only [sweep, bind_eq_ok, pure_eq_ok, Prod.mk.injEq] at h
  rcases h with ⟨_, -, _, -, quote, hquote, _, -, ⟨created, s₁⟩, hcreate, toMerchant, hsub, s₂, hfee,
    s₃, hmerchant, rfl, rfl, rfl⟩
  rcases effect_of_createInvoice hcreate with ⟨rfl, hcreated⟩
  have hpaid := (hcreated.trans (effect_of_pay hfee)).trans (effect_of_pay hmerchant)
  rw [(toNat_of_checkedSub hsub).2, toNat_of_quoteFee hquote, hcreated.feeRecipient,
    List.append_nil] at hpaid
  exact ⟨toNat_of_quoteFee hquote, hpaid⟩

-- The transfers of a batch, the last sweep first.
def batchPayouts (env : Env) (s : State) (calls : List SweepCall) : List (Transfer Address Address) :=
  (calls.reverse.map (payouts env s)).flatten

theorem batchPayouts_cons (env : Env) (s : State) (call : SweepCall) (calls : List SweepCall) :
    batchPayouts env s (call :: calls) = batchPayouts env s calls ++ payouts env s call := by
  simp [batchPayouts]

theorem effect_of_bulkSweep {calls : List SweepCall} {fees fees' : List Uint256}
    (h : calls.foldlM (fun (fees, s) call => do
      let (_, fee, s) ← sweep env s call.token call.amount call.to_ call.invoiceId
      return (fees ++ [fee], s)) (fees, s) = .ok (fees', s')) :
    SweepEffect s (batchPayouts env s calls) s' := by
  induction calls generalizing fees s with
  | nil =>
    simp only [List.foldlM_nil, pure_eq_ok, Prod.mk.injEq] at h
    rw [← h.2]
    exact .refl s
  | cons call calls ih =>
    simp only [List.foldlM_cons, bind_eq_ok, pure_eq_ok] at h
    rcases h with ⟨_, ⟨⟨forwarder, fee, s₁⟩, hsweep, rfl⟩, hrest⟩
    have hfirst := (effect_of_sweep hsweep).2
    have hrest := ih hrest
    rw [batchPayouts, hfirst.payouts_eq, ← batchPayouts] at hrest
    rw [batchPayouts_cons]
    exact hfirst.trans hrest

/-! ## The effects of a transaction -/

def Call.sweeps : Call → Option (List SweepCall)
  | .sweep token amount to_ invoiceId => some [⟨token, amount, to_, invoiceId⟩]
  | .bulkSweep calls => some calls
  | _ => none

def Call.setsFees : Call → Bool
  | .setFeeRecipient _ | .setFeeBps _ | .setMinFee _ _ => true
  | _ => false

-- The calls of somebody who moves what is theirs.
def Call.isPlain : Call → Bool
  | .send _ _ | .transfer _ _ _ | .approve _ _ _ => true
  | _ => false

-- The calls of the forwarders themselves.
def Call.isForwarded : Call → Bool
  | .forwarderSweepEth _ _ _ | .forwarderSweepToken _ _ _ _ => true
  | _ => false

-- The fee configurations the contract accepts.
structure Configured (s : State) : Prop where
  feeRecipient : s.feeRecipient ≠ 0
  feeBps : s.feeBps ≤ MAX_FEE_BPS

/-- Everything a successful transaction can be. -/
inductive Changes (env : Env) (s : State) (tx : Tx Call) : State → Prop
  | created (s' : State) (hnone : tx.call.sweeps = none) (heffect : SweepEffect s [] s') :
    Changes env s tx s'
  | swept (s' : State) (calls : List SweepCall) (hcalls : tx.call.sweeps = some calls)
    (heffect : SweepEffect s (batchPayouts env s calls) s') : Changes env s tx s'
  | configured (feeRecipient : Address) (feeBps : Uint16) (minFeeByToken : Address → Uint256)
    (hnone : tx.call.sweeps = none) (hsets : tx.call.setsFees = true) (howner : tx.sender = s.owner)
    (hrecipient : feeRecipient = s.feeRecipient ∨ feeRecipient ≠ 0)
    (hbps : feeBps = s.feeBps ∨ feeBps ≤ MAX_FEE_BPS) : Changes env s tx { s with
      feeRecipient := feeRecipient, feeBps := feeBps, minFeeByToken := minFeeByToken }
  | owned (owner : Address) (hnone : tx.call.sweeps = none) (howner : tx.sender = s.owner) :
    Changes env s tx { s with owner := owner }
  | forwarded (s' : State) (x : Transfer Address Address) (hnone : tx.call.sweeps = none)
    (hforwarded : tx.call.isForwarded = true) (hsender : tx.sender = env.sweeper)
    (heffect : SweepEffect s [x] s') : Changes env s tx s'
  | sent (l : Ledger Address Address) (x : Transfer Address Address)
    (hnone : tx.call.sweeps = none) (hplain : tx.call.isPlain = true) (hsrc : x.src = tx.sender)
    (hl : Lib.Tokens.transfer s.ledger x = some l) : Changes env s tx { s with ledger := l }
  | approved (token spender : Address) (amount : Nat) (hnone : tx.call.sweeps = none)
    (hplain : tx.call.isPlain = true) :
    Changes env s tx { s with
      ledger := Lib.Tokens.approve s.ledger token tx.sender spender amount }
  | pulled (l : Ledger Address Address) (x : Transfer Address Address)
    (hnone : tx.call.sweeps = none)
    (hl : Lib.Tokens.transferFrom (2 ^ 256 - 1) s.ledger tx.sender x = some l) :
    Changes env s tx { s with ledger := l }

theorem onlyOwner_eq_ok {u : Unit} : onlyOwner s sender = .ok u ↔ sender = s.owner := by
  unfold onlyOwner
  rw [revertIf_eq_ok, bne_eq_false_iff_eq]

theorem step_changes (h : step env s tx = .ok s') : Changes env s tx s' := by
  unfold step at h
  cases hcall : tx.call with
  | createInvoice to_ invoiceId =>
    simp only [hcall, bind_eq_ok, pure_eq_ok] at h
    rcases h with ⟨⟨_, _⟩, hcreate, rfl⟩
    exact .created _ (by rw [hcall]; rfl) (effect_of_createInvoice hcreate).2
  | sweep token amount to_ invoiceId =>
    simp only [hcall, bind_eq_ok, pure_eq_ok] at h
    rcases h with ⟨⟨_, _, _⟩, hsweep, rfl⟩
    have hbatch : batchPayouts env s [⟨token, amount, to_, invoiceId⟩] =
        payouts env s ⟨token, amount, to_, invoiceId⟩ := by
      rw [batchPayouts_cons]
      rfl
    exact .swept _ [⟨token, amount, to_, invoiceId⟩] (by rw [hcall]; rfl)
      (hbatch ▸ (effect_of_sweep hsweep).2)
  | bulkSweep calls =>
    simp only [hcall, bind_eq_ok, pure_eq_ok] at h
    rcases h with ⟨⟨_, _⟩, hbulk, rfl⟩
    exact .swept _ calls (by rw [hcall]; rfl) (effect_of_bulkSweep hbulk)
  | setFeeRecipient feeRecipient =>
    simp only [hcall, setFeeRecipient, bind_eq_ok, onlyOwner_eq_ok, revertIf_eq_ok, pure_eq_ok,
      beq_eq_false_iff_ne] at h
    rcases h with ⟨_, howner, _, hnonzero, rfl⟩
    exact .configured feeRecipient s.feeBps s.minFeeByToken (by rw [hcall]; rfl)
      (by rw [hcall]; rfl) howner (.inr hnonzero) (.inl rfl)
  | setFeeBps feeBps =>
    simp only [hcall, setFeeBps, bind_eq_ok, onlyOwner_eq_ok, revertIf_eq_ok, pure_eq_ok,
      decide_eq_false_iff_not] at h
    rcases h with ⟨_, howner, _, hbound, rfl⟩
    exact .configured s.feeRecipient feeBps s.minFeeByToken (by rw [hcall]; rfl)
      (by rw [hcall]; rfl) howner (.inl rfl) (.inr (BitVec.not_lt.mp hbound))
  | setMinFee token minFee =>
    simp only [hcall, setMinFee, bind_eq_ok, onlyOwner_eq_ok, pure_eq_ok] at h
    rcases h with ⟨_, howner, rfl⟩
    exact .configured s.feeRecipient s.feeBps (update s.minFeeByToken token minFee)
      (by rw [hcall]; rfl) (by rw [hcall]; rfl) howner (.inl rfl) (.inl rfl)
  | transferOwnership newOwner =>
    simp only [hcall, transferOwnership, bind_eq_ok, onlyOwner_eq_ok, pure_eq_ok] at h
    rcases h with ⟨_, howner, _, -, rfl⟩
    exact .owned newOwner (by rw [hcall]; rfl) howner
  | renounceOwnership =>
    simp only [hcall, renounceOwnership, bind_eq_ok, onlyOwner_eq_ok, pure_eq_ok] at h
    rcases h with ⟨_, howner, rfl⟩
    exact .owned 0 (by rw [hcall]; rfl) howner
  | forwarderSweepEth forwarder to_ amount =>
    simp only [hcall, bind_eq_ok, pure_eq_ok] at h
    rcases h with ⟨⟨_, _⟩, hsweep, rfl⟩
    rcases moved_of_sweepEth hsweep with ⟨hsender, heffect⟩
    exact .forwarded _ _ (by rw [hcall]; rfl) (by rw [hcall]; rfl) hsender heffect
  | forwarderSweepToken forwarder token to_ amount =>
    simp only [hcall, bind_eq_ok, pure_eq_ok] at h
    rcases h with ⟨⟨_, _⟩, hsweep, rfl⟩
    rcases moved_of_sweepToken hsweep with ⟨hsender, heffect⟩
    exact .forwarded _ _ (by rw [hcall]; rfl) (by rw [hcall]; rfl) hsender heffect
  | send dst value =>
    simp only [hcall, send, bind_eq_ok, orRevert_eq_ok, pure_eq_ok] at h
    rcases h with ⟨_, -, l, hl, rfl⟩
    exact .sent l _ (by rw [hcall]; rfl) (by rw [hcall]; rfl) rfl hl
  | transfer token dst amount =>
    simp only [hcall, transfer, bind_eq_ok, orRevert_eq_ok, pure_eq_ok] at h
    rcases h with ⟨_, -, l, hl, rfl⟩
    exact .sent l _ (by rw [hcall]; rfl) (by rw [hcall]; rfl) rfl hl
  | approve token spender amount =>
    simp only [hcall, approve, bind_eq_ok, pure_eq_ok] at h
    rcases h with ⟨_, -, rfl⟩
    exact .approved token spender amount (by rw [hcall]; rfl) (by rw [hcall]; rfl)
  | transferFrom token src dst amount =>
    simp only [hcall, transferFrom, bind_eq_ok, orRevert_eq_ok, pure_eq_ok] at h
    rcases h with ⟨_, -, l, hl, rfl⟩
    exact .pulled l _ (by rw [hcall]; rfl) hl

theorem configured_of_deploy {ledger : Ledger Address Address} {code : Address → Bool}
    {feeRecipient initialOwner : Address} {feeBps : Uint16}
    (h : deploy ledger code feeRecipient feeBps initialOwner = .ok s) : Configured s := by
  simp only [deploy, bind_eq_ok, revertIf_eq_ok, pure_eq_ok, beq_eq_false_iff_ne,
    decide_eq_false_iff_not] at h
  rcases h with ⟨_, -, _, hnonzero, _, hbound, rfl⟩
  exact ⟨hnonzero, BitVec.not_lt.mp hbound⟩

theorem SweepEffect.configured {log : List (Transfer Address Address)} (h : SweepEffect s log s')
    (hs : Configured s) : Configured s' where
  feeRecipient := h.feeRecipient ▸ hs.feeRecipient
  feeBps := h.feeBps ▸ hs.feeBps

theorem configured_of_changes (h : Changes env s tx s') (hs : Configured s) : Configured s' := by
  cases h with
  | created _ _ heffect => exact heffect.configured hs
  | swept _ _ _ heffect => exact heffect.configured hs
  | configured feeRecipient feeBps _ _ _ _ hrecipient hbps =>
    constructor
    · show feeRecipient ≠ 0
      rcases hrecipient with rfl | hnonzero
      · exact hs.feeRecipient
      · exact hnonzero
    · show feeBps ≤ MAX_FEE_BPS
      rcases hbps with rfl | hbound
      · exact hs.feeBps
      · exact hbound
  | owned _ _ _ => exact ⟨hs.feeRecipient, hs.feeBps⟩
  | forwarded _ _ _ _ _ heffect => exact heffect.configured hs
  | sent _ _ _ _ _ _ => exact ⟨hs.feeRecipient, hs.feeBps⟩
  | approved _ _ _ _ _ => exact ⟨hs.feeRecipient, hs.feeBps⟩
  | pulled _ _ _ _ => exact ⟨hs.feeRecipient, hs.feeBps⟩

-- The log of the ledger only grows.
theorem grows_of_changes (h : Changes env s tx s') :
    ∃ log, s'.ledger.transfers = log ++ s.ledger.transfers := by
  cases h with
  | created _ _ heffect => exact ⟨_, heffect.moves.transfers⟩
  | swept _ _ _ heffect => exact ⟨_, heffect.moves.transfers⟩
  | configured _ _ _ _ _ _ _ _ => exact ⟨[], rfl⟩
  | owned _ _ _ => exact ⟨[], rfl⟩
  | forwarded _ _ _ _ _ heffect => exact ⟨_, heffect.moves.transfers⟩
  | sent _ _ _ _ _ hl => exact ⟨_, (Moves.transfer hl).transfers⟩
  | approved _ _ _ _ _ => exact ⟨[], rfl⟩
  | pulled _ _ _ hl => exact ⟨_, (Moves.transferFrom hl).transfers⟩

theorem feeOf_of_changes (h : Changes env s tx s') (hfixed : tx.call.setsFees = false) :
    feeOf s' = feeOf s := by
  cases h with
  | created _ _ heffect => exact heffect.feeOf_eq
  | swept _ _ _ heffect => exact heffect.feeOf_eq
  | configured _ _ _ _ hsets _ _ _ =>
    rw [hfixed] at hsets
    cases hsets
  | owned _ _ _ => rfl
  | forwarded _ _ _ _ _ heffect => exact heffect.feeOf_eq
  | sent _ _ _ _ _ _ => rfl
  | approved _ _ _ _ _ => rfl
  | pulled _ _ _ _ => rfl

end OnchainInvoice.CommerceInvoiceSweeper
