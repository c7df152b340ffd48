import OnchainInvoice.Commerce.Effects
import OnchainInvoice.Lib.Runs

/-!
# Where the value of an invoice goes

The address of an invoice is derived from its merchant, so a sweep that empties it pays that merchant
and the fee recipient, and nothing else can touch it.
-/

namespace OnchainInvoice.CommerceInvoiceSweeper

open Evm Lib.Revert Lib.Runs Lib.Tokens Function

variable {env : Env} {s s' : State} {tx : Tx Call} {account to_ : Address} {invoiceId : Bytes32}

/-! ## Invoice addresses -/

theorem packed_injective {a b : Address} {x y : Bytes32}
    (h : addressBytes a ++ wordBytes x = addressBytes b ++ wordBytes y) : a = b ∧ x = y := by
  rcases List.append_inj h (by rw [length_addressBytes, length_addressBytes]) with ⟨hto, hid⟩
  exact ⟨addressBytes_injective hto, wordBytes_injective hid⟩

-- Neither the hash of the salts nor `CREATE2` maps two of these invoices to one value.
structure NoCollisions (env : Env) (invoices : List (Address × Bytes32)) : Prop where
  salts : env.crypto.CollisionFree
    (invoices.map fun invoice => addressBytes invoice.1 ++ wordBytes invoice.2)
  addresses : ∀ i ∈ invoices, ∀ j ∈ invoices,
    getInvoiceAddress env i.1 i.2 = getInvoiceAddress env j.1 j.2 →
    invoiceSalt env i.1 i.2 = invoiceSalt env j.1 j.2

theorem noCollisions_iff {invoices : List (Address × Bytes32)} : NoCollisions env invoices ↔
    env.crypto.CollisionFree
      (invoices.map fun invoice => addressBytes invoice.1 ++ wordBytes invoice.2) ∧
    invoices.all (fun i => invoices.all fun j => decide
      (getInvoiceAddress env i.1 i.2 = getInvoiceAddress env j.1 j.2 →
        invoiceSalt env i.1 i.2 = invoiceSalt env j.1 j.2)) = true := by
  simp only [List.all_eq_true, decide_eq_true_eq]
  apply Iff.intro
  · intro h
    exact ⟨h.salts, h.addresses⟩
  · intro h
    exact ⟨h.1, h.2⟩

-- A check over the list: the types of addresses and ids are far too large to be searched.
instance (env : Env) (invoices : List (Address × Bytes32)) : Decidable (NoCollisions env invoices) :=
  decidable_of_iff _ noCollisions_iff.symm

theorem NoCollisions.injective {invoices : List (Address × Bytes32)} (h : NoCollisions env invoices)
    {i j : Address × Bytes32} (hi : i ∈ invoices) (hj : j ∈ invoices)
    (haddress : getInvoiceAddress env i.1 i.2 = getInvoiceAddress env j.1 j.2) : i = j := by
  have hsalt := h.addresses i hi j hj haddress
  have hpacked := h.salts _ (List.mem_map_of_mem hi) _ (List.mem_map_of_mem hj) hsalt
  rcases packed_injective hpacked with ⟨hto, hid⟩
  exact Prod.ext hto hid

-- The invoices that the sweeps of a run name.
def named (txs : List (Tx Call)) : List (Address × Bytes32) :=
  txs.flatMap fun tx => (tx.call.sweeps.getD []).map fun call => (call.to_, call.invoiceId)

/-! ## What a step can take from an account -/

-- A forwarder sends nothing on its own, and the sweeper calls forwarders in a sweep only.
structure Possible (env : Env) (account : Address) (tx : Tx Call) : Prop where
  plain : tx.call.isPlain = true → tx.sender ≠ account
  forwarded : tx.call.isForwarded = true → tx.sender ≠ env.sweeper

def Unapproved (s : State) (account : Address) : Prop :=
  ∀ token spender, s.ledger.allowance token account spender = 0

theorem SweepEffect.unapproved {log : List (Transfer Address Address)} (h : SweepEffect s log s')
    (hs : Unapproved s account) : Unapproved s' account := by
  intro token spender
  rw [h.allowance]
  exact hs token spender

theorem unapproved_of_changes (h : Changes env s tx s') (hpossible : Possible env account tx)
    (hs : Unapproved s account) : Unapproved s' account := by
  cases h with
  | created _ _ heffect => exact heffect.unapproved hs
  | swept _ _ _ heffect => exact heffect.unapproved hs
  | configured _ _ _ _ _ _ _ _ => exact hs
  | owned _ _ _ => exact hs
  | forwarded _ _ _ _ _ heffect => exact heffect.unapproved hs
  | sent l _ _ _ _ hl =>
    intro token spender
    show l.allowance token account spender = 0
    rw [← (transfer_eq_some.mp hl).2]
    exact hs token spender
  | approved token spender amount _ hplain =>
    intro t p
    show (if t = token ∧ account = tx.sender ∧ p = spender then amount else _) = 0
    rw [if_neg (fun hsame => hpossible.plain hplain hsame.2.1.symm)]
    exact hs t p
  | pulled l x _ hl =>
    intro token spender
    show l.allowance token account spender = 0
    rw [← (transferFrom_eq_some.mp hl).2.2]
    show (spend (2 ^ 256 - 1) s.ledger tx.sender x).allowance token account spender = 0
    unfold spend
    dsimp only
    split
    · exact hs token spender
    · show (if token = x.token ∧ account = x.src ∧ spender = tx.sender then _ else _) = 0
      split
      · rename_i hsame
        rw [← hsame.1, ← hsame.2.1, hs]
        exact Nat.zero_sub _
      · exact hs token spender

-- Value leaves the account for these two only.
def LeavesOnlyTo (s s' : State) (account to_ feeRecipient : Address) : Prop :=
  ∃ log, Moves s.ledger log s'.ledger ∧
    ∀ x ∈ log, x.src = account → 0 < x.amount → x.dst = to_ ∨ x.dst = feeRecipient

theorem leavesOnlyTo_of_same {feeRecipient : Address} (s : State) {s' : State}
    (h : Moves s.ledger [] s'.ledger) : LeavesOnlyTo s s' account to_ feeRecipient :=
  ⟨[], h, fun _ hx => absurd hx List.not_mem_nil⟩

theorem leavesOnlyTo_of_other {feeRecipient : Address} {x : Transfer Address Address}
    (h : Moves s.ledger [x] s'.ledger) (hother : x.src = account → x.amount = 0) :
    LeavesOnlyTo s s' account to_ feeRecipient := by
  refine ⟨[x], h, fun y hy hsrc hpos => ?_⟩
  rw [List.mem_singleton.mp hy] at hsrc hpos
  exact absurd (hother hsrc) (Nat.ne_of_gt hpos)

theorem leavesOnlyTo_of_changes (h : Changes env s tx s') (hpossible : Possible env account tx)
    (hs : Unapproved s account)
    (hbinds : ∀ calls, tx.call.sweeps = some calls → ∀ call ∈ calls,
      getInvoiceAddress env call.to_ call.invoiceId = account → call.to_ = to_) :
    LeavesOnlyTo s s' account to_ s.feeRecipient := by
  cases h with
  | created _ _ heffect => exact leavesOnlyTo_of_same s heffect.moves
  | swept _ calls hcalls heffect =>
    refine ⟨_, heffect.moves, fun x hx hsrc _ => ?_⟩
    rcases List.mem_flatten.mp hx with ⟨log, hlog, hx⟩
    rcases List.mem_map.mp hlog with ⟨call, hcall, rfl⟩
    rcases mem_payouts hx with ⟨hfrom, hdst⟩
    rw [hbinds calls hcalls call (List.mem_reverse.mp hcall) (hfrom.symm.trans hsrc)] at hdst
    exact hdst
  | configured _ _ _ _ _ _ _ _ => exact leavesOnlyTo_of_same s (.refl _)
  | owned _ _ _ => exact leavesOnlyTo_of_same s (.refl _)
  | forwarded _ _ _ hforwarded hsender _ => exact absurd hsender (hpossible.forwarded hforwarded)
  | sent l x _ hplain hsrc hl =>
    refine leavesOnlyTo_of_other (.transfer hl) (fun haccount => ?_)
    exact absurd (hsrc.symm.trans haccount) (hpossible.plain hplain)
  | approved token spender amount _ _ =>
    exact leavesOnlyTo_of_same s ⟨rfl, fun _ _ => rfl⟩
  | pulled l x _ hl =>
    refine leavesOnlyTo_of_other (.transferFrom hl) (fun haccount => ?_)
    have hallowed := (transferFrom_eq_some.mp hl).1
    rw [haccount, hs] at hallowed
    exact Nat.le_zero.mp hallowed

/-! ## The clamp -/

theorem quoteFee_ne_feeExceedsAmount {token : Address} {amount : Uint256} :
    quoteFee s token amount ≠ .error .feeExceedsAmount := by
  unfold quoteFee checkedMul
  split
  · exact bind_ne_error (by simp) (fun _ _ => pure_ne_error)
  · exact bind_ne_error (by simp) (fun _ _ => pure_ne_error)

theorem forwarder_sweepEth_ne_feeExceedsAmount {forwarder sender : Address} {amount : Uint256} :
    CommerceForwarder.sweepEth env s forwarder sender to_ amount ≠ .error .feeExceedsAmount := by
  simp [CommerceForwarder.sweepEth, bind_eq_error, map_eq_error, revertIf_eq_error,
    orRevert_eq_error]

theorem forwarder_sweepToken_ne_feeExceedsAmount {forwarder sender token : Address}
    {amount : Uint256} : CommerceForwarder.sweepToken env s forwarder sender token to_ amount ≠
      .error .feeExceedsAmount := by
  simp [CommerceForwarder.sweepToken, CommerceForwarder.erc20, bind_eq_error, map_eq_error,
    revertIf_eq_error, orRevert_eq_error]

theorem pay_ne_feeExceedsAmount {forwarder token : Address} {amount : Uint256} :
    pay env s forwarder token to_ amount ≠ .error .feeExceedsAmount := by
  unfold pay
  split
  · exact pure_ne_error
  · split
    · exact bind_ne_error forwarder_sweepEth_ne_feeExceedsAmount (fun _ _ => pure_ne_error)
    · exact bind_ne_error forwarder_sweepToken_ne_feeExceedsAmount (fun _ _ => pure_ne_error)

/-- The quote is clamped to the amount, so the check after it always passes. -/
theorem sweep_ne_feeExceedsAmount {token : Address} {amount : Uint256} :
    sweep env s token amount to_ invoiceId ≠ .error .feeExceedsAmount := by
  unfold sweep
  refine bind_ne_error (by simp [revertIf_eq_error]) (fun _ _ => ?_)
  refine bind_ne_error (by simp [revertIf_eq_error]) (fun _ _ => ?_)
  refine bind_ne_error quoteFee_ne_feeExceedsAmount (fun fee hquote => ?_)
  have hle := fee_le_of_quoteFee hquote
  have hclamped : decide (amount < fee) = false := by
    rw [decide_eq_false_iff_not, BitVec.lt_def]
    omega
  refine bind_ne_error (by simp [revertIf_eq_error, hclamped]) (fun _ _ => ?_)
  refine bind_ne_error (by simp [createInvoice, map_eq_error, revertIf_eq_error]) (fun _ _ => ?_)
  refine bind_ne_error (by simp [checkedSub, hle]) (fun _ _ => ?_)
  refine bind_ne_error pay_ne_feeExceedsAmount (fun _ _ => ?_)
  exact bind_ne_error pay_ne_feeExceedsAmount (fun _ _ => pure_ne_error)

theorem step_ne_feeExceedsAmount : step env s tx ≠ .error .feeExceedsAmount := by
  unfold step
  cases tx.call with
  | sweep token amount to_ invoiceId =>
    exact bind_ne_error sweep_ne_feeExceedsAmount (fun _ _ => pure_ne_error)
  | bulkSweep calls =>
    refine bind_ne_error (foldlM_ne_error (fun _ _ => ?_) calls ([], s)) (fun _ _ => pure_ne_error)
    exact bind_ne_error sweep_ne_feeExceedsAmount (fun _ _ => pure_ne_error)
  | forwarderSweepEth forwarder to_ amount =>
    exact bind_ne_error forwarder_sweepEth_ne_feeExceedsAmount (fun _ _ => pure_ne_error)
  | forwarderSweepToken forwarder token to_ amount =>
    exact bind_ne_error forwarder_sweepToken_ne_feeExceedsAmount (fun _ _ => pure_ne_error)
  | _ =>
    simp [createInvoice, setFeeRecipient, setFeeBps, setMinFee, transferOwnership,
      renounceOwnership, onlyOwner, send, transfer, approve, transferFrom, CommerceForwarder.erc20,
      bind_eq_error, map_eq_error, revertIf_eq_error, orRevert_eq_error]

/-! ## Runs -/

-- What a transaction does to the value at the address of an invoice, and to all value.
structure Conserves (env : Env) (to_ : Address) (invoiceId : Bytes32) (s : State) (tx : Tx Call) :
    Prop where
  bound : ∀ s', step env s tx = .ok s' →
    LeavesOnlyTo s s' (getInvoiceAddress env to_ invoiceId) to_ s.feeRecipient
  split : ∀ s' calls, step env s tx = .ok s' → tx.call.sweeps = some calls →
    Moves s.ledger (batchPayouts env s calls) s'.ledger ∧
      ∀ call ∈ calls, ((payouts env s call).map Transfer.amount).sum = call.amount.toNat
  clamped : step env s tx ≠ .error .feeExceedsAmount
  reverted : ∀ e, step env s tx = .error e → commit (step env) s tx = s

theorem split_of_changes {calls : List SweepCall} (h : Changes env s tx s')
    (hcalls : tx.call.sweeps = some calls) : SweepEffect s (batchPayouts env s calls) s' := by
  cases h with
  | swept _ calls' hcalls' heffect =>
    rw [hcalls, Option.some.injEq] at hcalls'
    exact hcalls' ▸ heffect
  | created _ hnone _ => cases hcalls.symm.trans hnone
  | configured _ _ _ hnone _ _ _ _ => cases hcalls.symm.trans hnone
  | owned _ hnone _ => cases hcalls.symm.trans hnone
  | forwarded _ _ hnone _ _ _ => cases hcalls.symm.trans hnone
  | sent _ _ hnone _ _ _ => cases hcalls.symm.trans hnone
  | approved _ _ _ hnone _ => cases hcalls.symm.trans hnone
  | pulled _ _ hnone _ => cases hcalls.symm.trans hnone

/-- Along every run, value leaves the address of an invoice only for its merchant and the fee
recipient, each sweep is split as quoted, and what reverts changes nothing. -/
theorem conserved_of_run (env : Env) (s₀ : State) (txs : List (Tx Call)) (to_ : Address)
    (invoiceId : Bytes32) (hdistinct : NoCollisions env ((to_, invoiceId) :: named txs))
    (hpossible : ∀ tx ∈ txs, Possible env (getInvoiceAddress env to_ invoiceId) tx)
    (hunapproved : Unapproved s₀ (getInvoiceAddress env to_ invoiceId)) (pre : List (Tx Call))
    (tx : Tx Call) (post : List (Tx Call)) (htxs : txs = pre ++ tx :: post) :
    Conserves env to_ invoiceId (run (step env) s₀ pre) tx := by
  have hpre : ∀ u ∈ pre, u ∈ txs := fun u hu => htxs ▸ List.mem_append_left _ hu
  have htx : tx ∈ txs := htxs ▸ List.mem_append_right _ (List.mem_cons_self ..)
  have hreached : Unapproved (run (step env) s₀ pre) (getInvoiceAddress env to_ invoiceId) :=
    run_invariant_of_mem (I := fun s : State => Unapproved s (getInvoiceAddress env to_ invoiceId))
      (fun s u s' hu hs hok =>
        unapproved_of_changes (step_changes hok) (hpossible u (hpre u hu)) hs) hunapproved
  -- A sweep of the address names the invoice itself.
  have hbinds : ∀ calls, tx.call.sweeps = some calls → ∀ call ∈ calls,
      getInvoiceAddress env call.to_ call.invoiceId = getInvoiceAddress env to_ invoiceId →
      call.to_ = to_ := by
    intro calls hcalls call hcall haddress
    have hnamed : (call.to_, call.invoiceId) ∈ named txs := by
      refine List.mem_flatMap.mpr ⟨tx, htx, ?_⟩
      rw [hcalls]
      exact List.mem_map_of_mem hcall
    have hsame := hdistinct.injective (List.mem_cons_of_mem _ hnamed) (List.mem_cons_self ..) haddress
    exact congrArg Prod.fst hsame
  exact {
    bound := fun s' hok =>
      leavesOnlyTo_of_changes (step_changes hok) (hpossible tx htx) hreached hbinds
    split := fun s' calls hok hcalls =>
      ⟨(split_of_changes (step_changes hok) hcalls).moves, fun call _ => sum_payouts ..⟩
    clamped := step_ne_feeExceedsAmount
    reverted := fun e herror => commit_of_error herror }

def toyEnv : Env := ⟨Crypto.toy, 0x5EE9, 0xF0, fun token => token == 0x70C, fun _ => true⟩

-- Half a percent, at least 10 wei.
def toyStart : State where
  ledger := ⟨fun token account => if token = 0 ∧ account = 0xA1 then 1000 else 0, fun _ _ _ => 0, []⟩
  code := fun _ => false
  feeRecipient := 0xFEE
  feeBps := 50
  minFeeByToken := update (fun _ => 0) 0 10
  owner := 0x0FE

def payInvoice (to_ : Address) (invoiceId : Bytes32) (amount : Nat) : Tx Call :=
  ⟨0xA1, 100, .send (getInvoiceAddress toyEnv to_ invoiceId) amount⟩

def paidRun : List (Tx Call) := [payInvoice 0xB1 7 500, payInvoice 0xB2 8 300]

-- A stranger sweeps part of one invoice and all of the other.
def sweepBoth : Tx Call := ⟨0xA2, 200, .bulkSweep [⟨0, 400, 0xB1, 7⟩, ⟨0, 300, 0xB2, 8⟩]⟩

theorem conserved_paidRun : Conserves toyEnv 0xB1 7 (run (step toyEnv) toyStart paidRun) sweepBoth := by
  have hdistinct : NoCollisions toyEnv [(0xB1, 7), (0xB1, 7), (0xB2, 8)] := by
    decide +kernel
  have hpayer : (0xA1 : Address) ≠ getInvoiceAddress toyEnv 0xB1 7 := by
    decide +kernel
  refine conserved_of_run toyEnv toyStart (paidRun ++ [sweepBoth]) 0xB1 7 hdistinct
    (fun tx htx => ?_) (fun _ _ => rfl) paidRun sweepBoth [] rfl
  rcases List.mem_append.mp htx with hpaid | hswept
  · have hsender : tx.sender = 0xA1 ∧ tx.call.isForwarded = false := by
      rcases List.mem_cons.mp hpaid with rfl | hpaid
      · exact ⟨rfl, rfl⟩
      · rw [List.mem_singleton.mp hpaid]
        exact ⟨rfl, rfl⟩
    refine ⟨fun _ => hsender.1 ▸ hpayer, fun hforwarded => ?_⟩
    rw [hsender.2] at hforwarded
    cases hforwarded
  · rw [List.mem_singleton.mp hswept]
    exact ⟨fun hplain => (by cases hplain), fun hforwarded => (by cases hforwarded)⟩

example : Succeeds (step toyEnv) (run (step toyEnv) toyStart paidRun) sweepBoth := by
  decide +kernel

end OnchainInvoice.CommerceInvoiceSweeper
