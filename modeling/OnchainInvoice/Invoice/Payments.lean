import OnchainInvoice.Invoice.InvoiceSweeper
import OnchainInvoice.Lib.Runs

/-!
# Payment records

The two entry points of the receiver are open: whoever presents the data of an unpaid invoice and
pays is recorded, and a record is final.  So a payment is attributed to the party that made it, as far
as its token can be trusted, and what arrives at an invoice address can be swept exactly while nothing
is recorded for the invoice.
-/

namespace OnchainInvoice.Invoice

open Evm Receiver Lib.Revert Lib.Runs Lib.Tokens Function

variable {env : Env} {s s' s'' : State} {tx : Tx Call} {invoiceId : Bytes32} {data : Bytes}
  {token sender this : Address} {amount : Nat}

/-! ## The receiver -/

-- What the receiver asks for, whoever calls.
structure Acceptable (env : Env) (s : State) (invoiceId : Bytes32) (token : Address) (amount : Nat)
    (data : Bytes) : Prop where
  hash : env.crypto.keccak256 data = invoiceId
  unpaid : (s.invoicePayments invoiceId).paid = false
  executes : ∃ result, env.executeInvoice invoiceId token amount data = some result

def recorded (s : State) (invoiceId : Bytes32) (payment : InvoicePayment) : State :=
  { s with invoicePayments := update s.invoicePayments invoiceId payment }

theorem handleInvoice_eq_ok : handleInvoice env s invoiceId token sender amount data = .ok s' ↔
    Acceptable env s invoiceId token amount data ∧
      recorded s invoiceId ⟨token, amount, sender, true⟩ = s' := by
  unfold handleInvoice verifyInvoiceData assignPayment
  simp only [bind_eq_ok, revertIf_eq_ok, orRevert_eq_ok, pure_eq_ok, exists_const,
    bne_eq_false_iff_eq]
  apply Iff.intro
  · rintro ⟨hhash, _, ⟨hunpaid, rfl⟩, result, hresult, rfl⟩
    exact ⟨⟨hhash, hunpaid, result, hresult⟩, rfl⟩
  · rintro ⟨⟨hhash, hunpaid, result, hresult⟩, rfl⟩
    exact ⟨hhash, _, ⟨hunpaid, rfl⟩, result, hresult, rfl⟩

theorem receiveEthInvoice_eq_ok :
    receiveEthInvoice env s sender amount invoiceId data = .ok s' ↔
      amount ≤ s.ledger.balanceOf NATIVE_TOKEN sender ∧ 0 < amount ∧
        Acceptable env s invoiceId NATIVE_TOKEN amount data ∧
        recorded { s with ledger := moved s.ledger ⟨NATIVE_TOKEN, sender, env.receiver, amount⟩ }
          invoiceId ⟨NATIVE_TOKEN, amount, sender, true⟩ = s' := by
  unfold receiveEthInvoice
  simp only [bind_eq_ok, revertIf_eq_ok, orRevert_eq_ok, exists_const, transfer_eq_some,
    handleInvoice_eq_ok, beq_eq_false_iff_ne, ← Nat.pos_iff_ne_zero]
  apply Iff.intro
  · rintro ⟨_, ⟨hle, rfl⟩, hpos, hacceptable, hs'⟩
    exact ⟨hle, hpos, ⟨hacceptable.hash, hacceptable.unpaid, hacceptable.executes⟩, hs'⟩
  · rintro ⟨hle, hpos, hacceptable, hs'⟩
    exact ⟨_, ⟨hle, rfl⟩, hpos, ⟨hacceptable.hash, hacceptable.unpaid, hacceptable.executes⟩, hs'⟩

def IsErc20 (env : Env) (token : Address) : Prop := token ≠ NATIVE_TOKEN ∧ env.isToken token = true

theorem isErc20_iff : isErc20 env token = true ↔ IsErc20 env token := by
  unfold isErc20 IsErc20
  rw [Bool.and_eq_true, bne_iff_ne]

theorem balanceOf_of_erc20 (h : IsErc20 env token) (account : Address) :
    balanceOf env s token account = .ok (s.ledger.balanceOf token account, s) :=
  if_pos (isErc20_iff.mpr h)

theorem safeTransferFrom_of_erc20 (h : IsErc20 env token) :
    safeTransferFrom env s token sender amount = .ok s' ↔
      ∃ l, Lib.Tokens.transferFrom MAX_UINT256 s.ledger env.receiver
        ⟨token, sender, env.receiver, amount⟩ = some l ∧ { s with ledger := l } = s' := by
  unfold safeTransferFrom
  rw [if_pos (isErc20_iff.mpr h)]
  simp only [bind_eq_ok, orRevert_eq_ok, pure_eq_ok]

theorem ask_eq_ok : ask s token = .ok (amount, s') ↔
    token ≠ NATIVE_TOKEN ∧ ∃ answers, s.answers = some amount :: answers ∧
      { s with answers := answers } = s' := by
  unfold ask
  simp only [bind_eq_ok, revertIf_eq_ok, exists_const, beq_eq_false_iff_ne]
  apply and_congr_right
  intro _
  split
  · rename_i answer answers hanswers
    rw [hanswers]
    simp only [pure_eq_ok, Prod.mk.injEq]
    apply Iff.intro
    · rintro ⟨rfl, rfl⟩
      exact ⟨answers, rfl, rfl⟩
    · rintro ⟨answers', heq, rfl⟩
      cases heq
      exact ⟨rfl, rfl⟩
  · rename_i hno
    apply Iff.intro
    · intro h
      cases h
    · rintro ⟨answers, hanswers, -⟩
      exact absurd hanswers (hno amount answers)

-- The ledger after the receiver has pulled the tokens.
def pulled (env : Env) (l : Ledger Address Address) (x : Transfer Address Address) :
    Ledger Address Address :=
  moved (spend MAX_UINT256 l env.receiver x) x

/-- The measured amount is the amount asked for, except that the receiver itself cannot pay. -/
theorem balanceOf_pulled (env : Env) {l : Ledger Address Address}
    (hle : amount ≤ l.balanceOf token sender) :
    (pulled env l ⟨token, sender, env.receiver, amount⟩).balanceOf token env.receiver -
      l.balanceOf token env.receiver = if sender = env.receiver then 0 else amount := by
  simp only [pulled, moved, spend_balanceOf, if_true]
  by_cases hself : sender = env.receiver
  · rw [if_pos hself.symm, if_pos hself]
    rw [hself] at hle
    omega
  · rw [if_neg (Ne.symm hself), if_neg hself]
    omega

theorem receiveTokenInvoice_eq_ok (htoken : IsErc20 env token) :
    receiveTokenInvoice env s sender token invoiceId amount data = .ok s' ↔
      0 < amount ∧ sender ≠ env.receiver ∧
        amount ≤ s.ledger.allowance token sender env.receiver ∧
        amount ≤ s.ledger.balanceOf token sender ∧
        Acceptable env s invoiceId token amount data ∧
        recorded { s with ledger := pulled env s.ledger ⟨token, sender, env.receiver, amount⟩ }
          invoiceId ⟨token, amount, sender, true⟩ = s' := by
  unfold receiveTokenInvoice
  simp only [balanceOf_of_erc20 htoken, bind_eq_ok, revertIf_eq_ok, exists_const,
    safeTransferFrom_of_erc20 htoken, transferFrom_eq_some, handleInvoice_eq_ok,
    beq_eq_false_iff_ne, ne_eq, Except.ok.injEq, decide_eq_false_iff_not, not_lt]
  apply Iff.intro
  · rintro ⟨hpos, _, rfl, _, ⟨_, ⟨hallowed, hle, rfl⟩, rfl⟩, _, rfl, -, hsome, hacceptable, hs'⟩
    have hmeasured := balanceOf_pulled env hle
    unfold pulled at hmeasured
    dsimp only at hsome hacceptable hs'
    rw [hmeasured] at hsome hacceptable hs'
    by_cases hself : sender = env.receiver
    · rw [if_pos hself] at hsome
      exact absurd rfl hsome
    · rw [if_neg hself] at hacceptable hs'
      exact ⟨Nat.pos_of_ne_zero hpos, hself, hallowed, hle,
        ⟨hacceptable.hash, hacceptable.unpaid, hacceptable.executes⟩, hs'⟩
  · rintro ⟨hpos, hself, hallowed, hle, hacceptable, hs'⟩
    have hmeasured := balanceOf_pulled env hle
    unfold pulled at hmeasured
    rw [if_neg hself] at hmeasured
    refine ⟨Nat.ne_of_gt hpos, _, rfl, _, ⟨_, ⟨hallowed, hle, rfl⟩, rfl⟩, _, rfl, ?_, ?_, ?_, ?_⟩
    · dsimp only
      omega
    · rw [hmeasured]
      exact Nat.ne_of_gt hpos
    · rw [hmeasured]
      exact ⟨hacceptable.hash, hacceptable.unpaid, hacceptable.executes⟩
    · rw [hmeasured]
      exact hs'

/-- Another token says itself what has been received of it. -/
theorem receiveTokenInvoice_of_foreign (hforeign : ¬IsErc20 env token)
    (h : receiveTokenInvoice env s sender token invoiceId amount data = .ok s') :
    ∃ before answer held answers,
      s.answers = [some before, some answer, some held] ++ answers ∧ before < held ∧
        token ≠ NATIVE_TOKEN ∧ Acceptable env s invoiceId token (held - before) data ∧
        recorded { s with answers := answers } invoiceId
          ⟨token, held - before, sender, true⟩ = s' := by
  have hno : ¬isErc20 env token = true := fun hyes => hforeign (isErc20_iff.mp hyes)
  unfold receiveTokenInvoice balanceOf safeTransferFrom at h
  simp only [if_neg hno, bind_eq_ok, revertIf_eq_ok, exists_const, handleInvoice_eq_ok,
    pure_eq_ok, beq_eq_false_iff_ne, decide_eq_false_iff_not] at h
  obtain ⟨-, ⟨before, s₁⟩, hbefore, s₂, ⟨⟨answer, _⟩, hanswer, rfl⟩, ⟨held, s₃⟩, hheld, hle, hne,
    hacceptable, rfl⟩ := h
  obtain ⟨htoken, answers₁, hfirst, rfl⟩ := ask_eq_ok.mp hbefore
  obtain ⟨-, answers₂, hsecond, rfl⟩ := ask_eq_ok.mp hanswer
  obtain ⟨-, answers₃, hthird, rfl⟩ := ask_eq_ok.mp hheld
  dsimp only at hsecond hthird hle hne
  refine ⟨before, answer, held, answers₃, ?_, by omega, htoken, ?_, rfl⟩
  · rw [hfirst, hsecond, hthird]
    rfl
  · exact ⟨hacceptable.hash, hacceptable.unpaid, hacceptable.executes⟩

/-! ## The forwarder -/

theorem forwarder_sweepEth_eq_ok :
    Forwarder.sweepEth env s this invoiceId data = .ok (amount, s') ↔ s.code this = true ∧
      amount = s.ledger.balanceOf NATIVE_TOKEN this ∧
      receiveEthInvoice env s this amount invoiceId data = .ok s' := by
  unfold Forwarder.sweepEth
  simp only [bind_eq_ok, revertIf_eq_ok, pure_eq_ok, exists_const, Bool.not_eq_false',
    beq_eq_false_iff_ne, Prod.mk.injEq]
  apply Iff.intro
  · rintro ⟨hcode, hne, _, hok, rfl, rfl⟩
    exact ⟨hcode, rfl, hok⟩
  · rintro ⟨hcode, rfl, hok⟩
    exact ⟨hcode, Nat.ne_of_gt (receiveEthInvoice_eq_ok.mp hok).2.1, s', hok, rfl, rfl⟩

def approved (s : State) (this token spender : Address) (amount : Nat) : State :=
  { s with ledger := Lib.Tokens.approve s.ledger token this spender amount }

theorem forceApprove_of_erc20 (h : IsErc20 env token) (spender : Address) :
    Forwarder.forceApprove env s this token spender amount =
      .ok (approved s this token spender amount) :=
  if_pos (isErc20_iff.mpr h)

theorem forwarder_sweepToken_eq_ok (htoken : IsErc20 env token) :
    Forwarder.sweepToken env s this token invoiceId data = .ok (amount, s') ↔ s.code this = true ∧
      amount = s.ledger.balanceOf token this ∧
      ∃ s₁, receiveTokenInvoice env (approved s this token env.receiver amount) this
        token invoiceId amount data = .ok s₁ ∧ approved s₁ this token env.receiver 0 = s' := by
  unfold Forwarder.sweepToken
  simp only [bind_eq_ok, revertIf_eq_ok, pure_eq_ok, exists_const, Bool.not_eq_false',
    beq_eq_false_iff_ne, Prod.mk.injEq, balanceOf_of_erc20 htoken, forceApprove_of_erc20 htoken,
    Except.ok.injEq]
  apply Iff.intro
  · rintro ⟨hcode, _, rfl, hne, _, rfl, s₁, hok, _, rfl, rfl, rfl⟩
    exact ⟨hcode, rfl, s₁, hok, rfl⟩
  · rintro ⟨hcode, rfl, s₁, hok, rfl⟩
    obtain ⟨hpos, -⟩ := (receiveTokenInvoice_eq_ok htoken).mp hok
    exact ⟨hcode, _, rfl, Nat.ne_of_gt hpos, _, rfl, s₁, hok, _, rfl, rfl, rfl⟩

/-! ## What one call records -/

-- An invoice, its data, and the party that pays it.
structure Presented where
  invoiceId : Bytes32
  payer : Address
  data : Bytes
deriving DecidableEq

-- What a transaction presents to the receiver: a sweep presents the forwarder.
def presented (env : Env) (tx : Tx Call) : List Presented :=
  match tx.call with
  | .sweepEth invoiceId data => [⟨invoiceId, InvoiceSweeper.getInvoiceAddress env invoiceId, data⟩]
  | .sweepToken invoiceId _ data _ =>
    [⟨invoiceId, InvoiceSweeper.getInvoiceAddress env invoiceId, data⟩]
  | .bulkExecute calls _ => calls.map fun call =>
    ⟨call.invoiceId, InvoiceSweeper.getInvoiceAddress env call.invoiceId, call.data⟩
  | .forwarderSweepEth forwarder invoiceId data => [⟨invoiceId, forwarder, data⟩]
  | .forwarderSweepToken forwarder _ invoiceId data _ => [⟨invoiceId, forwarder, data⟩]
  | .receiveEthInvoice _ invoiceId data => [⟨invoiceId, tx.sender, data⟩]
  | .receiveTokenInvoice _ invoiceId _ data _ => [⟨invoiceId, tx.sender, data⟩]
  | _ => []

-- ETH, or a plain ERC-20.
def Sweepable (env : Env) (token : Address) : Prop := token = NATIVE_TOKEN ∨ env.isToken token = true

-- The token has answered that the receiver has the amount more than before it was asked to move it.
def Told (answers : List Answer) (amount : Nat) : Prop :=
  ∃ before answer held, [some before, some answer, some held] <:+: answers ∧ before + amount = held

-- The invoice was unpaid, and its record is that of a payment presented and made, or of one that a
-- token which is no plain ERC-20 has told of.
structure Records (env : Env) (ps : List Presented) (log : List (Transfer Address Address))
    (answers : List Answer) (s s' : State) (invoiceId : Bytes32) (payment : InvoicePayment) :
    Prop where
  unpaid : (s.invoicePayments invoiceId).paid = false
  paid : payment.paid = true
  stored : s'.invoicePayments invoiceId = payment
  presented : ∃ data, ⟨invoiceId, payment.forwarder, data⟩ ∈ ps ∧
    env.crypto.keccak256 data = invoiceId
  moved : Sweepable env payment.token →
    ⟨payment.token, payment.forwarder, env.receiver, payment.amount⟩ ∈ log
  told : ¬Sweepable env payment.token → Told answers payment.amount
  positive : 0 < payment.amount

theorem Records.mono {ps qs : List Presented} {log log' : List (Transfer Address Address)}
    {answers answers' : List Answer} {payment : InvoicePayment}
    (h : Records env ps log answers s s' invoiceId payment) (hps : ps ⊆ qs) (hlog : log ⊆ log')
    (hanswers : answers <:+: answers') :
    Records env qs log' answers' s s' invoiceId payment where
  unpaid := h.unpaid
  paid := h.paid
  stored := h.stored
  presented := by
    obtain ⟨data, hmem, hhash⟩ := h.presented
    exact ⟨data, hps hmem, hhash⟩
  moved := fun hsweepable => hlog (h.moved hsweepable)
  told := by
    intro hforeign
    obtain ⟨before, answer, held, hinfix, hamount⟩ := h.told hforeign
    exact ⟨before, answer, held, hinfix.trans hanswers, hamount⟩
  positive := h.positive

def Pays (env : Env) (ps : List Presented) (s s' : State) : Prop :=
  ∃ log used, s'.ledger.transfers = log ++ s.ledger.transfers ∧ s.answers = used ++ s'.answers ∧
    ∀ invoiceId, s'.invoicePayments invoiceId = s.invoicePayments invoiceId ∨
      Records env ps log used s s' invoiceId (s'.invoicePayments invoiceId)

theorem Pays.of_frame {l : Ledger Address Address} {code : Address → Bool} {owner : Address}
    {answers : List Answer} (log : List (Transfer Address Address)) (used : List Answer)
    (hlog : l.transfers = log ++ s.ledger.transfers) (hanswers : s.answers = used ++ answers)
    (ps : List Presented) : Pays env ps s ⟨l, code, s.invoicePayments, owner, answers⟩ :=
  ⟨log, used, hlog, hanswers, fun _ => .inl rfl⟩

theorem Pays.trans {ps qs : List Presented} (h : Pays env ps s s') (h' : Pays env qs s' s'') :
    Pays env (ps ++ qs) s s'' := by
  obtain ⟨log, used, hlog, hused, hfirst⟩ := h
  obtain ⟨log', used', hlog', hused', hsecond⟩ := h'
  refine ⟨log' ++ log, used ++ used', by rw [hlog', hlog, List.append_assoc],
    by rw [hused, hused', List.append_assoc], fun invoiceId => ?_⟩
  rcases hsecond invoiceId with hsame | hnew
  · rw [hsame]
    rcases hfirst invoiceId with hsame' | hold
    · exact .inl hsame'
    · have hkept : Records env ps log used s s'' invoiceId (s'.invoicePayments invoiceId) :=
        ⟨hold.unpaid, hold.paid, hsame, hold.presented, hold.moved, hold.told, hold.positive⟩
      exact .inr (hkept.mono (List.subset_append_left _ _) (List.subset_append_right _ _)
        (List.prefix_append ..).isInfix)
  · rcases hfirst invoiceId with hsame' | hold
    · have hkept : Records env qs log' used' s s'' invoiceId (s''.invoicePayments invoiceId) :=
        ⟨hsame' ▸ hnew.unpaid, hnew.paid, hnew.stored, hnew.presented, hnew.moved, hnew.told,
          hnew.positive⟩
      exact .inr (hkept.mono (List.subset_append_right _ _) (List.subset_append_left _ _)
        (List.suffix_append ..).isInfix)
    · have hunpaid := hnew.unpaid
      rw [hold.stored, hold.paid] at hunpaid
      cases hunpaid

-- The common part of the two entry points.
theorem Pays.recorded {l : Ledger Address Address} {answers : List Answer}
    (log : List (Transfer Address Address)) (used : List Answer)
    (hlog : l.transfers = log ++ s.ledger.transfers) (hused : s.answers = used ++ answers)
    (hacceptable : Acceptable env s invoiceId token amount data) (hpos : 0 < amount)
    (hmoved : Sweepable env token → ⟨token, sender, env.receiver, amount⟩ ∈ log)
    (htold : ¬Sweepable env token → Told used amount) :
    Pays env [⟨invoiceId, sender, data⟩] s
      (recorded { s with ledger := l, answers := answers } invoiceId
        ⟨token, amount, sender, true⟩) := by
  refine ⟨log, used, hlog, hused, fun x => ?_⟩
  simp only [Invoice.recorded, update_apply]
  by_cases hx : x = invoiceId
  · rw [if_pos hx]
    refine .inr ⟨hx ▸ hacceptable.unpaid, rfl, ?_, ⟨data, ?_, hx ▸ hacceptable.hash⟩, hmoved,
      htold, hpos⟩
    · show update s.invoicePayments invoiceId _ x = _
      rw [hx, update_self]
    · rw [hx]
      exact List.mem_singleton.mpr rfl
  · rw [if_neg hx]
    exact .inl rfl

theorem pays_receiveEthInvoice
    (h : receiveEthInvoice env s sender amount invoiceId data = .ok s') :
    Pays env [⟨invoiceId, sender, data⟩] s s' := by
  obtain ⟨-, hpos, hacceptable, rfl⟩ := receiveEthInvoice_eq_ok.mp h
  exact .recorded [_] [] rfl rfl hacceptable hpos (fun _ => List.mem_singleton_self _)
    fun hforeign => absurd (.inl rfl) hforeign

theorem pays_receiveTokenInvoice
    (h : receiveTokenInvoice env s sender token invoiceId amount data = .ok s') :
    Pays env [⟨invoiceId, sender, data⟩] s s' := by
  by_cases htoken : IsErc20 env token
  · obtain ⟨hpos, -, -, -, hacceptable, rfl⟩ := (receiveTokenInvoice_eq_ok htoken).mp h
    refine .recorded [⟨token, sender, env.receiver, amount⟩] [] ?_ rfl hacceptable hpos
      (fun _ => List.mem_singleton_self _) fun hforeign => absurd (.inr htoken.2) hforeign
    simp only [pulled, Lib.Tokens.moved, spend_transfers]
    rfl
  · obtain ⟨before, answer, held, answers, hused, hless, hnative, hacceptable, rfl⟩ :=
      receiveTokenInvoice_of_foreign htoken h
    refine .recorded [] _ rfl hused hacceptable (by omega) ?_ fun _ =>
      ⟨before, answer, held, List.infix_refl _, by omega⟩
    rintro (rfl | hyes)
    · exact absurd rfl hnative
    · exact absurd ⟨hnative, hyes⟩ htoken

theorem pays_forwarder_sweepEth
    (h : Forwarder.sweepEth env s this invoiceId data = .ok (amount, s')) :
    Pays env [⟨invoiceId, this, data⟩] s s' :=
  pays_receiveEthInvoice (forwarder_sweepEth_eq_ok.mp h).2.2

theorem pays_ask (h : ask s token = .ok (amount, s')) : Pays env [] s s' := by
  obtain ⟨-, answers, hanswers, rfl⟩ := ask_eq_ok.mp h
  exact .of_frame [] [some amount] rfl hanswers []

theorem pays_balanceOf {account : Address} (h : balanceOf env s token account = .ok (amount, s')) :
    Pays env [] s s' := by
  unfold balanceOf at h
  split at h
  · cases h
    exact .of_frame [] [] rfl rfl []
  · exact pays_ask h

theorem pays_forceApprove {spender : Address}
    (h : Forwarder.forceApprove env s this token spender amount = .ok s') : Pays env [] s s' := by
  unfold Forwarder.forceApprove at h
  split at h
  · cases h
    have hlog : (Lib.Tokens.approve s.ledger token this spender amount).transfers =
        [] ++ s.ledger.transfers := rfl
    exact .of_frame [] [] hlog rfl []
  · split at h
    · rename_i answer answers hanswers
      cases h
      exact .of_frame [] [some answer] rfl hanswers []
    · rename_i first second answers hanswers
      cases h
      exact .of_frame [] [none, some first, some second] rfl hanswers []
    · cases h

theorem pays_forwarder_sweepToken
    (h : Forwarder.sweepToken env s this token invoiceId data = .ok (amount, s')) :
    Pays env [⟨invoiceId, this, data⟩] s s' := by
  unfold Forwarder.sweepToken at h
  simp only [bind_eq_ok, revertIf_eq_ok, pure_eq_ok, Prod.mk.injEq] at h
  obtain ⟨_, -, ⟨_, s₁⟩, hread, _, -, s₂, happrove, s₃, hok, s₄, hreset, -, rfl⟩ := h
  exact (pays_balanceOf hread).trans ((pays_forceApprove happrove).trans
    ((pays_receiveTokenInvoice hok).trans (pays_forceApprove hreset)))

theorem pays_createInvoice (ps : List Presented) :
    Pays env ps s (InvoiceSweeper.createInvoice env s invoiceId).2 := by
  unfold InvoiceSweeper.createInvoice
  dsimp only
  split
  · exact .of_frame [] [] rfl rfl ps
  · exact .of_frame [] [] rfl rfl ps

theorem pays_sweepEth {forwarder : Address}
    (h : InvoiceSweeper.sweepEth env s invoiceId data = .ok (forwarder, amount, s')) :
    Pays env [⟨invoiceId, InvoiceSweeper.getInvoiceAddress env invoiceId, data⟩] s s' := by
  simp only [InvoiceSweeper.sweepEth, bind_eq_ok, pure_eq_ok, Prod.mk.injEq] at h
  rcases h with ⟨⟨_, _⟩, hsweep, rfl, rfl, rfl⟩
  exact (pays_createInvoice []).trans (pays_forwarder_sweepEth hsweep)

theorem pays_sweepToken {forwarder : Address}
    (h : InvoiceSweeper.sweepToken env s invoiceId token data = .ok (forwarder, amount, s')) :
    Pays env [⟨invoiceId, InvoiceSweeper.getInvoiceAddress env invoiceId, data⟩] s s' := by
  simp only [InvoiceSweeper.sweepToken, bind_eq_ok, pure_eq_ok, Prod.mk.injEq] at h
  rcases h with ⟨⟨_, _⟩, hsweep, rfl, rfl, rfl⟩
  exact (pays_createInvoice []).trans (pays_forwarder_sweepToken hsweep)

-- The loop presents its calls one after the other.
theorem pays_bulkExecute {calls : List InvoiceSweeper.SweepCall} {amounts amounts' : List Nat}
    (h : calls.foldlM (fun (amounts, s) call => do
      let (_, amount, s) ← InvoiceSweeper.execute env s call
      return (amounts ++ [amount], s)) (amounts, s) = .ok (amounts', s')) :
    Pays env (calls.map fun call =>
      ⟨call.invoiceId, InvoiceSweeper.getInvoiceAddress env call.invoiceId, call.data⟩) s s' := by
  induction calls generalizing amounts s with
  | nil =>
    simp only [List.foldlM_nil, pure_eq_ok, Prod.mk.injEq] at h
    rw [← h.2]
    exact .of_frame [] [] rfl rfl _
  | cons call calls ih =>
    simp only [List.foldlM_cons, bind_eq_ok, pure_eq_ok] at h
    rcases h with ⟨_, ⟨⟨forwarder, amount, s₁⟩, hcall, rfl⟩, hrest⟩
    rw [List.map_cons]
    have hhead : Pays env
        [⟨call.invoiceId, InvoiceSweeper.getInvoiceAddress env call.invoiceId, call.data⟩] s s₁ := by
      unfold InvoiceSweeper.execute at hcall
      split at hcall
      · exact pays_sweepEth hcall
      · exact pays_sweepToken hcall
    exact hhead.trans (ih hrest)

theorem pays_step (h : step env s tx = .ok s') :
    Pays env (presented env tx) { s with answers := tx.call.answers } s' := by
  unfold step at h
  unfold presented
  cases hcall : tx.call with
  | createInvoice invoiceId =>
    simp only [hcall, Except.ok.injEq] at h
    rw [← h]
    exact pays_createInvoice _
  | sweepEth invoiceId data =>
    simp only [hcall, bind_eq_ok, pure_eq_ok] at h
    obtain ⟨⟨_, _, _⟩, hsweep, rfl⟩ := h
    exact pays_sweepEth hsweep
  | sweepToken invoiceId token data answers =>
    simp only [hcall, bind_eq_ok, pure_eq_ok] at h
    obtain ⟨⟨_, _, _⟩, hsweep, rfl⟩ := h
    exact pays_sweepToken hsweep
  | bulkExecute calls answers =>
    simp only [hcall, bind_eq_ok, pure_eq_ok] at h
    obtain ⟨⟨_, _⟩, hbulk, rfl⟩ := h
    exact pays_bulkExecute hbulk
  | forwarderSweepEth forwarder invoiceId data =>
    simp only [hcall, bind_eq_ok, pure_eq_ok] at h
    obtain ⟨⟨_, _⟩, hsweep, rfl⟩ := h
    exact pays_forwarder_sweepEth hsweep
  | forwarderSweepToken forwarder token invoiceId data answers =>
    simp only [hcall, bind_eq_ok, pure_eq_ok] at h
    obtain ⟨⟨_, _⟩, hsweep, rfl⟩ := h
    exact pays_forwarder_sweepToken hsweep
  | receiveEthInvoice value invoiceId data =>
    simp only [hcall] at h
    exact pays_receiveEthInvoice h
  | receiveTokenInvoice token invoiceId amount data answers =>
    simp only [hcall] at h
    exact pays_receiveTokenInvoice h
  | executeInvoice invoiceId token amount data =>
    simp only [hcall, executeInvoice, bind_eq_ok, pure_eq_ok] at h
    obtain ⟨_, -, _, -, _, -, rfl⟩ := h
    exact .of_frame [] [] rfl rfl _
  | transferOwnership newOwner =>
    simp only [hcall, transferOwnership, bind_eq_ok, pure_eq_ok] at h
    obtain ⟨_, -, _, -, rfl⟩ := h
    exact .of_frame [] [] rfl rfl _
  | renounceOwnership =>
    simp only [hcall, renounceOwnership, bind_eq_ok, pure_eq_ok] at h
    obtain ⟨_, -, rfl⟩ := h
    exact .of_frame [] [] rfl rfl _
  | send dst value =>
    simp only [hcall, send, bind_eq_ok, orRevert_eq_ok, pure_eq_ok] at h
    obtain ⟨_, -, l, hl, rfl⟩ := h
    exact .of_frame (s := { s with answers := [] }) _ [] (Moves.transfer hl).transfers rfl _
  | transfer token dst amount =>
    simp only [hcall, transfer, bind_eq_ok, orRevert_eq_ok, pure_eq_ok] at h
    obtain ⟨_, -, l, hl, rfl⟩ := h
    exact .of_frame (s := { s with answers := [] }) _ [] (Moves.transfer hl).transfers rfl _
  | approve token spender amount =>
    simp only [hcall, approve, bind_eq_ok, pure_eq_ok] at h
    obtain ⟨_, -, rfl⟩ := h
    have hlog : (Lib.Tokens.approve s.ledger token tx.sender spender amount).transfers =
        [] ++ s.ledger.transfers := rfl
    exact .of_frame (s := { s with answers := [] }) [] [] hlog rfl _
  | transferFrom token src dst amount =>
    simp only [hcall, transferFrom, bind_eq_ok, orRevert_eq_ok, pure_eq_ok] at h
    obtain ⟨_, -, l, hl, rfl⟩ := h
    exact .of_frame (s := { s with answers := [] }) _ [] (Moves.transferFrom hl).transfers rfl _

/-- Every transaction records only what it presents and pays, or what a token tells of it. -/
theorem step_pays (h : step env s tx = .ok s') :
    ∃ log, s'.ledger.transfers = log ++ s.ledger.transfers ∧ ∀ invoiceId,
      s'.invoicePayments invoiceId = s.invoicePayments invoiceId ∨
        Records env (presented env tx) log tx.call.answers s s' invoiceId
          (s'.invoicePayments invoiceId) := by
  obtain ⟨log, used, hlog, hused, hall⟩ := pays_step h
  refine ⟨log, hlog, fun invoiceId => (hall invoiceId).imp_right fun hrecords => ?_⟩
  have hkept : Records env (presented env tx) log used s s' invoiceId
      (s'.invoicePayments invoiceId) :=
    ⟨hrecords.unpaid, hrecords.paid, hrecords.stored, hrecords.presented, hrecords.moved,
      hrecords.told, hrecords.positive⟩
  exact hkept.mono (List.Subset.refl _) (List.Subset.refl _) ⟨[], _, hused.symm⟩

/-! ## Attribution -/

def toyEnv : Env :=
  ⟨Crypto.toy, 0xEC, 0x5EE9, 0xF0, fun token => token == 0x70C, fun _ => true,
    fun _ _ _ _ => some []⟩

def toyStart : State where
  ledger := ⟨fun token account => if token = NATIVE_TOKEN ∧ (account = 0xA1 ∨ account = 0xA2)
    then 1000 else 0, fun _ _ _ => 0, []⟩
  code := fun _ => false
  invoicePayments := fun _ => .zero
  owner := 0x0FE
  answers := []

def toyData : Bytes := [1, 2, 3]

def toyInvoice : Bytes32 := toyHash toyData

def pay (amount : Nat) : Tx Call :=
  ⟨0xA1, 100, .send (InvoiceSweeper.getInvoiceAddress toyEnv toyInvoice) amount⟩

def sweepPayment : Tx Call := ⟨0xA2, 200, .sweepEth toyInvoice toyData⟩

-- A token that moves nothing and answers as it likes.
example : (run (step toyEnv) toyStart [⟨0xA2, 100, .receiveTokenInvoice 0xBAD toyInvoice 1 toyData
    [some 0, some 1, some 5]⟩]).invoicePayments toyInvoice = ⟨0xBAD, 5, 0xA2, true⟩ := by
  decide +kernel

-- The state in which the forwarder of the invoice stands.
def withForwarder (env : Env) (s : State) (invoiceId : Bytes32) : State :=
  (InvoiceSweeper.createInvoice env s invoiceId).2

theorem withForwarder_frame (env : Env) (s : State) (invoiceId : Bytes32) :
    (withForwarder env s invoiceId).code (InvoiceSweeper.getInvoiceAddress env invoiceId) = true ∧
      (withForwarder env s invoiceId).ledger = s.ledger ∧
      (withForwarder env s invoiceId).invoicePayments = s.invoicePayments := by
  unfold withForwarder InvoiceSweeper.createInvoice
  dsimp only
  split
  · rename_i hcode
    exact ⟨hcode, rfl, rfl⟩
  · exact ⟨update_self .., rfl, rfl⟩

-- The same state after the forwarder has approved the receiver.
def approvedForwarder (env : Env) (s : State) (invoiceId : Bytes32) (token : Address)
    (amount : Nat) : State :=
  approved (withForwarder env s invoiceId) (InvoiceSweeper.getInvoiceAddress env invoiceId) token
    env.receiver amount

theorem approvedForwarder_frame (env : Env) (s : State) (invoiceId : Bytes32) (token : Address)
    (amount : Nat) :
    (approvedForwarder env s invoiceId token amount).ledger.allowance token
      (InvoiceSweeper.getInvoiceAddress env invoiceId) env.receiver = amount ∧
    (approvedForwarder env s invoiceId token amount).ledger.balanceOf = s.ledger.balanceOf ∧
    (approvedForwarder env s invoiceId token amount).invoicePayments = s.invoicePayments := by
  rcases withForwarder_frame env s invoiceId with ⟨-, hledger, hpayments⟩
  unfold approvedForwarder approved Lib.Tokens.approve
  refine ⟨if_pos ⟨rfl, rfl, rfl⟩, ?_, hpayments⟩
  show (withForwarder env s invoiceId).ledger.balanceOf = _
  rw [hledger]

-- Everything the account had in this token has gone to the receiver.
structure Swept (env : Env) (token account : Address) (s s' : State) : Prop where
  emptied : s'.ledger.balanceOf token account = 0
  received : s'.ledger.balanceOf token env.receiver =
    s.ledger.balanceOf token env.receiver + s.ledger.balanceOf token account

theorem swept_of_moved {l : Ledger Address Address} {account : Address}
    (hother : account ≠ env.receiver)
    (hl : l.balanceOf = (moved s.ledger ⟨token, account, env.receiver,
      s.ledger.balanceOf token account⟩).balanceOf) (hs' : s'.ledger.balanceOf = l.balanceOf) :
    Swept env token account s s' := by
  constructor
  · rw [hs', hl]
    simp only [moved, if_true, if_neg hother]
    omega
  · rw [hs', hl]
    simp only [moved, if_true, if_neg (Ne.symm hother)]
    omega

theorem sweepEth_of_unpaid (hother : InvoiceSweeper.getInvoiceAddress env invoiceId ≠ env.receiver)
    (hpos : 0 < s.ledger.balanceOf NATIVE_TOKEN (InvoiceSweeper.getInvoiceAddress env invoiceId))
    (hacceptable : Acceptable env s invoiceId NATIVE_TOKEN
      (s.ledger.balanceOf NATIVE_TOKEN (InvoiceSweeper.getInvoiceAddress env invoiceId)) data) :
    ∃ result, InvoiceSweeper.sweepEth env s invoiceId data = .ok result ∧
      Swept env NATIVE_TOKEN (InvoiceSweeper.getInvoiceAddress env invoiceId) s result.2.2 := by
  rcases withForwarder_frame env s invoiceId with ⟨hcode, hledger, hpayments⟩
  have hreceive : ∃ s', receiveEthInvoice env (withForwarder env s invoiceId)
      (InvoiceSweeper.getInvoiceAddress env invoiceId)
      (s.ledger.balanceOf NATIVE_TOKEN (InvoiceSweeper.getInvoiceAddress env invoiceId))
      invoiceId data = .ok s' := by
    refine ⟨_, receiveEthInvoice_eq_ok.mpr ⟨?_, hpos, ⟨hacceptable.hash, ?_, hacceptable.executes⟩,
      rfl⟩⟩
    · rw [hledger]
    · rw [hpayments]
      exact hacceptable.unpaid
  rcases hreceive with ⟨s', hs'⟩
  have hsweep : Forwarder.sweepEth env (withForwarder env s invoiceId)
      (InvoiceSweeper.getInvoiceAddress env invoiceId) invoiceId data =
      .ok (s.ledger.balanceOf NATIVE_TOKEN (InvoiceSweeper.getInvoiceAddress env invoiceId), s') :=
    forwarder_sweepEth_eq_ok.mpr ⟨hcode, by rw [hledger], hs'⟩
  refine ⟨(InvoiceSweeper.getInvoiceAddress env invoiceId, _, s'),
    bind_eq_ok.mpr ⟨_, hsweep, rfl⟩, ?_⟩
  rcases receiveEthInvoice_eq_ok.mp hs' with ⟨-, -, -, rfl⟩
  refine swept_of_moved hother ?_ rfl
  rw [hledger]
  rfl

theorem sweepToken_of_unpaid (hother : InvoiceSweeper.getInvoiceAddress env invoiceId ≠ env.receiver)
    (htoken : IsErc20 env token)
    (hpos : 0 < s.ledger.balanceOf token (InvoiceSweeper.getInvoiceAddress env invoiceId))
    (hacceptable : Acceptable env s invoiceId token
      (s.ledger.balanceOf token (InvoiceSweeper.getInvoiceAddress env invoiceId)) data) :
    ∃ result, InvoiceSweeper.sweepToken env s invoiceId token data = .ok result ∧
      Swept env token (InvoiceSweeper.getInvoiceAddress env invoiceId) s result.2.2 := by
  rcases withForwarder_frame env s invoiceId with ⟨hcode, hledger, -⟩
  rcases approvedForwarder_frame env s invoiceId token (s.ledger.balanceOf token
    (InvoiceSweeper.getInvoiceAddress env invoiceId)) with ⟨hallowed, hbalance, hpayments⟩
  have hreceive : ∃ s', receiveTokenInvoice env
      (approvedForwarder env s invoiceId token
        (s.ledger.balanceOf token (InvoiceSweeper.getInvoiceAddress env invoiceId)))
      (InvoiceSweeper.getInvoiceAddress env invoiceId) token invoiceId
      (s.ledger.balanceOf token (InvoiceSweeper.getInvoiceAddress env invoiceId)) data = .ok s' := by
    refine ⟨_, (receiveTokenInvoice_eq_ok htoken).mpr ⟨hpos, hother, ?_, ?_,
      ⟨hacceptable.hash, ?_, hacceptable.executes⟩, rfl⟩⟩
    · rw [hallowed]
    · rw [hbalance]
    · rw [hpayments]
      exact hacceptable.unpaid
  rcases hreceive with ⟨s₁, hs₁⟩
  have hsweep : Forwarder.sweepToken env (withForwarder env s invoiceId)
      (InvoiceSweeper.getInvoiceAddress env invoiceId) token invoiceId data =
      .ok (s.ledger.balanceOf token (InvoiceSweeper.getInvoiceAddress env invoiceId),
        approved s₁ (InvoiceSweeper.getInvoiceAddress env invoiceId) token env.receiver 0) :=
    (forwarder_sweepToken_eq_ok htoken).mpr ⟨hcode, by rw [hledger], s₁, hs₁, rfl⟩
  refine ⟨(InvoiceSweeper.getInvoiceAddress env invoiceId, _, _),
    bind_eq_ok.mpr ⟨_, hsweep, rfl⟩, ?_⟩
  obtain ⟨-, -, -, -, -, rfl⟩ := (receiveTokenInvoice_eq_ok htoken).mp hs₁
  refine swept_of_moved hother ?_ rfl
  simp only [approved, Lib.Tokens.approve, Invoice.recorded, pulled,
    Lib.Tokens.moved, spend_balanceOf, hbalance]

theorem handleInvoice_of_paid (hhash : env.crypto.keccak256 data = invoiceId)
    (hpaid : (s.invoicePayments invoiceId).paid = true) :
    handleInvoice env s invoiceId token sender amount data = .error .invoiceAlreadyPaid := by
  unfold handleInvoice verifyInvoiceData assignPayment
  simp [hhash, hpaid, revertIf, bind, Except.bind]

theorem receiveEthInvoice_of_paid (hle : amount ≤ s.ledger.balanceOf NATIVE_TOKEN sender)
    (hpos : 0 < amount) (hhash : env.crypto.keccak256 data = invoiceId)
    (hpaid : (s.invoicePayments invoiceId).paid = true) :
    receiveEthInvoice env s sender amount invoiceId data = .error .invoiceAlreadyPaid := by
  have hmove := transfer_eq_some (x := ⟨NATIVE_TOKEN, sender, env.receiver, amount⟩)
    |>.mpr ⟨hle, rfl⟩
  unfold receiveEthInvoice
  rw [hmove, beq_eq_false_iff_ne.mpr (Nat.ne_of_gt hpos)]
  exact handleInvoice_of_paid hhash hpaid

theorem receiveTokenInvoice_of_paid (htoken : IsErc20 env token) (hother : sender ≠ env.receiver)
    (hallowed : amount ≤ s.ledger.allowance token sender env.receiver)
    (hle : amount ≤ s.ledger.balanceOf token sender) (hpos : 0 < amount)
    (hhash : env.crypto.keccak256 data = invoiceId)
    (hpaid : (s.invoicePayments invoiceId).paid = true) :
    receiveTokenInvoice env s sender token invoiceId amount data =
      .error .invoiceAlreadyPaid := by
  have hpull : safeTransferFrom env s token sender amount =
      .ok { s with ledger := pulled env s.ledger ⟨token, sender, env.receiver, amount⟩ } :=
    (safeTransferFrom_of_erc20 htoken).mpr ⟨_, transferFrom_eq_some.mpr ⟨hallowed, hle, rfl⟩, rfl⟩
  have hreceived := balanceOf_pulled env hle
  rw [if_neg hother] at hreceived
  unfold receiveTokenInvoice
  simp only [balanceOf_of_erc20 htoken, hpull, revertIf, bind, Except.bind, hreceived,
    beq_eq_false_iff_ne.mpr (Nat.ne_of_gt hpos), Bool.false_eq_true, if_false]
  rw [if_neg (by rw [decide_eq_true_eq]; omega)]
  exact handleInvoice_of_paid hhash hpaid

theorem sweepEth_of_paid
    (hpos : 0 < s.ledger.balanceOf NATIVE_TOKEN (InvoiceSweeper.getInvoiceAddress env invoiceId))
    (hhash : env.crypto.keccak256 data = invoiceId)
    (hpaid : (s.invoicePayments invoiceId).paid = true) :
    InvoiceSweeper.sweepEth env s invoiceId data = .error .invoiceAlreadyPaid := by
  rcases withForwarder_frame env s invoiceId with ⟨hcode, hledger, hpayments⟩
  have hsweep : Forwarder.sweepEth env (withForwarder env s invoiceId)
      (InvoiceSweeper.getInvoiceAddress env invoiceId) invoiceId data =
      .error .invoiceAlreadyPaid := by
    unfold Forwarder.sweepEth
    simp only [hcode, hledger, revertIf, bind, Except.bind, Bool.not_true, Bool.false_eq_true,
      if_false, beq_eq_false_iff_ne.mpr (Nat.ne_of_gt hpos)]
    rw [receiveEthInvoice_of_paid (hledger ▸ Nat.le_refl _) hpos hhash (hpayments ▸ hpaid)]
  show (Forwarder.sweepEth env (withForwarder env s invoiceId) _ invoiceId data >>= _) = _
  rw [hsweep]
  rfl

theorem sweepToken_of_paid (hother : InvoiceSweeper.getInvoiceAddress env invoiceId ≠ env.receiver)
    (htoken : IsErc20 env token)
    (hpos : 0 < s.ledger.balanceOf token (InvoiceSweeper.getInvoiceAddress env invoiceId))
    (hhash : env.crypto.keccak256 data = invoiceId)
    (hpaid : (s.invoicePayments invoiceId).paid = true) :
    InvoiceSweeper.sweepToken env s invoiceId token data = .error .invoiceAlreadyPaid := by
  rcases withForwarder_frame env s invoiceId with ⟨hcode, hledger, -⟩
  rcases approvedForwarder_frame env s invoiceId token (s.ledger.balanceOf token
    (InvoiceSweeper.getInvoiceAddress env invoiceId)) with ⟨hallowed, hbalance, hpayments⟩
  have hreceive := receiveTokenInvoice_of_paid htoken hother (Nat.le_of_eq hallowed.symm)
    (Nat.le_of_eq (by rw [hbalance])) hpos hhash (hpayments ▸ hpaid)
  have hsweep : Forwarder.sweepToken env (withForwarder env s invoiceId)
      (InvoiceSweeper.getInvoiceAddress env invoiceId) token invoiceId data =
      .error .invoiceAlreadyPaid := by
    unfold Forwarder.sweepToken
    simp only [hcode, balanceOf_of_erc20 htoken, forceApprove_of_erc20 htoken, hledger, revertIf,
      bind, Except.bind, Bool.not_true, Bool.false_eq_true, if_false,
      beq_eq_false_iff_ne.mpr (Nat.ne_of_gt hpos)]
    rw [← approvedForwarder, hreceive]
  show (Forwarder.sweepToken env (withForwarder env s invoiceId) _ token invoiceId data >>= _) = _
  rw [hsweep]
  rfl

-- The sweep of the invoice in the native or another token.
def sweepCall (token : Address) (invoiceId : Bytes32) (data : Bytes) (answers : List Answer) :
    Call :=
  if token = NATIVE_TOKEN then .sweepEth invoiceId data
  else .sweepToken invoiceId token data answers

-- The sweep succeeds and moves the whole balance.
def SweepWorks (env : Env) (s : State) (token : Address) (invoiceId : Bytes32) (data : Bytes) :
    Prop :=
  ∀ sender timestamp answers, ∃ s',
    step env s ⟨sender, timestamp, sweepCall token invoiceId data answers⟩ = .ok s' ∧
      Swept env token (InvoiceSweeper.getInvoiceAddress env invoiceId) s s'

-- The sweep reverts with `InvoiceAlreadyPaid`.
def SweepRejected (env : Env) (s : State) (token : Address) (invoiceId : Bytes32) (data : Bytes) :
    Prop :=
  ∀ sender timestamp answers,
    step env s ⟨sender, timestamp, sweepCall token invoiceId data answers⟩ =
      .error .invoiceAlreadyPaid

theorem sweepWorks_of_unpaid
    (hhook : ∀ token amount, ∃ result, env.executeInvoice invoiceId token amount data = some result)
    (hother : InvoiceSweeper.getInvoiceAddress env invoiceId ≠ env.receiver)
    (htoken : Sweepable env token) (hhash : env.crypto.keccak256 data = invoiceId)
    (hpos : 0 < s.ledger.balanceOf token (InvoiceSweeper.getInvoiceAddress env invoiceId))
    (hunpaid : (s.invoicePayments invoiceId).paid = false) :
    SweepWorks env s token invoiceId data := by
  intro sender timestamp answers
  by_cases hnative : token = NATIVE_TOKEN
  · subst hnative
    obtain ⟨result, hok, hswept⟩ := sweepEth_of_unpaid (s := { s with answers := [] }) hother hpos
      ⟨hhash, hunpaid, hhook NATIVE_TOKEN _⟩
    exact ⟨result.2.2, bind_eq_ok.mpr ⟨result, hok, rfl⟩, hswept.emptied, hswept.received⟩
  · have herc20 : IsErc20 env token := ⟨hnative, htoken.resolve_left hnative⟩
    obtain ⟨result, hok, hswept⟩ := sweepToken_of_unpaid (s := { s with answers := answers }) hother
      herc20 hpos ⟨hhash, hunpaid, hhook token _⟩
    have hcall : sweepCall token invoiceId data answers =
        .sweepToken invoiceId token data answers := if_neg hnative
    rw [hcall]
    exact ⟨result.2.2, bind_eq_ok.mpr ⟨result, hok, rfl⟩, hswept.emptied, hswept.received⟩

theorem sweepRejected_of_paid (hother : InvoiceSweeper.getInvoiceAddress env invoiceId ≠ env.receiver)
    (htoken : Sweepable env token) (hhash : env.crypto.keccak256 data = invoiceId)
    (hpos : 0 < s.ledger.balanceOf token (InvoiceSweeper.getInvoiceAddress env invoiceId))
    (hpaid : (s.invoicePayments invoiceId).paid = true) :
    SweepRejected env s token invoiceId data := by
  intro sender timestamp answers
  by_cases hnative : token = NATIVE_TOKEN
  · subst hnative
    have hrejected : InvoiceSweeper.sweepEth env { s with answers := [] } invoiceId data =
        .error .invoiceAlreadyPaid := sweepEth_of_paid hpos hhash hpaid
    show (InvoiceSweeper.sweepEth env { s with answers := [] } invoiceId data >>= _) = _
    rw [hrejected]
    rfl
  · have herc20 : IsErc20 env token := ⟨hnative, htoken.resolve_left hnative⟩
    have hrejected : InvoiceSweeper.sweepToken env { s with answers := answers } invoiceId token
        data = .error .invoiceAlreadyPaid := sweepToken_of_paid hother herc20 hpos hhash hpaid
    have hcall : sweepCall token invoiceId data answers =
        .sweepToken invoiceId token data answers := if_neg hnative
    rw [hcall]
    show (InvoiceSweeper.sweepToken env { s with answers := answers } invoiceId token data >>= _) = _
    rw [hrejected]
    rfl

-- A record is final.
theorem paid_of_steps (hpaid : (s.invoicePayments invoiceId).paid = true) (txs : List (Tx Call)) :
    ((run (step env) s txs).invoicePayments invoiceId).paid = true := by
  refine run_invariant (I := fun s : State => (s.invoicePayments invoiceId).paid = true)
    (fun s tx s' hs hok => ?_) hpaid txs
  rcases step_pays hok with ⟨log, -, hall⟩
  rcases hall invoiceId with hsame | hrecords
  · rw [hsame]
    exact hs
  · exact hrecords.paid

/-- In every reachable state a sweep of what an invoice address holds works exactly while the invoice
is unpaid; from the payment on it is rejected, for good. -/
theorem sweepable_of_run (env : Env) (s₀ : State) (txs : List (Tx Call)) (data : Bytes)
    (token : Address) (invoiceId : Bytes32) (hhash : env.crypto.keccak256 data = invoiceId)
    (hhook : ∀ token amount, ∃ result, env.executeInvoice invoiceId token amount data = some result)
    (hother : InvoiceSweeper.getInvoiceAddress env invoiceId ≠ env.receiver)
    (htoken : Sweepable env token)
    (hpos : 0 < (run (step env) s₀ txs).ledger.balanceOf token
      (InvoiceSweeper.getInvoiceAddress env invoiceId)) :
    (SweepWorks env (run (step env) s₀ txs) token invoiceId data ↔
      ((run (step env) s₀ txs).invoicePayments invoiceId).paid = false) ∧
    (((run (step env) s₀ txs).invoicePayments invoiceId).paid = true → ∀ more,
      0 < (run (step env) s₀ (txs ++ more)).ledger.balanceOf token
        (InvoiceSweeper.getInvoiceAddress env invoiceId) →
      SweepRejected env (run (step env) s₀ (txs ++ more)) token invoiceId data) := by
  refine ⟨⟨fun hworks => ?_, sweepWorks_of_unpaid hhook hother htoken hhash hpos⟩, ?_⟩
  · rw [← Bool.not_eq_true]
    intro hpaid
    rcases hworks 0 0 [] with ⟨s', hok, -⟩
    rw [sweepRejected_of_paid hother htoken hhash hpos hpaid 0 0 []] at hok
    cases hok
  · intro hpaid more hpos'
    rw [run_append] at hpos' ⊢
    exact sweepRejected_of_paid hother htoken hhash hpos' (paid_of_steps hpaid more)

theorem sweepable_paidRun :
    SweepWorks toyEnv (run (step toyEnv) toyStart [pay 100]) NATIVE_TOKEN toyInvoice toyData := by
  have hother : InvoiceSweeper.getInvoiceAddress toyEnv toyInvoice ≠ toyEnv.receiver := by
    decide +kernel
  have hunpaid : ((run (step toyEnv) toyStart [pay 100]).invoicePayments toyInvoice).paid = false := by
    decide +kernel
  exact (sweepable_of_run toyEnv toyStart [pay 100] toyData NATIVE_TOKEN toyInvoice rfl
    (fun _ _ => ⟨[], rfl⟩) hother (.inl rfl) (by decide +kernel)).1.mpr hunpaid

/-- The second payment to an invoice address cannot be swept. -/
theorem second_payment_stuck :
    0 < (run (step toyEnv) toyStart [pay 100, sweepPayment, pay 50]).ledger.balanceOf NATIVE_TOKEN
      (InvoiceSweeper.getInvoiceAddress toyEnv toyInvoice) ∧
    ¬SweepWorks toyEnv (run (step toyEnv) toyStart [pay 100, sweepPayment, pay 50]) NATIVE_TOKEN
      toyInvoice toyData := by
  have hpos : 0 < (run (step toyEnv) toyStart
      [pay 100, sweepPayment, pay 50]).ledger.balanceOf NATIVE_TOKEN
        (InvoiceSweeper.getInvoiceAddress toyEnv toyInvoice) := by
    decide +kernel
  have hpaid : ((run (step toyEnv) toyStart
      [pay 100, sweepPayment, pay 50]).invoicePayments toyInvoice).paid = true := by
    decide +kernel
  have hother : InvoiceSweeper.getInvoiceAddress toyEnv toyInvoice ≠ toyEnv.receiver := by
    decide +kernel
  have hrejected : SweepRejected toyEnv (run (step toyEnv) toyStart
      [pay 100, sweepPayment, pay 50]) NATIVE_TOKEN toyInvoice toyData :=
    sweepRejected_of_paid hother (.inl rfl) rfl hpos hpaid
  refine ⟨hpos, fun hworks => ?_⟩
  rcases hworks 0 0 [] with ⟨s', hok, -⟩
  rw [hrejected 0 0 []] at hok
  cases hok

end OnchainInvoice.Invoice
