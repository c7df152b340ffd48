import OnchainInvoice.Worker.Requests

/-!
# Ticks without failures

When every request is answered a tick runs to its end, and what it does to an invoice is decided by
the row, the configuration and the balance: it changes the row or leaves it as it is.
-/

namespace OnchainInvoice.SweeperWorker

open Lib.Handlers Lib.Revert Lib.Runs Lib.Tables Server Table

variable {cfg : SweeperConfig} {script : Nat → Turn} {who : String → Prop} {start : Nat}
  {id : String} {w w' : World} {row : Invoice} {α β : Type}

def Calm (script : Nat → Turn) : Prop := ∀ n, (script n).fate = .answered

/-! ## Work that is not stopped -/

def Steady (x : Work α) : Prop := ∀ w, (exec x w).1 ≠ .error .stopped

theorem steady_pure (a : α) : Steady (pure a : Work α) := fun _ h => by cases h

theorem steady_thrown (message : String) : Steady (throw (.thrown message) : Work α) :=
  fun _ h => by cases h

theorem steady_note (action : Action) : Steady (note action) := fun _ h => by cases h

theorem steady_orThrow (message : String) (o : Option α) : Steady (orThrow message o) := by
  cases o with
  | none => exact steady_thrown message
  | some a => exact steady_pure a

theorem Steady.bind {x : Work α} {f : α → Work β} (hx : Steady x) (hf : ∀ a, Steady (f a)) :
    Steady (x >>= f) := by
  intro w
  cases hrun : exec x w with
  | mk answer w' =>
    cases answer with
    | ok a =>
      rw [exec_bind_ok hrun]
      exact hf a w'
    | error e =>
      rw [exec_bind_error hrun]
      have hne := hx w
      rw [hrun] at hne
      intro heq
      cases heq
      exact hne rfl

theorem exec_caught_thrown {x : Work α} {h : String → Work α} {message : String}
    (hx : exec x w = (.error (.thrown message), w')) : exec (caught x h) w = exec (h message) w' :=
  exec_rescue_error hx

theorem exec_caught_ok {x : Work α} {h : String → Work α} {a : α} (hx : exec x w = (.ok a, w')) :
    exec (caught x h) w = (.ok a, w') :=
  exec_rescue_ok hx

-- A failure that is caught is gone.
theorem Steady.caught {x : Work α} {h : String → Work α} (hx : Steady x)
    (hh : ∀ message w, ∃ a w', exec (h message) w = (.ok a, w')) (w : World) :
    ∃ a w', exec (caught x h) w = (.ok a, w') := by
  cases hrun : exec x w with
  | mk answer w₁ =>
    cases answer with
    | ok a => exact ⟨a, w₁, exec_caught_ok hrun⟩
    | error e =>
      cases e with
      | thrown message =>
        rw [exec_caught_thrown hrun]
        exact hh message w₁
      | stopped =>
        have hne := hx w
        rw [hrun] at hne
        exact absurd rfl hne

theorem steady_of_ok {x : Work α} (h : ∀ w, ∃ a w', exec x w = (.ok a, w')) : Steady x := by
  intro w hstopped
  obtain ⟨a, w', hrun⟩ := h w
  rw [hrun] at hstopped
  cases hstopped

theorem exec_signedFetch_of_calm (hcalm : Calm script)
    (handle : Turn → CommerceDb → Except HttpError (α × CommerceDb)) (w : World) :
    exec (signedFetch script handle) w =
      (.ok (serve (handle (script w.turn)) (afterWait script w)).1,
        (serve (handle (script w.turn)) (afterWait script w)).2) := by
  rw [exec_signedFetch, hcalm]

theorem exec_rpc_of_calm (hcalm : Calm script) (act : Turn → StateM World α) (w : World) :
    exec (rpc script act) w = (.ok (act (script w.turn) (afterWait script w)).1,
      (act (script w.turn) (afterWait script w)).2) := by
  rw [exec_rpc, hcalm]

theorem exec_readBalance_of_calm (hcalm : Calm script) (invoiceId : String) (w : World) :
    exec (readBalance script invoiceId) w =
      (.ok ((afterWait script w).holds invoiceId), afterRead script invoiceId w) := by
  rcases exec_readBalance script invoiceId w with ⟨-, hread⟩ | ⟨hfate, -⟩
  · exact hread
  · exact absurd (hcalm w.turn) hfate

section

variable (hcalm : Calm script)
include hcalm

theorem steady_signedFetch (handle : Turn → CommerceDb → Except HttpError (α × CommerceDb)) :
    Steady (signedFetch script handle) :=
  steady_of_ok fun w => ⟨_, _, exec_signedFetch_of_calm hcalm handle w⟩

theorem steady_rpc (act : Turn → StateM World α) : Steady (rpc script act) :=
  steady_of_ok fun w => ⟨_, _, exec_rpc_of_calm hcalm act w⟩

theorem steady_readBalance (invoiceId : String) : Steady (readBalance script invoiceId) :=
  steady_of_ok fun w => ⟨_, _, exec_readBalance_of_calm hcalm invoiceId w⟩

theorem steady_claimAttempts (invoiceId : String) (n : Nat) (version : Int) :
    Steady (claimAttempts cfg script invoiceId n version) := by
  induction n generalizing version with
  | zero => exact steady_pure _
  | succ n ih =>
    unfold claimAttempts
    apply (steady_signedFetch hcalm _).bind
    intro answer
    cases answer with
    | ok invoice => exact steady_pure _
    | error e =>
      dsimp only
      split
      · cases e.invoice with
        | none => exact steady_pure _
        | some current =>
          dsimp only
          split
          · exact steady_pure _
          · exact ih _
      · split
        · exact ih _
        · exact steady_thrown _

theorem steady_trackAttempts (body : TrackBody) (n : Nat) (expectedVersion : Option Number) :
    Steady (trackAttempts cfg script body n expectedVersion) := by
  induction n generalizing expectedVersion with
  | zero => exact steady_pure _
  | succ n ih =>
    unfold trackAttempts
    apply (steady_note _).bind
    intro _
    apply (steady_signedFetch hcalm _).bind
    intro answer
    cases answer with
    | ok answer => exact steady_pure _
    | error e =>
      dsimp only
      split
      · cases e.invoice.filter fun invoice => invoice.status = .swept with
        | none => exact ih _
        | some invoice => exact steady_pure _
      · split
        · exact ih _
        · exact steady_thrown _

theorem steady_trackWithRetry (body : TrackBody) : Steady (trackWithRetry cfg script body) :=
  steady_trackAttempts hcalm body _ _

theorem steady_sweepOne (invoice : Invoice) (balance : Nat) (version : Int) :
    Steady (sweepOne cfg script invoice balance version) := by
  unfold sweepOne
  apply (steady_readBalance hcalm _).bind
  intro held
  dsimp only
  split
  · exact fun _ h => by cases h
  · apply (steady_rpc hcalm _).bind
    intro fee
    apply (steady_rpc hcalm _).bind
    intro hash
    apply (steady_orThrow _ _).bind
    intro hash
    apply (steady_rpc hcalm _).bind
    intro gasSpentWei
    exact (steady_trackWithRetry hcalm _).bind fun _ => steady_pure _

theorem steady_sweepTronOne (tron : TronSweeperConfig) (invoice : Invoice) (balance : Nat)
    (version : Int) : Steady (sweepTronOne cfg script tron invoice balance version) := by
  unfold sweepTronOne
  dsimp only
  split
  · exact fun _ h => by cases h
  · apply (steady_rpc hcalm _).bind
    intro _
    apply (steady_readBalance hcalm _).bind
    intro amount
    split
    · exact fun _ h => by cases h
    · apply (steady_rpc hcalm _).bind
      intro hash
      apply (steady_orThrow _ _).bind
      intro hash
      exact (steady_trackWithRetry hcalm _).bind fun _ => steady_pure _

theorem steady_sweepSolanaOne (solana : SolanaSweeperConfig) (invoice : Invoice) (balance : Nat)
    (chainId : String) (version : Int) :
    Steady (sweepSolanaOne cfg script solana invoice balance chainId version) := by
  unfold sweepSolanaOne
  apply (steady_orThrow _ _).bind
  intro chain
  apply (steady_rpc hcalm _).bind
  intro hash
  apply (steady_orThrow _ _).bind
  intro hash
  exact (steady_trackWithRetry hcalm _).bind fun _ => steady_pure _

theorem steady_claimAndSweep (invoice : Invoice) (balance : Nat) {sweep : Int → Work Unit}
    (hsweep : ∀ version, Steady (sweep version)) :
    Steady (claimAndSweep cfg script invoice balance sweep) := by
  unfold claimAndSweep
  apply (steady_claimAttempts hcalm _ _ _).bind
  intro claimed
  cases claimed with
  | none => exact steady_pure _
  | some claimed => exact (steady_trackWithRetry hcalm _).bind fun _ => hsweep _

theorem steady_sweepEvm (key : String) (invoice : Invoice) (balance : Nat) :
    Steady (sweepEvm cfg script key invoice balance) := by
  have hpaid : Steady (markPaid cfg script invoice balance) := by
    unfold markPaid
    split
    · exact steady_trackWithRetry hcalm _
    · exact steady_pure _
  unfold sweepEvm
  apply hpaid.bind
  intro afterPaid
  cases afterPaid with
  | none => exact steady_pure _
  | some afterPaid =>
    dsimp only
    split
    · apply (steady_claimAttempts hcalm _ _ _).bind
      intro claimed
      cases claimed with
      | none => exact steady_pure _
      | some claimed => exact steady_sweepOne hcalm _ _ _
    · exact steady_pure _

theorem steady_sweepReady (r : Ready) : Steady (sweepReady cfg script r) := by
  cases r with
  | evm key invoice token balance => exact steady_sweepEvm hcalm _ _ _
  | tron invoice token balance =>
    apply steady_claimAndSweep hcalm
    intro version
    exact (steady_orThrow _ _).bind fun _ => steady_sweepTronOne hcalm _ _ _ _
  | solana invoice balance mint symbol chainId =>
    apply steady_claimAndSweep hcalm
    intro version
    exact (steady_orThrow _ _).bind fun _ => steady_sweepSolanaOne hcalm _ _ _ _ _

theorem steady_reportError (invoice : Invoice) : Steady (reportError cfg script invoice) :=
  (steady_trackWithRetry hcalm _).bind fun _ => steady_pure _

-- A look that fails is reported, and what is ready stays.
theorem exec_reportError_of_calm (invoice : Invoice) (ready : List Ready) (w : World) :
    exec (caught (do reportError cfg script invoice; return ready) fun _ => return ready) w =
      (.ok ready, (exec (reportError cfg script invoice) w).2) := by
  cases hrun : exec (reportError cfg script invoice) w with
  | mk answer w' =>
    cases answer with
    | ok _ => exact exec_caught_ok (exec_bind_ok hrun)
    | error e =>
      cases e with
      | thrown message => exact exec_caught_thrown (exec_bind_error hrun)
      | stopped =>
        have hne : (exec (reportError cfg script invoice) w).1 ≠ .error .stopped :=
          steady_reportError hcalm invoice w
        rw [hrun] at hne
        exact absurd rfl hne

theorem exec_process_of_calm (r : Ready) (w : World) :
    exec (process cfg script r) w = (.ok (), (exec (process cfg script r) w).2) := by
  obtain ⟨_, w', hrun⟩ := (steady_sweepReady hcalm r).caught (fun message w =>
    (steady_reportError hcalm r.invoice).caught (fun _ w => ⟨(), w, rfl⟩) w) w
  have hprocess : exec (process cfg script r) w = (.ok (), w') := hrun
  rw [hprocess]

end

/-! ## Looking at an invoice -/

-- How far `prepare` gets: the invoice is passed over, its token is not known, or its balance is
-- read; `key` is the EVM chain.
inductive Look
  | passes
  | fails
  | reads (key : Option String)
deriving DecidableEq, Repr

def knowsToken (chain : EvmChainConfig) (token : Option String) : Bool :=
  match given token with
  | none => true
  | some token =>
    if token ∈ ["ETH", "native", NATIVE_TOKEN] then true
    else if startsWith token "0x" ∧ token.length = 42 then true
    else (findToken chain.tokens token).isSome

def knowsTronToken (tron : TronSweeperConfig) (token : Option String) : Bool :=
  let usdt := given (tron.usdtAddress.or (findToken tron.tokens "USDT"))
  match given token with
  | none => usdt.isSome
  | some token =>
    if startsWith token "T" then true
    else if upperCase token = "USDT" then usdt.isSome
    else (given (findToken tron.tokens token)).isSome

def lookTron (tron : TronSweeperConfig) (invoice : Invoice) : Look :=
  let expectedChain := ((tron.chainId.map trim).filter (· ≠ "")).getD "nile"
  if sweepable invoice = some expectedChain then
    if knowsTronToken tron invoice.token then .reads none else .fails
  else .passes

def lookSolana (solana : SolanaSweeperConfig) (invoice : Invoice) : Look :=
  match (sweepable invoice).bind (resolveSweeperSolanaChain solana) with
  | none => .passes
  | some chain =>
    if (resolveSweeperSolanaToken chain invoice.token).isSome then .reads none else .passes

def lookEvm (cfg : SweeperConfig) (invoice : Invoice) : Look :=
  match (sweepable invoice).bind fun chainId =>
      (observeChains cfg).find? fun entry => entry.chainId = chainId with
  | none => .passes
  | some chain => if knowsToken chain invoice.token then .reads (some chain.chainId) else .fails

def look (cfg : SweeperConfig) (invoice : Invoice) : Look :=
  if isTronInvoice invoice then ((tron cfg).map fun tron => lookTron tron invoice).getD .passes
  else if isSolanaInvoice invoice then
    ((solana cfg).map fun solana => lookSolana solana invoice).getD .passes
  else lookEvm cfg invoice

-- What is ready on Tron or Solana has been looked at with a configuration for it.
def Ready.Fits (cfg : SweeperConfig) : Ready → Prop
  | .evm .. => True
  | .tron invoice _ _ => isTronInvoice invoice = true ∧ (SweeperWorker.tron cfg).isSome
  | .solana _ _ _ _ chainId => ∃ config, SweeperWorker.solana cfg = some config ∧
    (resolveSweeperSolanaChain config chainId).isSome

-- What `prepare` answers, and the world it leaves.
def Looks (cfg : SweeperConfig) (script : Nat → Turn) (invoice : Invoice) (x : Work (Option Ready))
    (w : World) : Look → Prop
  | .passes => exec x w = (.ok none, w)
  | .fails => ∃ message, exec x w = (.error (.thrown message), w)
  | .reads key =>
    if (afterWait script w).holds invoice.id = 0 then
      exec x w = (.ok none, afterRead script invoice.id w)
    else ∃ r, exec x w = (.ok (some r), afterRead script invoice.id w) ∧ r.invoice = invoice ∧
      r.key = key ∧ r.balance = (afterWait script w).holds invoice.id ∧ r.Fits cfg

theorem looks_whenPaid {invoice : Invoice} {read : Work Nat} {ready : Nat → Ready}
    {key : Option String}
    (hread : exec read w =
      (.ok ((afterWait script w).holds invoice.id), afterRead script invoice.id w))
    (hready : ∀ balance, (ready balance).invoice = invoice ∧ (ready balance).key = key ∧
      (ready balance).balance = balance ∧ (ready balance).Fits cfg) :
    Looks cfg script invoice (whenPaid read ready) w (.reads key) := by
  unfold whenPaid
  dsimp only [Looks]
  rw [exec_bind_ok hread]
  split
  · rfl
  · exact ⟨_, rfl, hready _⟩

-- A token is resolved or not, whatever the world is.
def Resolves (known : Bool) (x : Work α) : Prop :=
  ∀ w, if known then ∃ a, exec x w = (.ok a, w)
    else ∃ message, exec x w = (.error (.thrown message), w)

theorem resolves_pure (a : α) : Resolves true (pure a : Work α) := fun _ => ⟨a, rfl⟩

theorem resolves_orThrow (message : String) (o : Option α) :
    Resolves o.isSome (orThrow message o) := by
  cases o with
  | none => exact fun _ => ⟨message, rfl⟩
  | some a => exact fun _ => ⟨a, rfl⟩

theorem Resolves.map {known : Bool} {x : Work α} (h : Resolves known x) (f : α → β) :
    Resolves known (f <$> x) := by
  cases known with
  | true =>
    intro w
    obtain ⟨a, hrun⟩ := h w
    rw [exec_map, hrun]
    exact ⟨f a, rfl⟩
  | false =>
    intro w
    obtain ⟨message, hrun⟩ := h w
    rw [exec_map, hrun]
    exact ⟨message, rfl⟩

theorem resolves_token (chain : EvmChainConfig) (token : Option String) :
    Resolves (knowsToken chain token) (resolveToken chain token) := by
  unfold knowsToken resolveToken
  cases given token with
  | none => exact resolves_pure _
  | some token =>
    dsimp only
    by_cases hnative : token ∈ ["ETH", "native", NATIVE_TOKEN]
    · rw [if_pos hnative, if_pos hnative]
      exact resolves_pure _
    · rw [if_neg hnative, if_neg hnative]
      by_cases haddress : startsWith token "0x" ∧ token.length = 42
      · rw [if_pos haddress, if_pos haddress]
        exact resolves_pure _
      · rw [if_neg haddress, if_neg haddress]
        exact (resolves_orThrow _ _).map some

theorem resolves_tronToken (tron : TronSweeperConfig) (token : Option String) :
    Resolves (knowsTronToken tron token) (resolveTronToken tron token) := by
  unfold knowsTronToken resolveTronToken
  cases given token with
  | none => exact resolves_orThrow _ _
  | some token =>
    dsimp only
    by_cases haddress : startsWith token "T" = true
    · rw [if_pos haddress, if_pos haddress]
      exact resolves_pure _
    · rw [if_neg haddress, if_neg haddress]
      by_cases husdt : upperCase token = "USDT"
      · rw [if_pos husdt, if_pos husdt]
        exact resolves_orThrow _ _
      · rw [if_neg husdt, if_neg husdt]
        exact resolves_orThrow _ _

theorem looks_bind {invoice : Invoice} {x : Work α} {f : α → Work (Option Ready)} {known : Bool}
    {key : Option String} (hx : Resolves known x)
    (hf : ∀ a, Looks cfg script invoice (f a) w (.reads key)) :
    Looks cfg script invoice (x >>= f) w (if known then .reads key else .fails) := by
  cases known with
  | true =>
    obtain ⟨a, hrun⟩ := hx w
    have hread := hf a
    dsimp only [Looks] at hread ⊢
    rw [exec_bind_ok hrun]
    exact hread
  | false =>
    obtain ⟨message, hrun⟩ := hx w
    exact ⟨message, exec_bind_error hrun⟩

theorem isSome_resolve {solana : SolanaSweeperConfig} {chainId : Option String} {chain : SolanaChain}
    (h : chainId.bind (resolveSweeperSolanaChain solana) = some chain) :
    (resolveSweeperSolanaChain solana chain.chainId).isSome = true := by
  obtain ⟨id, -, hchain⟩ := Option.bind_eq_some_iff.mp h
  unfold resolveSweeperSolanaChain
  rw [List.find?_isSome]
  exact ⟨chain, List.mem_of_find?_eq_some hchain, decide_eq_true rfl⟩

theorem looks_prepare (hcalm : Calm script) (cfg : SweeperConfig) (invoice : Invoice) (w : World) :
    Looks cfg script invoice (prepare cfg script invoice) w (look cfg invoice) := by
  have hread := exec_readBalance_of_calm hcalm invoice.id w
  unfold prepare look
  by_cases htron : isTronInvoice invoice = true
  · rw [if_pos htron, if_pos htron]
    cases hconfig : tron cfg with
    | none => exact rfl
    | some tron =>
      dsimp only [Option.map_some, Option.getD_some, prepareTronInvoice, lookTron]
      split
      · refine looks_bind (resolves_tronToken tron invoice.token) fun _ =>
          looks_whenPaid hread fun _ => ⟨rfl, rfl, rfl, htron, ?_⟩
        rw [hconfig]
        rfl
      · exact rfl
  · rw [if_neg htron, if_neg htron]
    by_cases hsolana : isSolanaInvoice invoice = true
    · rw [if_pos hsolana, if_pos hsolana]
      cases hconfig : solana cfg with
      | none => exact rfl
      | some solana =>
        dsimp only [Option.map_some, Option.getD_some, prepareSolanaInvoice, lookSolana]
        cases hchain : (sweepable invoice).bind (resolveSweeperSolanaChain solana) with
        | none => exact rfl
        | some chain =>
          dsimp only
          cases resolveSweeperSolanaToken chain invoice.token with
          | none => exact rfl
          | some token =>
            exact looks_whenPaid (exec_caught_ok hread) fun _ =>
              ⟨rfl, rfl, rfl, solana, hconfig, isSome_resolve hchain⟩
    · rw [if_neg hsolana, if_neg hsolana]
      unfold prepareInvoice lookEvm
      cases (sweepable invoice).bind fun chainId =>
          (observeChains cfg).find? fun entry => entry.chainId = chainId with
      | none => exact rfl
      | some chain =>
        exact looks_bind (resolves_token chain invoice.token) fun _ =>
          looks_whenPaid hread fun _ => ⟨rfl, rfl, rfl, trivial⟩

theorem steady_prepare (hcalm : Calm script) (invoice : Invoice) :
    Steady (prepare cfg script invoice) := by
  intro w hstopped
  have hlooks := looks_prepare hcalm cfg invoice w
  cases hlook : look cfg invoice with
  | passes =>
    rw [hlook] at hlooks
    have hrun : exec (prepare cfg script invoice) w = (.ok none, w) := hlooks
    rw [hrun] at hstopped
    cases hstopped
  | fails =>
    rw [hlook] at hlooks
    obtain ⟨message, hrun⟩ : ∃ message, exec (prepare cfg script invoice) w =
        (.error (.thrown message), w) := hlooks
    rw [hrun] at hstopped
    cases hstopped
  | reads key =>
    rw [hlook] at hlooks
    dsimp only [Looks] at hlooks
    split at hlooks
    · rw [hlooks] at hstopped
      cases hstopped
    · obtain ⟨r, hrun, -⟩ := hlooks
      rw [hrun] at hstopped
      cases hstopped

theorem exec_examine_of_calm (hcalm : Calm script) (ready : List Ready) (invoice : Invoice)
    (w : World) : ∃ ready' w', exec (examine cfg script ready invoice) w = (.ok ready', w') :=
  ((steady_prepare hcalm invoice).bind fun _ => steady_pure _).caught
    (fun _ w => ⟨ready, _, exec_reportError_of_calm hcalm invoice ready w⟩) w

theorem exec_fetchInvoices_of_calm (hcalm : Calm script) (w : World) :
    exec (fetchInvoices cfg script) w =
      (.ok (listWorkerInvoices (afterWait script w).db workerStatuses cfg.registered),
        afterWait script w) :=
  exec_bind_ok (exec_signedFetch_of_calm hcalm (listInvoices cfg) w)

theorem exec_examineAll_of_calm (hcalm : Calm script) (invoices : List Invoice)
    (ready : List Ready) (w : World) :
    ∃ ready' w', exec (invoices.foldlM (examine cfg script) ready) w = (.ok ready', w') := by
  induction invoices generalizing ready w with
  | nil => exact ⟨ready, w, rfl⟩
  | cons invoice invoices ih =>
    obtain ⟨ready₁, w₁, hrun⟩ : ∃ ready' w',
        exec (examine cfg script ready invoice) w = (.ok ready', w') :=
      exec_examine_of_calm hcalm ready invoice w
    rw [List.foldlM_cons, exec_bind_ok hrun]
    exact ih ready₁ w₁

theorem exec_processAll_of_calm (hcalm : Calm script) (ready : List Ready) (w : World) :
    ∃ w', exec (ready.forM (process cfg script)) w = (.ok (), w') := by
  induction ready generalizing w with
  | nil => exact ⟨w, rfl⟩
  | cons r ready ih =>
    obtain ⟨w', hrest⟩ := ih (exec (process cfg script r) w).2
    exact ⟨w', (exec_bind_ok (exec_process_of_calm hcalm r w)).trans hrest⟩

/-- Without failures a tick runs to its end. -/
theorem exec_tick_of_calm (hcalm : Calm script) (w : World) :
    ∃ w', exec (tick cfg script) w = (.ok (), w') := by
  obtain ⟨ready, w₁, hexamine⟩ : ∃ ready w₁,
      exec ((listWorkerInvoices (afterWait script w).db workerStatuses cfg.registered).foldlM
        (examine cfg script) []) (afterWait script w) = (.ok ready, w₁) :=
    exec_examineAll_of_calm hcalm _ _ _
  obtain ⟨w', hprocess⟩ : ∃ w',
      exec ((inOrder ready).forM (process cfg script)) w₁ = (.ok (), w') :=
    exec_processAll_of_calm hcalm _ _
  refine ⟨w', ?_⟩
  rw [tick_eq, exec_bind_ok (exec_fetchInvoices_of_calm hcalm w)]
  exact (exec_bind_ok hexamine).trans hprocess

end OnchainInvoice.SweeperWorker
