import OnchainInvoice.Node.SweepNode

/-!
# No gap in the scanned blocks

A scan goes on from the block after the last that was scanned or before it, as long as blocks overlap;
it comes to an end as long as chunks are not empty.
-/

namespace OnchainInvoice.Node

open Lib.Histories Lib.Revert Lib.Tables

variable {chain chain' : EvmChainConfig} {chains rest : List EvmChainConfig} {node node' : SweepNode}
  {b b' : Int}

/-! ## What is promised -/

abbrev runNode (chains : List EvmChainConfig) (events : List Event) : SweepNode :=
  run (step chains) SweepNode.new events

-- A number below zero counts back from the latest block, so such a query says nothing here.
def Query.covers (q : Query) (b : Int) : Prop := 0 ≤ q.fromBlock ∧ q.fromBlock ≤ b ∧ b ≤ q.toBlock

-- Whose logs a query asks for, and where.
def EvmChainConfig.source (chain : EvmChainConfig) : String × Option String × Option String :=
  (chain.key, chain.rpcUrl, chain.receiverAddress)

def Covered (chain : EvmChainConfig) (node : SweepNode) (b : Int) : Prop :=
  ∃ q ∈ node.queries, q.chain.source = chain.source ∧ q.covers b

def lastScanned (node : SweepNode) (chain : EvmChainConfig) : Option Int :=
  (node.cache.find? chain.key).bind ChainProgress.lastScannedBlock

/-- The last scanned block exceeds a block only if all from the start block to there are covered. -/
def NoGaps (chain : EvmChainConfig) (node : SweepNode) : Prop :=
  ∀ last, lastScanned node chain = some last →
    ∀ b, b < last → ∀ b', chain.start ≤ b' → b' ≤ b → Covered chain node b'

-- A scan after its first queries have come back.
def scanAfter (chain : EvmChainConfig) (scan : Option Scan) (outcomes : Nat → Outcome) :
    Nat → Option Scan
  | 0 => scan
  | n + 1 => (scanAfter chain scan outcomes n).bind fun scan => nextScan chain scan (outcomes n)

/-- Whatever its queries come to, a scan ends. -/
def Terminates (chain : EvmChainConfig) (scan : Option Scan) : Prop :=
  ∀ outcomes, ∃ n, scanAfter chain scan outcomes n = none

/-- Every run of the node leaves no gap on any chain, and every scan that it starts ends. -/
def ScansAll (chains : List EvmChainConfig) : Prop :=
  ∀ events, (∀ chain ∈ chains, NoGaps chain (runNode chains events)) ∧
    ∀ chain rest, ⟨chain :: rest, none⟩ ∈ (runNode chains events).ticks →
      ∀ head, Terminates chain (startScan chain (runNode chains events).cache head)

/-- The start is a block, chunks are not empty and blocks overlap. -/
def Scannable (chain : EvmChainConfig) : Prop :=
  0 ≤ chain.start ∧ 1 ≤ chain.chunk ∧ 1 ≤ chain.overlap

/-- Chains of one id, which share their progress, ask the same receiver from the same block on. -/
def Agreeing (chains : List EvmChainConfig) : Prop :=
  ∀ chain ∈ chains, ∀ chain' ∈ chains, chain.key = chain'.key →
    chain.source = chain'.source ∧ chain.start = chain'.start

/-! ## Termination -/

theorem going_eq_some {scan scan' : Scan} (h : scan.going = some scan') :
    scan' = scan ∧ scan.fromBlock ≤ scan.latest := by
  unfold Scan.going at h
  split at h
  · next hle =>
    cases h
    exact ⟨rfl, hle⟩
  · cases h

theorem nextScan_eq_some {scan scan' : Scan} {outcome : Outcome}
    (h : nextScan chain scan outcome = some scan') :
    outcome = .logs ∧ scan'.latest = scan.latest ∧ scan'.fromBlock = scan.toBlock chain + 1 ∧
      scan'.fromBlock ≤ scan'.latest := by
  unfold nextScan at h
  split at h
  · next hlogs =>
    obtain ⟨rfl, hle⟩ := going_eq_some h
    exact ⟨hlogs, rfl, rfl, hle⟩
  · cases h

/-- Every query brings a scan on by a block at least. -/
theorem scanAfter_advances (hchunk : 1 ≤ chain.chunk) {scan scan' : Scan}
    {outcomes : Nat → Outcome} {n : Nat}
    (h : scanAfter chain (some scan) outcomes n = some scan') (hgoing : scan.fromBlock ≤ scan.latest) :
    scan'.latest = scan.latest ∧ scan.fromBlock + n ≤ scan'.fromBlock ∧
      scan'.fromBlock ≤ scan'.latest := by
  induction n generalizing scan' with
  | zero =>
    cases h
    exact ⟨rfl, by omega, hgoing⟩
  | succ n ih =>
    obtain ⟨before, hbefore, hnext⟩ := Option.bind_eq_some_iff.mp h
    obtain ⟨hlatest, hfrom, hle⟩ := ih hbefore
    obtain ⟨-, hlatest', hfrom', hle'⟩ := nextScan_eq_some hnext
    unfold Scan.toBlock at hfrom'
    omega

theorem terminates_of_chunk (hchunk : 1 ≤ chain.chunk) (cache : Cache) (head : Nat) :
    Terminates chain (startScan chain cache head) := by
  intro outcomes
  cases hstart : startScan chain cache head with
  | none => exact ⟨0, rfl⟩
  | some scan =>
    obtain ⟨heq, hgoing⟩ := going_eq_some hstart
    rw [← heq] at hgoing
    refine ⟨(scan.latest - scan.fromBlock).toNat + 1, ?_⟩
    by_contra hne
    obtain ⟨scan', hscan'⟩ := Option.ne_none_iff_exists'.mp hne
    obtain ⟨hlatest, hfrom, hle⟩ := scanAfter_advances hchunk hscan' hgoing
    omega

/-- Empty chunks leave a scan where it is. -/
theorem scanAfter_stays (hchunk : chain.chunk ≤ 0) {scan : Scan} (hgoing : scan.fromBlock ≤ scan.latest)
    (n : Nat) : ∃ scan', scanAfter chain (some scan) (fun _ => .logs) n = some scan' ∧
      scan'.latest = scan.latest ∧ scan'.fromBlock ≤ scan'.latest := by
  induction n with
  | zero => exact ⟨scan, rfl, rfl, hgoing⟩
  | succ n ih =>
    obtain ⟨before, hbefore, hlatest, hle⟩ := ih
    have hnext : before.toBlock chain + 1 ≤ before.latest := by
      unfold Scan.toBlock
      omega
    refine ⟨⟨before.latest, before.toBlock chain + 1⟩, ?_, hlatest, hnext⟩
    unfold scanAfter
    rw [hbefore, Option.bind_some, nextScan, if_pos rfl, Scan.going, if_pos hnext]

/-! ## Coverage -/

theorem lastScanned_set (cache : Cache) (chainId : String) (block : Int) :
    ((setLastScannedBlock cache chainId block).find? chainId).bind ChainProgress.lastScannedBlock =
      some block := by
  unfold setLastScannedBlock
  rw [Table.find?_upsert, if_pos rfl]
  cases cache.find? chainId <;> rfl

theorem lastScanned_other (cache : Cache) {chainId chainId' : String} (block : Int)
    (h : chainId' ≠ chainId) :
    (setLastScannedBlock cache chainId block).find? chainId' = cache.find? chainId' := by
  unfold setLastScannedBlock
  rw [Table.find?_upsert, if_neg h]

theorem Covered.mono (h : Covered chain node b) (hsub : node.queries ⊆ node'.queries) :
    Covered chain node' b := by
  obtain ⟨q, hq, hsource, hcovers⟩ := h
  exact ⟨q, hsub hq, hsource, hcovers⟩

theorem Covered.congr (h : Covered chain node b) (hsource : chain.source = chain'.source) :
    Covered chain' node b := by
  obtain ⟨q, hq, hasked, hcovers⟩ := h
  exact ⟨q, hq, hasked.trans hsource, hcovers⟩

-- The scan of the tick has everything behind it.
structure Tick.Behind (chains : List EvmChainConfig) (node : SweepNode) (tick : Tick) : Prop where
  chains : ∀ chain ∈ tick.chains, chain ∈ chains
  scan : ∀ chain rest scan, tick = ⟨chain :: rest, some scan⟩ →
    chain.start ≤ scan.fromBlock ∧ scan.fromBlock ≤ scan.latest ∧
      ∀ b, chain.start ≤ b → b < scan.fromBlock → Covered chain node b

/-- What is behind the cursor is covered, and what is behind every scan that is under way. -/
structure Behind (chains : List EvmChainConfig) (node : SweepNode) : Prop where
  cursor : ∀ chain ∈ chains, ∀ last, lastScanned node chain = some last →
    ∀ b, chain.start ≤ b → b ≤ last → Covered chain node b
  ticks : ∀ tick ∈ node.ticks, tick.Behind chains node

theorem Tick.Behind.mono {tick : Tick} (h : tick.Behind chains node)
    (hsub : node.queries ⊆ node'.queries) : tick.Behind chains node' := by
  refine ⟨h.chains, ?_⟩
  intro chain rest scan heq
  obtain ⟨hfrom, hgoing, hbehind⟩ := h.scan chain rest scan heq
  exact ⟨hfrom, hgoing, fun b hb hbefore => (hbehind b hb hbefore).mono hsub⟩

theorem behind_over : Tick.over.Behind chains node := by
  refine ⟨fun chain hchain => ?_, fun chain rest scan heq => ?_⟩
  · cases hchain
  · cases heq

theorem behind_goOn (hchains : ∀ c ∈ chain :: rest, c ∈ chains) {scan? : Option Scan}
    (h : ∀ scan, scan? = some scan → chain.start ≤ scan.fromBlock ∧ scan.fromBlock ≤ scan.latest ∧
      ∀ b, chain.start ≤ b → b < scan.fromBlock → Covered chain node b) :
    (goOn chain rest scan?).Behind chains node := by
  cases scan? with
  | none =>
    refine ⟨fun c hc => hchains c (List.mem_cons_of_mem _ hc), ?_⟩
    intro chain' rest' scan heq
    cases heq
  | some scan =>
    refine ⟨hchains, ?_⟩
    intro chain' rest' scan' heq
    cases heq
    exact h scan rfl

theorem behind_set (h : Behind chains node) {n : Nat} {tick : Tick}
    (htick : tick.Behind chains node) :
    Behind chains { node with ticks := node.ticks.set n tick } := by
  refine ⟨h.cursor, fun tick' htick' => ?_⟩
  rcases List.mem_or_eq_of_mem_set htick' with hold | rfl
  · exact (h.ticks tick' hold).mono (List.Subset.refl _)
  · exact htick.mono (List.Subset.refl _)

theorem behind_new : Behind chains SweepNode.new := by
  refine ⟨fun chain _ last hlast => ?_, fun tick htick => ?_⟩
  · cases hlast
  · cases htick

theorem behind_head (hoverlap : ∀ chain ∈ chains, 1 ≤ chain.overlap) (h : Behind chains node)
    (n head : Nat) : Behind chains (step chains node (.head n head)) := by
  unfold step
  dsimp only
  split
  · next chain rest htick =>
    have hbehind := h.ticks _ (List.mem_of_getElem? htick)
    have hchain : chain ∈ chains := hbehind.chains chain List.mem_cons_self
    apply behind_set h
    apply behind_goOn hbehind.chains
    intro scan hscan
    obtain ⟨rfl, hgoing⟩ := going_eq_some hscan
    refine ⟨le_max_left _ _, hgoing, fun b hb hbefore => ?_⟩
    dsimp only at hbefore
    have hone := hoverlap chain hchain
    cases hlast : lastScanned node chain with
    | none =>
      unfold lastScanned at hlast
      rw [getLastScannedBlock, hlast, Option.getD_none] at hbefore
      omega
    | some last =>
      have hcursor := h.cursor chain hchain last hlast b hb
      unfold lastScanned at hlast
      rw [getLastScannedBlock, hlast, Option.getD_some] at hbefore
      exact hcursor (by omega)
  · exact h

theorem behind_answer (hstart : ∀ chain ∈ chains, 0 ≤ chain.start)
    (hchunk : ∀ chain ∈ chains, 1 ≤ chain.chunk) (hagree : Agreeing chains) (h : Behind chains node)
    (n : Nat) (outcome : Outcome) : Behind chains (step chains node (.answer n outcome)) := by
  unfold step
  dsimp only
  split
  case h_2 => exact h
  next chain rest scan htick =>
  have htickBehind := h.ticks _ (List.mem_of_getElem? htick)
  have hchain : chain ∈ chains := htickBehind.chains chain List.mem_cons_self
  obtain ⟨hfrom, hgoing, hbehind⟩ := htickBehind.scan chain rest scan rfl
  have hto : scan.fromBlock ≤ scan.toBlock chain := by
    have hone := hchunk chain hchain
    unfold Scan.toBlock
    omega
  -- What the query covers, with what was behind the scan.
  have hcovered : ∀ node' : SweepNode,
      node'.queries = node.queries ++ [⟨chain, scan.fromBlock, scan.toBlock chain⟩] →
      ∀ b, chain.start ≤ b → b ≤ scan.toBlock chain → Covered chain node' b := by
    intro node' hqueries b hb hle
    by_cases hbefore : b < scan.fromBlock
    · refine (hbehind b hb hbefore).mono fun q hq => ?_
      rw [hqueries]
      exact List.mem_append_left _ hq
    · refine ⟨⟨chain, scan.fromBlock, scan.toBlock chain⟩, ?_, rfl,
        (hstart chain hchain).trans hfrom, not_lt.mp hbefore, hle⟩
      rw [hqueries]
      exact List.mem_append_right _ List.mem_cons_self
  have hmono : node.queries ⊆ (if outcome = .queryFails then node.queries
      else node.queries ++ [⟨chain, scan.fromBlock, scan.toBlock chain⟩]) := by
    intro q hq
    split
    · exact hq
    · exact List.mem_append_left _ hq
  refine ⟨fun other hother last hlast b hb hle => ?_, fun tick' htick' => ?_⟩
  · unfold lastScanned at hlast
    dsimp only at hlast
    by_cases hlogs : outcome = .logs
    · rw [if_pos hlogs] at hlast
      by_cases hkey : other.key = chain.key
      · rw [hkey, lastScanned_set] at hlast
        cases hlast
        -- the chains of one id have the same blocks behind them
        obtain ⟨hsource, hsame⟩ := hagree chain hchain other hother hkey.symm
        exact (hcovered _ (by rw [hlogs]; rfl) b (hsame ▸ hb) hle).congr hsource
      · rw [lastScanned_other _ _ hkey] at hlast
        exact (h.cursor other hother last hlast b hb hle).mono hmono
    · rw [if_neg hlogs] at hlast
      exact (h.cursor other hother last hlast b hb hle).mono hmono
  · rcases List.mem_or_eq_of_mem_set htick' with hold | rfl
    · exact (h.ticks tick' hold).mono hmono
    · split
      · next hlogs =>
        apply behind_goOn htickBehind.chains
        intro scan' hscan'
        obtain ⟨-, -, hnext, hgoing'⟩ := nextScan_eq_some hscan'
        refine ⟨by omega, hgoing', fun b hb hbefore => ?_⟩
        exact hcovered _ (by rw [hlogs]; rfl) b hb (by omega)
      · exact behind_over

theorem behind_run (hall : ∀ chain ∈ chains, Scannable chain) (hagree : Agreeing chains)
    (events : List Event) : Behind chains (runNode chains events) := by
  refine run_invariant (I := fun _ node => Behind chains node) behind_new ?_ events
  intro _ event hbehind
  cases event with
  | tick =>
    refine ⟨hbehind.cursor, fun tick htick => ?_⟩
    rcases List.mem_append.mp htick with hold | hnew
    · exact (hbehind.ticks tick hold).mono (List.Subset.refl _)
    · rw [List.mem_singleton.mp hnew]
      refine ⟨fun chain hchain => hchain, fun chain rest scan heq => ?_⟩
      cases heq
  | head n head => exact behind_head (fun chain hchain => (hall chain hchain).2.2) hbehind n head
  | answer n outcome =>
    exact behind_answer (fun chain hchain => (hall chain hchain).1)
      (fun chain hchain => (hall chain hchain).2.1) hagree hbehind n outcome
  | fails n => exact behind_set hbehind behind_over
  | restart =>
    refine ⟨hbehind.cursor, fun tick htick => ?_⟩
    cases htick

theorem noGaps_of_behind (h : Behind chains node) (hchain : chain ∈ chains) : NoGaps chain node := by
  intro last hlast b hb b' hstart hle
  exact h.cursor chain hchain last hlast b' hstart (by omega)

/-- Where the chains are scannable and agree, none of them has a gap and every scan ends. -/
theorem scansAll_of_agreeing (hall : ∀ chain ∈ chains, Scannable chain) (hagree : Agreeing chains) :
    ScansAll chains := by
  intro events
  have hbehind := behind_run hall hagree events
  refine ⟨fun chain hchain => noGaps_of_behind hbehind hchain, ?_⟩
  intro chain rest htick head
  have hchain := (hbehind.ticks _ htick).chains chain List.mem_cons_self
  exact terminates_of_chunk (hall chain hchain).2.1 _ head

/-! ## Every configuration -/

-- The tick has got through the scans of the chains that come before `rest`.
structure Passed (before rest : List EvmChainConfig) (node node' : SweepNode) : Prop where
  ticks : node'.ticks = [⟨rest, none⟩]
  cache : ∀ id, (∀ chain ∈ before, chain.key ≠ id) → node'.cache.find? id = node.cache.find? id
  queries : ∀ q ∈ node'.queries, q ∈ node.queries ∨ q.chain ∈ before

theorem step_logs (chains : List EvmChainConfig) {scan : Scan}
    (h : node.ticks = [⟨chain :: rest, some scan⟩]) :
    step chains node (.answer 0 .logs) =
      { cache := setLastScannedBlock node.cache chain.key (scan.toBlock chain)
        ticks := [goOn chain rest (nextScan chain scan .logs)]
        queries := node.queries ++ [⟨chain, scan.fromBlock, scan.toBlock chain⟩] } := by
  unfold step
  simp only [h, List.getElem?_cons_zero, List.set_cons_zero, if_true, reduceCtorEq, if_false]

theorem step_heard (chains : List EvmChainConfig) (h : node.ticks = [⟨chain :: rest, none⟩])
    (head : Nat) :
    step chains node (.head 0 head) =
      { node with ticks := [goOn chain rest (startScan chain node.cache head)] } := by
  unfold step
  simp only [h, List.getElem?_cons_zero, List.set_cons_zero]

theorem cache_logs (chains : List EvmChainConfig) {scan : Scan}
    (h : node.ticks = [⟨chain :: rest, some scan⟩]) {id : String} (hid : ∀ c ∈ [chain], c.key ≠ id) :
    (step chains node (.answer 0 .logs)).cache.find? id = node.cache.find? id := by
  rw [step_logs chains h]
  exact lastScanned_other _ _ (hid chain (List.mem_singleton_self _)).symm

theorem queries_logs (chains : List EvmChainConfig) {scan : Scan}
    (h : node.ticks = [⟨chain :: rest, some scan⟩]) {q : Query}
    (hq : q ∈ (step chains node (.answer 0 .logs)).queries) :
    q ∈ node.queries ∨ q.chain ∈ [chain] := by
  rw [step_logs chains h] at hq
  rcases List.mem_append.mp hq with hold | hnew
  · exact .inl hold
  · rw [List.mem_singleton.mp hnew]
    exact .inr (List.mem_singleton_self _)

/-- With chunks that are not empty a scan gets through when all its queries succeed. -/
theorem scan_through (chains : List EvmChainConfig) (hchunk : 1 ≤ chain.chunk) (size : Nat)
    {scan : Scan} (hsize : (scan.latest - scan.fromBlock).toNat < size)
    (hgoing : scan.fromBlock ≤ scan.latest) (h : node.ticks = [⟨chain :: rest, some scan⟩]) :
    ∃ events, Passed [chain] rest node (run (step chains) node events) := by
  induction size generalizing node scan with
  | zero => cases hsize
  | succ size ih =>
    have hstep := step_logs chains h
    cases hnext : nextScan chain scan .logs with
    | none =>
      refine ⟨[.answer 0 .logs], ?_, fun id => cache_logs chains h, fun q => queries_logs chains h⟩
      show (step chains node (.answer 0 .logs)).ticks = _
      rw [hstep, hnext]
      rfl
    | some scan' =>
      obtain ⟨-, hlatest, hfrom, hle⟩ := nextScan_eq_some hnext
      have hticks : (step chains node (.answer 0 .logs)).ticks = [⟨chain :: rest, some scan'⟩] := by
        rw [hstep, hnext]
        rfl
      have hcloser : (scan'.latest - scan'.fromBlock).toNat < size := by
        unfold Scan.toBlock at hfrom
        omega
      obtain ⟨events, hpassed⟩ := ih hcloser hle hticks
      refine ⟨.answer 0 .logs :: events, hpassed.ticks, ?_, ?_⟩
      · intro id hid
        exact (hpassed.cache id hid).trans (cache_logs chains h hid)
      · intro q hq
        rcases hpassed.queries q hq with hold | hnew
        · exact queries_logs chains h hold
        · exact .inr hnew

theorem chain_through (chains : List EvmChainConfig) (hchunk : 1 ≤ chain.chunk)
    (h : node.ticks = [⟨chain :: rest, none⟩]) :
    ∃ events, Passed [chain] rest node (run (step chains) node events) := by
  have hheard := step_heard chains h 0
  cases hstart : startScan chain node.cache 0 with
  | none =>
    refine ⟨[.head 0 0], ?_, fun id _ => ?_, fun q hq => .inl ?_⟩
    · show (step chains node (.head 0 0)).ticks = _
      rw [hheard, hstart]
      rfl
    · show (step chains node (.head 0 0)).cache.find? id = _
      rw [hheard]
    · have hq' : q ∈ (step chains node (.head 0 0)).queries := hq
      rwa [hheard] at hq'
  | some scan =>
    obtain ⟨heq, hgoing⟩ := going_eq_some hstart
    rw [← heq] at hgoing
    rw [hstart] at hheard
    have hticks : (step chains node (.head 0 0)).ticks = [⟨chain :: rest, some scan⟩] := by
      rw [hheard]
      rfl
    obtain ⟨events, hpassed⟩ := scan_through chains hchunk _ (Nat.lt_succ_self _) hgoing hticks
    refine ⟨.head 0 0 :: events, hpassed.ticks, ?_, ?_⟩
    · intro id hid
      refine (hpassed.cache id hid).trans ?_
      rw [hheard]
    · intro q hq
      have hq' := hpassed.queries q hq
      rwa [hheard] at hq'

/-- A tick gets to any of the chains. -/
theorem chains_through (chains : List EvmChainConfig) {before : List EvmChainConfig}
    (hchunk : ∀ chain ∈ before, 1 ≤ chain.chunk) (h : node.ticks = [⟨before ++ rest, none⟩]) :
    ∃ events, Passed before rest node (run (step chains) node events) := by
  induction before generalizing node with
  | nil => exact ⟨[], h, fun _ _ => rfl, fun q hq => .inl hq⟩
  | cons chain before ih =>
    obtain ⟨events, hfirst⟩ := chain_through chains (hchunk chain List.mem_cons_self) h
    obtain ⟨later, hothers⟩ := ih (fun c hc => hchunk c (List.mem_cons_of_mem _ hc)) hfirst.ticks
    refine ⟨events ++ later, ?_⟩
    unfold run
    rw [List.foldl_append]
    refine ⟨hothers.ticks, ?_, ?_⟩
    · intro id hid
      refine (hothers.cache id fun c hc => hid c (List.mem_cons_of_mem _ hc)).trans ?_
      apply hfirst.cache id
      intro c hc
      rw [List.mem_singleton.mp hc]
      exact hid chain List.mem_cons_self
    · intro q hq
      rcases hothers.queries q hq with hold | hnew
      · rcases hfirst.queries q hold with hold | hnew
        · exact .inl hold
        · rw [List.mem_singleton.mp hnew]
          exact .inr List.mem_cons_self
      · exact .inr (List.mem_cons_of_mem _ hnew)

-- Where the first scan of a chain starts.
def EvmChainConfig.first (chain : EvmChainConfig) : Int :=
  max chain.start (chain.start - chain.overlap + 1)

-- A head that the first scan has more than one query to make below.
def farHead (chain : EvmChainConfig) : Nat :=
  (chain.first + chain.chunk.natAbs + (chain.confirmations.getD 3).natAbs).toNat

theorem startScan_farHead {cache : Cache} (hnew : cache.find? chain.key = none) : ∃ latest,
    startScan chain cache (farHead chain) = some ⟨latest, chain.first⟩ ∧
      chain.first + chain.chunk.natAbs ≤ latest := by
  have hle : chain.first + chain.chunk.natAbs ≤
      max 0 ((farHead chain : Int) - chain.confirmations.getD 3) := by
    unfold farHead
    omega
  refine ⟨_, ?_, hle⟩
  unfold startScan getLastScannedBlock
  rw [hnew]
  have hgoing : chain.first ≤ max 0 ((farHead chain : Int) - chain.confirmations.getD 3) := by
    omega
  exact if_pos hgoing

theorem chunk_of_terminates {cache : Cache} (hnew : cache.find? chain.key = none)
    (h : Terminates chain (startScan chain cache (farHead chain))) : 1 ≤ chain.chunk := by
  by_contra hchunk
  obtain ⟨latest, hscan, hle⟩ := startScan_farHead hnew
  rw [hscan] at h
  obtain ⟨n, hn⟩ := h fun _ => .logs
  have hgoing : chain.first ≤ latest := by omega
  obtain ⟨scan', hscan', -⟩ := @scanAfter_stays chain (by omega) ⟨latest, chain.first⟩ hgoing n
  rw [hn] at hscan'
  cases hscan'

/-- Blocks that do not overlap leave out the start, and no query covers a start below zero. -/
theorem start_of_noGaps (chains : List EvmChainConfig) (hchunk : 1 ≤ chain.chunk)
    (h : node.ticks = [⟨chain :: rest, none⟩]) (hnew : node.cache.find? chain.key = none)
    (hqueries : ∀ q ∈ node.queries, q.chain.key ≠ chain.key)
    (hgaps : NoGaps chain (run (step chains) node
      [.head 0 (farHead chain), .answer 0 .logs, .answer 0 .logs])) :
    0 ≤ chain.start ∧ 1 ≤ chain.overlap := by
  obtain ⟨latest, hscan, hle⟩ := startScan_farHead hnew
  let scan₁ : Scan := ⟨latest, chain.first⟩
  let scan₂ : Scan := ⟨latest, chain.first + chain.chunk⟩
  have hto : scan₁.toBlock chain + 1 = chain.first + chain.chunk := by
    show min latest (chain.first + chain.chunk - 1) + 1 = _
    omega
  have hnext : nextScan chain scan₁ .logs = some scan₂ := by
    unfold nextScan Scan.going
    rw [if_pos rfl, hto]
    exact if_pos (by show chain.first + chain.chunk ≤ latest; omega)
  have hheard : step chains node (.head 0 (farHead chain)) =
      { node with ticks := [⟨chain :: rest, some scan₁⟩] } := by
    rw [step_heard chains h, hscan]
    rfl
  have hfirst : step chains { node with ticks := [⟨chain :: rest, some scan₁⟩] } (.answer 0 .logs) =
      { cache := setLastScannedBlock node.cache chain.key (scan₁.toBlock chain)
        ticks := [⟨chain :: rest, some scan₂⟩]
        queries := node.queries ++ [⟨chain, chain.first, scan₁.toBlock chain⟩] } := by
    have hticks : ({ node with ticks := [⟨chain :: rest, some scan₁⟩] } : SweepNode).ticks =
      [⟨chain :: rest, some scan₁⟩] := rfl
    rw [step_logs chains hticks, hnext]
    rfl
  have hlater : run (step chains) node
      [.head 0 (farHead chain), .answer 0 .logs, .answer 0 .logs] =
      { cache := setLastScannedBlock (setLastScannedBlock node.cache chain.key (scan₁.toBlock chain))
          chain.key (scan₂.toBlock chain)
        ticks := [goOn chain rest (nextScan chain scan₂ .logs)]
        queries := node.queries ++ [⟨chain, chain.first, scan₁.toBlock chain⟩] ++
          [⟨chain, chain.first + chain.chunk, scan₂.toBlock chain⟩] } := by
    have hticks : (⟨setLastScannedBlock node.cache chain.key (scan₁.toBlock chain),
        [⟨chain :: rest, some scan₂⟩],
        node.queries ++ [⟨chain, chain.first, scan₁.toBlock chain⟩]⟩ : SweepNode).ticks =
      [⟨chain :: rest, some scan₂⟩] := rfl
    show step chains (step chains (step chains node (.head 0 (farHead chain))) (.answer 0 .logs))
      (.answer 0 .logs) = _
    rw [hheard, hfirst, step_logs chains hticks]
  have hstart : chain.start ≤ chain.first := le_max_left _ _
  have hlast : chain.start < scan₂.toBlock chain := by
    show _ < min latest (chain.first + chain.chunk + chain.chunk - 1)
    omega
  rw [hlater] at hgaps
  obtain ⟨q, hq, hsource, hzero, hfrom, -⟩ := hgaps _ (lastScanned_set ..) chain.start hlast
    chain.start le_rfl le_rfl
  have hkey : q.chain.key = chain.key := congrArg Prod.fst hsource
  rcases List.mem_append.mp hq with hq | hq
  · rcases List.mem_append.mp hq with hold | hq
    · exact absurd hkey (hqueries q hold)
    · rw [List.mem_singleton.mp hq] at hzero hfrom
      unfold EvmChainConfig.first at hzero hfrom
      dsimp only at hzero hfrom
      omega
  · rw [List.mem_singleton.mp hq] at hfrom
    dsimp only at hfrom
    omega

/-- Chains of their own ids that are scanned without a gap and to an end are scannable. -/
theorem scannable_of_scansAll (hids : (chains.map EvmChainConfig.key).Nodup) (h : ScansAll chains) :
    ∀ chain ∈ chains, Scannable chain := by
  -- by induction on the chains that a tick has got through
  have hprefix : ∀ before rest, chains = before ++ rest → ∀ chain ∈ before, Scannable chain := by
    intro before
    induction before using List.reverseRecOn with
    | nil =>
      intro rest _ chain hchain
      cases hchain
    | append_singleton before chain ih =>
      intro rest hchains
      rw [List.append_assoc, List.singleton_append] at hchains
      have hbefore := ih (chain :: rest) hchains
      have hticks : (step chains .new .tick).ticks = [⟨before ++ chain :: rest, none⟩] := by
        rw [← hchains]
        rfl
      obtain ⟨events, hpassed⟩ := chains_through chains (fun c hc => (hbefore c hc).2.1) hticks
      have hothers : ∀ c ∈ before, c.key ≠ chain.key := by
        intro c hc hkey
        rw [hchains, List.map_append] at hids
        apply List.disjoint_of_nodup_append hids (List.mem_map_of_mem hc)
        rw [hkey]
        exact List.mem_cons_self
      have hnew := hpassed.cache chain.key hothers
      have hqueries : ∀ q ∈ (run (step chains) (step chains .new .tick) events).queries,
          q.chain.key ≠ chain.key := by
        intro q hq
        rcases hpassed.queries q hq with hold | hmem
        · cases hold
        · exact hothers _ hmem
      have hrun : ∀ later, runNode chains (.tick :: events ++ later) =
          run (step chains) (run (step chains) (step chains .new .tick) events) later := by
        intro later
        show run (step chains) _ (events ++ later) = _
        unfold run
        rw [List.foldl_append]
      have hends := (h (.tick :: events ++ [])).2 chain rest
      rw [hrun] at hends
      have hthere : ⟨chain :: rest, none⟩ ∈
          (run (step chains) (step chains .new .tick) events).ticks := by
        rw [hpassed.ticks]
        exact List.mem_singleton_self _
      have hchunk := chunk_of_terminates hnew (hends hthere _)
      have hgaps := (h (.tick :: events ++
        [.head 0 (farHead chain), .answer 0 .logs, .answer 0 .logs])).1 chain
          (by rw [hchains]; exact List.mem_append_right _ List.mem_cons_self)
      rw [hrun] at hgaps
      obtain ⟨hstart, hoverlap⟩ := start_of_noGaps chains hchunk hpassed.ticks hnew hqueries hgaps
      intro c hc
      rcases List.mem_append.mp hc with hold | hlast
      · exact hbefore c hold
      · rw [List.mem_singleton.mp hlast]
        exact ⟨hstart, hchunk, hoverlap⟩
  exact hprefix chains [] (List.append_nil _).symm

theorem agreeing_of_nodup (hids : (chains.map EvmChainConfig.key).Nodup) : Agreeing chains := by
  intro chain hchain chain' hchain' hkey
  rw [List.inj_on_of_nodup_map hids hchain hchain' hkey]
  exact ⟨rfl, rfl⟩

/-- The logs of all chains are scanned without a gap and to an end where starts are blocks, chunks
are not empty, blocks overlap and chains of one id agree; for chains of their own ids just then. -/
theorem scans_all_iff (config : SweepNodeConfig) :
    ((∀ chain ∈ config.evmChains, Scannable chain) → Agreeing config.evmChains →
        ScansAll config.evmChains) ∧
      ((config.evmChains.map EvmChainConfig.key).Nodup →
        (ScansAll config.evmChains ↔ ∀ chain ∈ config.evmChains, Scannable chain)) := by
  refine ⟨scansAll_of_agreeing, fun hids => ⟨scannable_of_scansAll hids, fun hall => ?_⟩⟩
  exact scansAll_of_agreeing hall (agreeing_of_nodup hids)

def sampleChain (startBlock : Nat) (overlap : Option Int) : EvmChainConfig where
  id := some "chain"
  rpcUrl := some "http"
  privateKey := some "key"
  sweeperAddress := some "0xs"
  receiverAddress := some "0xr"
  startBlock := some startBlock
  confirmations := none
  logScanChunkSize := none
  logScanOverlap := overlap

def sampleConfig (chains : List EvmChainConfig) : SweepNodeConfig :=
  ⟨some "http", some "key", some "path", chains.map .evm⟩

-- Blocks do not overlap, and two chains of one id start at different blocks.
theorem start_block_left_out :
    (validateSweepNodeConfig (sampleConfig [sampleChain 100 (some 0)]) = .ok () ∧
      ¬ScansAll (sampleConfig [sampleChain 100 (some 0)]).evmChains) ∧
    validateSweepNodeConfig (sampleConfig [sampleChain 100 none, sampleChain 0 none]) = .ok () ∧
      ¬ScansAll (sampleConfig [sampleChain 100 none, sampleChain 0 none]).evmChains := by
  refine ⟨⟨by decide +kernel, fun h => ?_⟩, by decide +kernel, fun h => ?_⟩
  · have hall := scannable_of_scansAll (by decide) h (sampleChain 100 (some 0)) List.mem_cons_self
    exact absurd hall.2.2 (by decide)
  · -- the first chain scans, and the second goes on from there
    let chains : List EvmChainConfig := [sampleChain 100 none, sampleChain 0 none]
    have hgaps := (h [.tick, .head 0 200, .answer 0 .logs]).1 (sampleChain 0 none)
      (List.mem_cons_of_mem _ List.mem_cons_self)
    have hlast : lastScanned (runNode chains [.tick, .head 0 200, .answer 0 .logs])
        (sampleChain 0 none) = some 197 := by decide
    obtain ⟨q, hq, -, -, hfrom, -⟩ := hgaps 197 hlast 0 (by decide) 0 (by decide) le_rfl
    have hall : ∀ q ∈ (runNode chains [.tick, .head 0 200, .answer 0 .logs]).queries,
        q.fromBlock = 100 := by decide
    rw [hall q hq] at hfrom
    cases hfrom

end OnchainInvoice.Node
