import OnchainInvoice.Node.SweepSteps

/-!
# Which invoices a pass gets to

A pass takes the awaiting invoices that were stored last.  Each pass stores the listing anew before
it does, so the order stays as it is, and what does not fit into the batch has to wait until the
invoices in front of it have been swept.
-/

namespace OnchainInvoice.SweepPass

open Lib.Tables Lib.Histories

variable {config : Config} {s s' : State} {chain : Chain} {writes : List Write} {answer : Answer}
  {stage : Stage} {next? : Option Stage} {key : Key} {n : Nat} {cache : Cache}

/-! ## What is to hold -/

-- How many invoices a pass asks the cache for.
def Chain.batch (chain : Chain) : Nat :=
  if chain.path = .tronEoa then chain.max * 2 else chain.limit

-- How many passes it takes to look at `size` invoices, a batch of them in each.
def Chain.rounds (chain : Chain) (size : Nat) : Nat :=
  let limit := if chain.path = .tronEoa then chain.max else chain.limit
  (size + limit - 1) / limit

def sequential (s : State) : Event → Bool
  | .tick => s.idle
  | .restart => false
  | _ => true

-- As many complete passes as `count`, one after the other.
structure Window (config : Config) (events later : List Event) (count : Nat) : Prop where
  starts : (after config events).idle = true
  ends : (after config (events ++ later)).idle = true
  started : (after config (events ++ later)).started = (after config events).started + count
  apart : Each (fun pre event => sequential (after config (events ++ pre)) event = true) later

-- What the API lists.
def Event.lists (listing : List Invoice) : Event → Bool
  | .resume _ (.page invoices more) => invoices.map Prod.fst = listing && !more
  | _ => true

-- Whatever awaited its sweep has been looked at, unless it awaits no more.
def AllExamined (config : Config) (events later : List Event) (chain : Chain) : Prop :=
  ∀ row ∈ awaiting (after config events).cache chain.id,
    hasSuccessfulSweep (after config (events ++ later)).cache row.key = true ∨
      ∃ n, (n, row.key) ∈ (after config (events ++ later)).examined ∧
        (after config events).started ≤ n

-- The planner stops before the end of its list when enough invoices are funded, and by an error.
-- The pass is at the sweep that leaves `tasks` for later.
def readsOn (config : Config) (n : Nat) (tasks : List Task) (s : State) : Event → Bool
  | .resume m answer =>
    m ≠ n || (s.passes n).all fun pass =>
      pass.tasks ≠ tasks ||
        match pass.stage with
        | .eoa chain (.planning _ (invoice :: _) items) =>
          items.length < chain.max && (minAmount config invoice).isOk &&
            (match answer with | .throws _ => false | _ => true)
        | _ => true
  | _ => true

-- A pass that turns to the chain finds no more invoices that await than it asks for, and reads them
-- to the end.
def FindsAll (config : Config) (events later : List Event) (chain : Chain) : Prop :=
  ∃ pre n tasks post, later = pre ++ [.resume n .go] ++ post ∧
    (after config (events ++ pre)).passes n = some ⟨.sweep chain :: tasks, .ready⟩ ∧
    (awaiting (after config (events ++ pre)).cache chain.id).length ≤ chain.batch ∧
    Each (fun mid event => readsOn config n tasks
      (after config (events ++ (pre ++ [.resume n .go] ++ mid))) event = true) post

/-! ## Rows stay -/

theorem find?_upsertInvoice {now : Nat} {invoice : Invoice}
    (h : (cache.invoices.find? key).isSome = true) :
    ((upsertInvoice cache now invoice).invoices.find? key).isSome = true := by
  unfold upsertInvoice
  dsimp only
  rw [Table.find?_upsert]
  split
  · rfl
  · exact h

theorem find?_markInvoiceChecked {now : Nat} {key' : Key}
    (h : (cache.invoices.find? key).isSome = true) :
    ((markInvoiceChecked cache now key').invoices.find? key).isSome = true := by
  let checked (row : InvoiceRow) : InvoiceRow := { row with lastCheckedAt := some now }
  have hfind : (markInvoiceChecked cache now key').invoices.find? key =
      if key = key' then (cache.invoices.find? key).map checked else cache.invoices.find? key :=
    @Table.find?_modify _ _ _ _ cache.invoices key' key checked fun _ => rfl
  rw [hfind]
  split
  · rw [Option.isSome_map]
    exact h
  · exact h

def Stored (s : State) (key : Key) : Prop := (s.cache.invoices.find? key).isSome = true

theorem stored_writes (h : Stored s key) (writes : List Write) : Stored (s.writes n writes) key := by
  induction writes generalizing s with
  | nil => exact h
  | cons w writes ih =>
    apply ih
    cases w with
    | upsertInvoice invoice elapsed => exact find?_upsertInvoice h
    | markInvoiceChecked key' => exact find?_markInvoiceChecked h
    | upsertPaidInvoice | recordSweepAttempt | track | send | examine => exact h

theorem stored_next (h : Stored s key) (event : Event) : Stored (next config s event) key := by
  cases event with
  | wait | tick | restart | settle | move => exact h
  | resume n answer =>
    rcases next_resume config s n answer with hsame | ⟨_, writes, _, -, -, -, hnext⟩
    · rwa [hsame]
    · rw [hnext]
      exact stored_writes h writes

theorem stored_run (h : Stored s key) (events : List Event) :
    Stored (run (next config) s events) key := by
  induction events generalizing s with
  | nil => exact h
  | cons event events ih => exact ih (stored_next h event)

theorem swept_run (h : hasSuccessfulSweep s.cache key = true) (events : List Event) :
    hasSuccessfulSweep (run (next config) s events).cache key = true := by
  induction events generalizing s with
  | nil => exact h
  | cons event events ih =>
    apply ih
    cases event with
    | wait | tick | restart | settle | move => exact h
    | resume n answer =>
      rcases next_resume config s n answer with hsame | ⟨_, writes, _, -, -, -, hnext⟩
      · rwa [hsame]
      · rw [hnext]
        exact (written n s writes).swept h

/-! ## From the selection to the end of the pass -/

-- The invoices that a pass has selected and not looked at yet.
def Stage.unread : Stage → List Key
  | .sweeping _ rest _ => rest.map Invoice.key
  | .eoa _ (.planning _ unread _) => unread.map Invoice.key
  | _ => []

-- A pass has looked at the invoice or is going to, before it turns to `tasks`.
def Due (n : Nat) (tasks : List Task) (key : Key) (s : State) : Prop :=
  (n, key) ∈ s.examined ∨
    ∃ pass, s.passes n = some pass ∧ pass.tasks = tasks ∧ key ∈ pass.stage.unread

theorem mem_examinesOf (h : .examine key ∈ writes) : (n, key) ∈ examinesOf n writes :=
  List.mem_filterMap.mpr ⟨_, h, rfl⟩

theorem resume_unread (hreads : ∀ chain invoices invoice unread items,
      stage = .eoa chain (.planning invoices (invoice :: unread) items) →
        items.length < chain.max ∧ (minAmount config invoice).isOk = true ∧
          ∀ message, answer ≠ .throws message)
    (h : stage.resume config cache answer = some (writes, next?)) (hkey : key ∈ stage.unread) :
    (n, key) ∈ examinesOf n writes ∨ ∃ stage', next? = some stage' ∧ key ∈ stage'.unread := by
  cases stage with
  | ready | listing | reconciling | scanning => cases hkey
  | sweeping chain rest point =>
    rcases checkAndSweep_cases h with ⟨-, rfl, -, -⟩ | ⟨invoice, rest', rfl, rfl, rfl, rfl⟩ |
      ⟨_, _, rfl, -, rfl⟩ | ⟨_, _, _, rfl, -, rfl⟩
    · cases hkey
    · rcases List.mem_cons.mp hkey with heq | hrest
      · rw [heq]
        exact .inl (mem_examinesOf (List.mem_singleton_self _))
      · exact .inr ⟨_, rfl, hrest⟩
    · exact .inr ⟨_, rfl, hkey⟩
    · exact .inr ⟨_, rfl, hkey⟩
  | eoa chain point =>
    cases point with
    | deciding | executing | status | track => cases hkey
    | planning invoices unread items =>
      cases unread with
      | nil => cases hkey
      | cons invoice unread =>
        rcases hreads chain invoices invoice unread items rfl with ⟨hroom, hparsed, hquiet⟩
        dsimp only [Stage.resume, checkAndSweepTronEoa, planTronSweepBatch] at h
        cases answer with
        | go =>
          rw [if_neg (by simpa using hroom)] at h
          cases h
        | balance balance =>
          dsimp only at h
          rw [if_neg (Nat.not_le_of_lt hroom)] at h
          cases hamount : minAmount config invoice with
          | error message =>
            rw [hamount] at hparsed
            cases hparsed
          | ok amount =>
            rw [hamount] at h
            cases h
            rcases List.mem_cons.mp hkey with heq | hrest
            · rw [heq]
              exact .inl (mem_examinesOf (List.mem_singleton_self _))
            · exact .inr ⟨_, rfl, hrest⟩
        | throws message => exact absurd rfl (hquiet message)
        | page | payment | status | posted | log | address | sent | lost | receipt | plan => cases h

variable {tasks : List Task}

theorem Due.next (h : Due n tasks key s) (hnumbered : Numbered s) {event : Event}
    (hrestart : event ≠ .restart) (hreads : readsOn config n tasks s event = true) :
    Due n tasks key (next config s event) := by
  cases event with
  | wait | settle | move => exact h
  | restart => exact absurd rfl hrestart
  | tick =>
    rcases h with hexamined | ⟨pass, hpass, htasks, hkey⟩
    · exact .inl hexamined
    · refine .inr ⟨pass, ?_, htasks, hkey⟩
      have hne : n ≠ s.started := by
        rintro rfl
        rw [hnumbered.passes _ le_rfl] at hpass
        cases hpass
      show Function.update s.passes s.started _ n = some pass
      rwa [Function.update_of_ne hne]
  | resume m answer =>
    rcases next_resume config s m answer with hsame |
      ⟨resumed, writes, pass', hresumed, -, hresume, hnext⟩
    · rwa [hsame]
    rw [hnext]
    have hwritten := written m s writes
    have hgrows : ∀ {k : Nat}, (k, key) ∈ s.examined ∨ (k, key) ∈ examinesOf m writes →
        (k, key) ∈ ((s.writes m writes).put m pass').examined := by
      intro k hk
      show (k, key) ∈ (s.writes m writes).examined
      rw [hwritten.examined]
      exact List.mem_append.mpr hk
    rcases h with hexamined | ⟨pass, hpass, htasks, hkey⟩
    · exact .inl (hgrows (.inl hexamined))
    · by_cases hm : n = m
      · subst hm
        rw [hresumed] at hpass
        cases hpass
        rcases Pass.resume_cases hresume with ⟨hready, -, -⟩ | ⟨next?, hstage, rfl⟩
        · rw [hready] at hkey
          cases hkey
        · have hon : ∀ chain invoices invoice unread items,
              resumed.stage = .eoa chain (.planning invoices (invoice :: unread) items) →
                items.length < chain.max ∧ (minAmount config invoice).isOk = true ∧
                  ∀ message, answer ≠ .throws message := by
            intro chain invoices invoice unread items hplanning
            unfold readsOn at hreads
            dsimp only at hreads
            rw [hresumed, Option.all_some, hplanning, htasks] at hreads
            simp only [ne_eq, not_true_eq_false, decide_false, Bool.false_or, Bool.and_eq_true,
              decide_eq_true_eq] at hreads
            refine ⟨hreads.1.1, hreads.1.2, ?_⟩
            rintro message rfl
            cases hreads.2
          rcases resume_unread hon hstage hkey with hnow | ⟨stage', rfl, hlater⟩
          · exact .inl (hgrows (.inr hnow))
          · refine .inr ⟨⟨resumed.tasks, stage'⟩, ?_, htasks, hlater⟩
            exact Function.update_self ..
      · refine .inr ⟨pass, ?_, htasks, hkey⟩
        show Function.update (s.writes m writes).passes m pass' n = some pass
        rw [Function.update_of_ne hm, hwritten.passes]
        exact hpass

-- The passes that had started before are over.
structure Over (since : Nat) (s : State) : Prop where
  started : since ≤ s.started
  passes : ∀ n < since, s.passes n = none

theorem Over.next {since : Nat} (h : Over since s) (event : Event) :
    Over since (next config s event) := by
  cases event with
  | wait | settle | move => exact ⟨h.started, h.passes⟩
  | restart => exact ⟨h.started, fun _ _ => rfl⟩
  | tick =>
    refine ⟨Nat.le_succ_of_le h.started, fun n hn => ?_⟩
    have hle := h.started
    have hne : n ≠ s.started := by omega
    show Function.update s.passes s.started _ n = none
    rw [Function.update_of_ne hne]
    exact h.passes n hn
  | resume m answer =>
    rcases next_resume config s m answer with hsame |
      ⟨resumed, writes, pass', hresumed, -, -, hnext⟩
    · rwa [hsame]
    rw [hnext]
    have hwritten := written m s writes
    constructor
    case started =>
      show since ≤ (s.writes m writes).started
      rw [hwritten.started]
      exact h.started
    case passes =>
      intro n hn
      have hne : n ≠ m := by
        rintro rfl
        rw [h.passes n hn] at hresumed
        cases hresumed
      show Function.update (s.writes m writes).passes m pass' n = none
      rw [Function.update_of_ne hne, hwritten.passes]
      exact h.passes n hn

theorem Over.run {since : Nat} (h : Over since s) (events : List Event) :
    Over since (run (SweepPass.next config) s events) := by
  induction events generalizing s with
  | nil => exact h
  | cons event events ih => exact ih (h.next event)

theorem after_append (config : Config) (events later : List Event) :
    after config (events ++ later) = run (next config) (after config events) later := by
  unfold after run
  rw [List.foldl_append]

theorem after_concat (config : Config) (events : List Event) (event : Event) :
    after config (events ++ [event]) = next config (after config events) event := by
  unfold after
  rw [run_concat]

/-- What a pass selects is looked at by the time it is over. -/
theorem due_run {events post : List Event} (hdue : Due n tasks key (after config events))
    (hrestart : ∀ event ∈ post, event ≠ .restart)
    (hreads : Each (fun mid event => readsOn config n tasks (after config (events ++ mid)) event = true)
      post) : Due n tasks key (after config (events ++ post)) := by
  induction post using List.reverseRecOn with
  | nil => rwa [List.append_nil]
  | append_singleton post u ih =>
    rw [each_concat] at hreads
    have hbefore := ih (fun event hevent => hrestart event (List.mem_append_left _ hevent)) hreads.1
    rw [← List.append_assoc, after_concat]
    apply hbefore.next (numbered_after config _) _ hreads.2
    exact hrestart u (List.mem_append_right _ (List.mem_singleton_self u))

-- Nothing that awaits is left out of a selection that is short enough.
theorem mem_unread_start (config : Config) {row : InvoiceRow} (hrow : row ∈ awaiting cache chain.id)
    (hlength : (awaiting cache chain.id).length ≤ chain.batch) :
    row.key ∈ ((Task.sweep chain).start config cache).unread := by
  have hkey : row.key ∈ (listAwaitingSweepInvoices cache chain.id chain.batch).map Invoice.key :=
    List.mem_map_of_mem (mem_newest hrow hlength)
  unfold Chain.batch at hkey
  dsimp only [Task.start]
  split at hkey
  · next hpath =>
    rw [if_pos hpath]
    exact hkey
  · next hpath =>
    rw [if_neg hpath]
    exact hkey

theorem due_of_short (config : Config)
    (hpass : s.passes n = some ⟨.sweep chain :: tasks, .ready⟩)
    (hlength : (awaiting s.cache chain.id).length ≤ chain.batch) {row : InvoiceRow}
    (hrow : row ∈ awaiting s.cache chain.id) :
    Due n tasks row.key (next config s (.resume n .go)) := by
  refine .inr ⟨⟨tasks, (Task.sweep chain).start config s.cache⟩, ?_, rfl,
    mem_unread_start config hrow hlength⟩
  unfold next
  dsimp only
  rw [hpass]
  exact Function.update_self ..

theorem ne_restart_of_apart {later : List Event} {events : List Event}
    (hapart : Each (fun pre event => sequential (after config (events ++ pre)) event = true) later)
    {event : Event} (hevent : event ∈ later) : event ≠ .restart := by
  rcases List.append_of_mem hevent with ⟨pre, post, rfl⟩
  have hstep := hapart pre event ⟨post, by simp⟩
  rintro rfl
  cases hstep

/-- Where one of the passes finds no more awaiting invoices than it asks for, and reads them all,
every invoice that awaited has been looked at. -/
theorem all_examined (config : Config) (events later : List Event) (chain : Chain) (count : Nat)
    (hwindow : Window config events later count) (hfinds : FindsAll config events later chain) :
    AllExamined config events later chain := by
  intro row hrow
  rcases hfinds with ⟨pre, n, tasks, post, rfl, hpass, hlength, hreads⟩
  rcases mem_awaiting.mp hrow with ⟨hmem, hchain, -⟩
  have hnumbered := numbered_after config events
  have hnumbered' := numbered_after config (events ++ (pre ++ [.resume n .go] ++ post))
  have hstored : Stored (after config events) row.key := by
    unfold Stored
    rw [Table.find?_of_mem hmem]
    rfl
  have hstill : Stored (after config (events ++ pre)) row.key := by
    rw [after_append]
    exact stored_run hstored pre
  rcases Option.isSome_iff_exists.mp hstill with ⟨row', hrow'⟩
  have hkey : row'.key = row.key := Table.key_of_find? hrow'
  cases hswept : hasSuccessfulSweep (after config (events ++ pre)).cache row.key with
  | true =>
    -- it awaits no more when the pass selects
    refine .inl ?_
    rw [List.append_assoc pre, ← List.append_assoc events, after_append]
    exact swept_run hswept _
  | false =>
    have hawaits : row' ∈ awaiting (after config (events ++ pre)).cache chain.id := by
      refine mem_awaiting.mpr ⟨Table.mem_of_find? hrow', ?_, hkey ▸ hswept⟩
      have hfirst : row'.invoice.chainId = row.invoice.chainId := congrArg Prod.fst hkey
      rw [hfirst, hchain]
    have hdue := due_of_short config hpass hlength hawaits
    rw [hkey, ← after_concat, List.append_assoc] at hdue
    have hend : Due n tasks row.key (after config (events ++ (pre ++ [.resume n .go]) ++ post)) := by
      apply due_run hdue
      · intro event hevent
        exact ne_restart_of_apart hwindow.apart (List.mem_append_right _ hevent)
      · simpa only [List.append_assoc] using hreads
    rw [List.append_assoc] at hend
    refine .inr ⟨n, ?_, ?_⟩
    · rcases hend with hexamined | ⟨pass, hpass, -⟩
      · exact hexamined
      · rw [hnumbered'.passes_of_idle hwindow.ends] at hpass
        cases hpass
    · -- the pass has started since
      by_contra hlt
      have hover : Over (after config events).started (after config (events ++ pre)) := by
        rw [after_append]
        apply Over.run
        exact ⟨le_rfl, fun m _ => hnumbered.passes_of_idle hwindow.starts m⟩
      rw [hover.passes n (Nat.lt_of_not_le hlt)] at hpass
      cases hpass

/-! ## Passes over two invoices -/

def olderInvoice : Invoice := ⟨"1", "0x02", "0xf1", "0x", none, none, none⟩

def listing : List Invoice := [olderInvoice, evmInvoice]

-- A pass of a node that asks for one invoice at a time and finds it unfunded.
def batchOfOne : Config := ⟨[{ evmChain with sweepBatchSize := some 1 }], none, fun _ => none⟩

def idleAnswers (listed : List Invoice) : List Answer :=
  [.go, .page (listed.map fun invoice => (invoice, 1)) false, .go] ++
    listed.flatMap (fun _ => [.go, .payment unpaid]) ++
      [.go, .go, .go, .go, .go, .payment unpaid, .balance 0, .go, .go, .go]

def idlePass (n : Nat) (listed : List Invoice) : List Event :=
  .tick :: (idleAnswers listed).map (.resume n)

-- Three invoices of a wallet that sweeps one at a time: the first window pass sweeps the one in
-- front, the second finds the other two and reads both.
def eoaChain : Chain := ⟨"tron", .tronEoa, none, some 1, none, []⟩

def eoaNode : Config := ⟨[eoaChain], none, fun _ => none⟩

def eoaInvoice (id : String) : Invoice := ⟨"tron", id, "T1", "0x", none, none, none⟩

def eoaListing : List (Invoice × Nat) := ["0x01", "0x02", "0x03"].map fun id => (eoaInvoice id, 1)

def eoaPass (n : Nat) (answers : List Answer) : List Event :=
  let start : List Answer := [.go, .page eoaListing false, .go, .go, .go]
  .tick :: (start ++ answers).map (.resume n)

def eoaIdle (n : Nat) : List Event := eoaPass n [.balance 0, .balance 0, .go, .go]

def eoaSweeps (n : Nat) : List Event :=
  eoaPass n [.balance 5, .go, .plan true, .sent "h" 5, .status "paid", .posted true true, .go, .go]

theorem all_examined_eoa :
    eoaChain.max < (awaiting (after eoaNode (eoaIdle 0)).cache eoaChain.id).length ∧
      AllExamined eoaNode (eoaIdle 0) (eoaSweeps 1 ++ eoaIdle 2) eoaChain := by
  refine ⟨by decide, ?_⟩
  apply all_examined eoaNode _ _ _ 2
  · exact ⟨by decide, by decide, by decide, each_of_take (by decide)⟩
  · exact ⟨eoaSweeps 1 ++ (eoaIdle 2).take 5, 2, [], (eoaIdle 2).drop 6, rfl, rfl, by decide,
      each_of_take (by decide)⟩

-- The invoice that is stored last is in front in every pass.
theorem older_never_examined : ¬∀ config events later chain listing, chain ∈ config.chains →
    Window config events later
      (chain.rounds (awaiting (after config events).cache chain.id).length) →
    (∀ event ∈ later, event.lists listing = true) → AllExamined config events later chain := by
  intro h
  have hexamined := h batchOfOne (idlePass 0 listing) (idlePass 1 listing ++ idlePass 2 listing)
    { evmChain with sweepBatchSize := some 1 } listing (by decide)
    ⟨by decide, by decide, by decide, each_of_take (by decide)⟩ (by decide)
  have hawaits : olderInvoice.key ∈
      (awaiting (after batchOfOne (idlePass 0 listing)).cache "1").map InvoiceRow.key := by
    decide
  rcases List.mem_map.mp hawaits with ⟨row, hrow, hkey⟩
  rcases hexamined row hrow with hswept | ⟨n, hn, -⟩
  · rw [hkey] at hswept
    revert hswept
    decide
  · rw [hkey] at hn
    have hnone : ∀ pair ∈ (after batchOfOne
        (idlePass 0 listing ++ (idlePass 1 listing ++ idlePass 2 listing))).examined,
          pair.2 ≠ olderInvoice.key := by
      decide
    exact hnone _ hn rfl

end OnchainInvoice.SweepPass
