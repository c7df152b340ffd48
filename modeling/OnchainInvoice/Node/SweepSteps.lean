import OnchainInvoice.Node.SweepRuns

/-!
# What a step of the node may do

The answers that the stages of a pass take, what each of them sends, reports and records, and the
rules by which a statement about the passes is kept along a run.
-/

namespace OnchainInvoice.SweepPass

open Lib.Tables Lib.Histories

variable {config : Config} {n : Nat} {s : State}

/-! ## Passes -/

/-- A pass that is resumed either ignores the answer or does what it comes to. -/
theorem next_resume (config : Config) (s : State) (n : Nat) (answer : Answer) :
    next config s (.resume n answer) = s ∨
      ∃ pass writes pass', s.passes n = some pass ∧ s.possible pass.stage answer = true ∧
        pass.resume config s.cache answer = some (writes, pass') ∧
        next config s (.resume n answer) = (s.writes n writes).put n pass' := by
  unfold next
  dsimp only
  cases hpass : s.passes n with
  | none => exact .inl rfl
  | some pass =>
    dsimp only
    split
    · next hpossible =>
      cases hresume : pass.resume config s.cache answer with
      | none => exact .inl rfl
      | some resumed => exact .inr ⟨pass, _, _, rfl, hpossible, hresume, rfl⟩
    · exact .inl rfl

variable {cache : Cache} {pass : Pass} {pass' : Option Pass} {answer : Answer} {writes : List Write}
  {chain : Chain} {rest : List Invoice} {point : Sweep} {next? : Option Stage}

/-- A pass goes on to its next task or from its stage. -/
theorem Pass.resume_cases (h : pass.resume config cache answer = some (writes, pass')) :
    (pass.stage = .ready ∧ writes = [] ∧ ∀ p, pass' = some p → ∃ task ∈ pass.tasks,
        p.stage = task.start config cache ∧ pass.tasks = task :: p.tasks) ∨
      ∃ next?, pass.stage.resume config cache answer = some (writes, next?) ∧
        pass' = next?.map fun stage => ⟨pass.tasks, stage⟩ := by
  unfold Pass.resume at h
  split at h
  · next hready _ =>
    cases h
    exact .inl ⟨hready, rfl, fun p hp => by cases hp⟩
  · next hready htasks =>
    cases h
    refine .inl ⟨hready, rfl, fun p hp => ?_⟩
    cases hp
    rw [htasks]
    exact ⟨_, List.mem_cons_self .., rfl, rfl⟩
  · rcases Option.map_eq_some_iff.mp h with ⟨resumed, hresumed, heq⟩
    cases heq
    exact .inr ⟨_, hresumed, rfl⟩

def mannerOf (chain : Chain) : Manner :=
  if chain.path = .evm then evmManner chain else tronManner chain

theorem waits_mannerOf : (mannerOf chain).waits = decide (chain.path = .evm) := by
  unfold mannerOf
  split
  · next hpath => simp [evmManner, hpath]
  · next hpath => simp [tronManner, hpath]

/-- The loop of `checkAndSweep`: its head, what is done with an attempt, and the attempt itself. -/
theorem checkAndSweep_cases
    (h : checkAndSweep config cache chain rest point answer = some (writes, next?)) :
    (point = .next ∧ rest = [] ∧ writes = [] ∧ next? = some .ready) ∨
      (∃ invoice rest', point = .next ∧ rest = invoice :: rest' ∧
        writes = [.examine invoice.key] ∧
        next? = some (.sweeping chain rest' (.trying invoice .asked))) ∨
      (∃ invoice attempt, point = .trying invoice (.returned attempt) ∧
        writes = [.recordSweepAttempt attempt, .markInvoiceChecked invoice.key] ∧
        next? = some (.sweeping chain rest .next)) ∨
      ∃ invoice t t', point = .trying invoice t ∧
        trySweep config cache (mannerOf chain) invoice t answer = some (writes, t') ∧
        next? = some (.sweeping chain rest (.trying invoice t')) := by
  unfold checkAndSweep at h
  split at h
  · split at h <;> cases h
    · exact .inl ⟨rfl, rfl, rfl, rfl⟩
    · exact .inr (.inl ⟨_, _, rfl, rfl, rfl, rfl⟩)
  · cases h
    exact .inr (.inr (.inl ⟨_, _, rfl, rfl, rfl⟩))
  · rcases Option.map_eq_some_iff.mp h with ⟨tried, htried, heq⟩
    cases heq
    refine .inr (.inr (.inr ⟨_, _, _, rfl, ?_, rfl⟩))
    unfold mannerOf
    split at htried
    · next hpath =>
      rw [if_pos hpath]
      exact htried
    · next hpath =>
      rw [if_neg hpath]
      exact htried
  · cases h

theorem Written.swept {s' : State} {key : Key} (h : Written n writes s s')
    (hswept : hasSuccessfulSweep s.cache key = true) : hasSuccessfulSweep s'.cache key = true := by
  rw [hasSuccessfulSweep_iff] at hswept ⊢
  rcases hswept with ⟨attempt, hattempt, hboth⟩
  refine ⟨attempt, ?_, hboth⟩
  rw [h.attempts]
  exact List.mem_append_left _ hattempt

-- The passes are numbered as they start.
structure Numbered (s : State) : Prop where
  passes : ∀ n, s.started ≤ n → s.passes n = none
  posts : ∀ post ∈ s.posts, post.pass < s.started

theorem numbered_next (h : Numbered s) (event : Event) : Numbered (next config s event) := by
  cases event with
  | wait ms | settle hash status | move key => exact ⟨h.passes, h.posts⟩
  | restart => exact ⟨fun n _ => rfl, h.posts⟩
  | tick =>
    constructor
    case passes =>
      intro n (hn : s.started + 1 ≤ n)
      have hne : n ≠ s.started := by omega
      show Function.update s.passes s.started _ n = none
      rw [Function.update_of_ne hne]
      exact h.passes n (by omega)
    case posts => exact fun post hpost => Nat.lt_succ_of_lt (h.posts post hpost)
  | resume n answer =>
    rcases next_resume config s n answer with hsame |
      ⟨pass, writes, pass', hpass, -, hresume, hnext⟩
    · rwa [hsame]
    rw [hnext]
    have hwritten := written n s writes
    have hlt : n < s.started := by
      by_contra hle
      rw [h.passes n (Nat.le_of_not_lt hle)] at hpass
      cases hpass
    have hposts : ∀ post ∈ postsOf n writes, post.pass = n := by
      intro post hpost
      rcases List.mem_filterMap.mp hpost with ⟨w, -, heq⟩
      cases w <;> cases heq
      rfl
    constructor
    case passes =>
      intro m (hm : (s.writes n writes).started ≤ m)
      rw [hwritten.started] at hm
      have hne : m ≠ n := by omega
      show Function.update (s.writes n writes).passes n pass' m = none
      rw [Function.update_of_ne hne, hwritten.passes]
      exact h.passes m hm
    case posts =>
      intro post (hpost : post ∈ (s.writes n writes).posts)
      show post.pass < (s.writes n writes).started
      rw [hwritten.posts] at hpost
      rw [hwritten.started]
      rcases List.mem_append.mp hpost with hold | hnew
      · exact h.posts post hold
      · rwa [hposts post hnew]

theorem numbered_after (config : Config) (events : List Event) : Numbered (after config events) := by
  induction events using List.reverseRecOn with
  | nil => exact ⟨fun n _ => rfl, fun post hpost => absurd hpost List.not_mem_nil⟩
  | append_singleton events event ih =>
    unfold after
    rw [run_concat]
    exact numbered_next ih event

theorem Numbered.passes_of_idle (h : Numbered s) (hidle : s.idle = true) (n : Nat) :
    s.passes n = none := by
  by_cases hn : n < s.started
  · exact Option.isNone_iff_eq_none.mp (List.all_eq_true.mp hidle n (List.mem_range.mpr hn))
  · exact h.passes n (Nat.le_of_not_lt hn)

/-! ## What an answer does -/

@[simp] theorem attemptsOf_upsertInvoice (invoices : List (Invoice × Nat)) :
    attemptsOf (invoices.map fun listed => .upsertInvoice listed.1 listed.2) = [] := by
  unfold attemptsOf
  rw [List.filterMap_map]
  exact List.filterMap_eq_nil_iff.mpr fun _ _ => rfl

@[simp] theorem attemptsOf_markChecked (invoices : List Invoice) :
    attemptsOf (markChecked chain invoices) = [] := by
  unfold attemptsOf markChecked
  rw [List.filterMap_map]
  exact List.filterMap_eq_nil_iff.mpr fun _ _ => rfl

theorem attemptsOf_trySweep {manner : Manner} {invoice : Invoice} {t t' : Try}
    (h : trySweep config cache manner invoice t answer = some (writes, t')) :
    attemptsOf writes = [] := by
  unfold trySweep at h
  split at h <;> cases h <;> rfl

-- A transaction goes out for the invoice that the pass is at, under the hash of the answer, and a
-- report is about that invoice and as accepted as the answer says.
structure Effects (stage : Stage) (answer : Answer) (writes : List Write) : Prop where
  sends : sendsOf writes = [] ∨ ∃ hash key, sendsOf writes = [⟨hash, key, .pending⟩] ∧
    stage.current = some key ∧
      ((∃ amount, answer = .sent hash amount) ∨ ∃ message, answer = .lost hash message)
  posts : ∀ n, postsOf n writes = [] ∨ ∃ key body accepted answered,
    postsOf n writes = [⟨n, key, body, accepted⟩] ∧ stage.current = some key ∧
      answer = .posted accepted answered

theorem effects_quiet {stage : Stage} (hsends : sendsOf writes = [])
    (hposts : ∀ n, postsOf n writes = []) : Effects stage answer writes :=
  ⟨.inl hsends, fun n => .inl (hposts n)⟩

theorem effects_upsertInvoice {stage : Stage} (invoices : List (Invoice × Nat)) :
    Effects stage answer (invoices.map fun listed => .upsertInvoice listed.1 listed.2) := by
  apply effects_quiet
  · unfold sendsOf
    rw [List.filterMap_map]
    exact List.filterMap_eq_nil_iff.mpr fun _ _ => rfl
  · intro n
    unfold postsOf
    rw [List.filterMap_map]
    exact List.filterMap_eq_nil_iff.mpr fun _ _ => rfl

theorem effects_markChecked {stage : Stage} (invoices : List Invoice) :
    Effects stage answer (markChecked chain invoices) := by
  unfold markChecked
  apply effects_quiet
  · unfold sendsOf
    rw [List.filterMap_map]
    exact List.filterMap_eq_nil_iff.mpr fun _ _ => rfl
  · intro n
    unfold postsOf
    rw [List.filterMap_map]
    exact List.filterMap_eq_nil_iff.mpr fun _ _ => rfl

theorem effects_trySweep {manner : Manner} {invoice : Invoice} {t t' : Try}
    (h : trySweep config cache manner invoice t answer = some (writes, t')) :
    Effects (.sweeping chain rest (.trying invoice t)) answer writes := by
  unfold trySweep at h
  split at h <;> cases h
  case h_5.refl => exact ⟨.inl rfl, fun n => .inr ⟨_, _, _, _, rfl, rfl, rfl⟩⟩
  case h_7.refl => exact ⟨.inr ⟨_, _, rfl, rfl, .inl ⟨_, rfl⟩⟩, fun n => .inl rfl⟩
  case h_8.refl => exact ⟨.inr ⟨_, _, rfl, rfl, .inr ⟨_, rfl⟩⟩, fun n => .inl rfl⟩
  case h_11.refl => exact ⟨.inl rfl, fun n => .inr ⟨_, _, _, _, rfl, rfl, rfl⟩⟩
  all_goals exact effects_quiet rfl fun n => rfl

theorem effects_plan {stage : Stage} {invoices unread : List Invoice} {items : List Item}
    (h : planTronSweepBatch config chain invoices unread items answer = some (writes, next?)) :
    Effects stage answer writes := by
  unfold planTronSweepBatch at h
  split at h
  · split at h
    · split at h <;> cases h
      · exact effects_markChecked invoices
      · exact effects_quiet rfl fun n => rfl
    · cases h
  · split at h
    · cases h
    · split at h
      · cases h
      · split at h <;> cases h <;> exact effects_quiet rfl fun n => rfl
  · cases h
    exact effects_quiet rfl fun n => rfl
  · cases h

theorem effects_resume {stage : Stage} (h : stage.resume config cache answer = some (writes, next?)) :
    Effects stage answer writes := by
  cases stage with
  | ready => cases h
  | listing =>
    dsimp only [Stage.resume, syncInvoices] at h
    split at h <;> cases h
    · exact effects_upsertInvoice _
    · exact effects_quiet rfl fun n => rfl
  | reconciling chain rest point =>
    dsimp only [Stage.resume, reconcileReceiverPaymentState] at h
    split at h
    · split at h <;> cases h <;> exact effects_quiet rfl fun n => rfl
    · split at h <;> cases h
      · split <;> exact effects_quiet rfl fun n => rfl
      · exact effects_quiet rfl fun n => rfl
    · cases h
      exact effects_quiet rfl fun n => rfl
    · cases h
      split <;> exact ⟨.inl rfl, fun n => .inr ⟨_, _, _, _, rfl, rfl, rfl⟩⟩
    all_goals cases h
    · exact effects_quiet rfl fun n => rfl
    · exact effects_quiet rfl fun n => rfl
  | scanning chain point =>
    dsimp only [Stage.resume, scanPaidLogs] at h
    split at h <;> cases h <;> exact effects_quiet rfl fun n => rfl
  | sweeping chain rest point =>
    rcases checkAndSweep_cases h with ⟨-, -, rfl, -⟩ | ⟨_, _, -, -, rfl, -⟩ | ⟨_, _, -, rfl, -⟩ |
      ⟨_, _, _, rfl, htry, -⟩
    · exact effects_quiet rfl fun n => rfl
    · exact effects_quiet rfl fun n => rfl
    · exact effects_quiet rfl fun n => rfl
    · exact effects_trySweep htry
  | eoa chain point =>
    dsimp only [Stage.resume, checkAndSweepTronEoa] at h
    split at h
    case h_1 => exact effects_plan h
    all_goals cases h
    case h_2.refl => exact effects_markChecked _
    case h_6.refl => exact ⟨.inr ⟨_, _, rfl, rfl, .inl ⟨_, rfl⟩⟩, fun n => .inl rfl⟩
    case h_7.refl => exact ⟨.inr ⟨_, _, rfl, rfl, .inr ⟨_, rfl⟩⟩, fun n => .inl rfl⟩
    case h_9.refl => exact ⟨.inl rfl, fun n => .inr ⟨_, _, _, _, rfl, rfl, rfl⟩⟩
    all_goals exact effects_quiet rfl fun n => rfl

/-! ## The invoices of a stage -/

-- The invoice that a pass is at, and those that it has still to sweep.
def Stage.keys : Stage → List Key
  | .reconciling _ _ (.asked invoice) | .reconciling _ _ (.status invoice _)
  | .reconciling _ _ (.track invoice _) => [invoice.key]
  | .sweeping _ rest .next => rest.map Invoice.key
  | .sweeping _ rest (.trying invoice _) => invoice.key :: rest.map Invoice.key
  | .eoa _ (.planning _ unread items) =>
    items.map (fun item => item.invoice.key) ++ unread.map Invoice.key
  | .eoa _ (.deciding _ items) | .eoa _ (.executing items) =>
    items.map fun item => item.invoice.key
  | .eoa _ (.status item _ _ items) | .eoa _ (.track item _ _ items) =>
    item.invoice.key :: items.map fun item => item.invoice.key
  | _ => []

theorem current_mem_keys {stage : Stage} {key : Key} (h : stage.current = some key) :
    key ∈ stage.keys := by
  unfold Stage.current at h
  split at h <;> cases h
  · exact List.mem_cons_self ..
  · exact List.mem_cons_self ..
  · exact List.mem_cons_self ..
  · exact List.mem_cons_self ..
  · exact List.mem_append_right _ (List.mem_cons_self ..)
  · exact List.mem_cons_self ..
  · exact List.mem_cons_self ..
  · exact List.mem_cons_self ..

-- Invoices are only dropped, but for one that the reconciliation takes up, which is not swept.
def KeysFrom (cache : Cache) (stage : Stage) (next? : Option Stage) : Prop :=
  ∀ stage', next? = some stage' → stage'.keys.Sublist stage.keys ∨
    ∃ key, stage'.keys = [key] ∧ hasSuccessfulSweep cache key = false

theorem keysFrom_sublist {stage stage' : Stage} (h : stage'.keys.Sublist stage.keys) :
    KeysFrom cache stage (some stage') := by
  rintro stage'' heq
  cases heq
  exact .inl h

theorem keysFrom_over {stage : Stage} : KeysFrom cache stage none := by
  rintro stage' heq
  cases heq

theorem keys_plan {invoices unread : List Invoice} {items : List Item}
    (h : planTronSweepBatch config chain invoices unread items answer = some (writes, next?)) :
    KeysFrom cache (.eoa chain (.planning invoices unread items)) next? := by
  unfold planTronSweepBatch at h
  split at h
  · split at h
    · split at h <;> cases h
      · exact keysFrom_sublist (List.nil_sublist _)
      · exact keysFrom_sublist (List.sublist_append_left ..)
    · cases h
  · split at h
    · cases h
    · split at h
      · cases h
      · split at h <;> cases h
        · exact keysFrom_over
        · apply keysFrom_sublist
          split
          · exact List.Sublist.append_left (List.sublist_cons_self ..) _
          · show (List.map _ (items ++ [_]) ++ _).Sublist _
            rw [List.map_append, List.append_assoc]
            exact List.Sublist.refl _
  · cases h
    exact keysFrom_over
  · cases h

/-- What becomes of the invoices of a stage. -/
theorem keys_resume {stage : Stage} (h : stage.resume config cache answer = some (writes, next?)) :
    KeysFrom cache stage next? := by
  cases stage with
  | ready => cases h
  | listing =>
    dsimp only [Stage.resume, syncInvoices] at h
    split at h <;> cases h
    · apply keysFrom_sublist
      split <;> exact List.nil_sublist _
    · exact keysFrom_over
  | reconciling chain rest point =>
    dsimp only [Stage.resume, reconcileReceiverPaymentState] at h
    split at h
    · split at h <;> cases h
      · exact keysFrom_sublist (List.nil_sublist _)
      · -- the head of the loop leaves out what has been swept
        rintro stage' heq
        cases heq
        split
        · exact .inl (List.nil_sublist _)
        · next hswept =>
          rw [Bool.not_eq_true] at hswept
          exact .inr ⟨_, rfl, hswept⟩
    · split at h <;> cases h
      · exact keysFrom_sublist (List.Sublist.refl _)
      · exact keysFrom_sublist (List.nil_sublist _)
    all_goals cases h
    · exact keysFrom_sublist (List.Sublist.refl _)
    · exact keysFrom_sublist (List.nil_sublist _)
    · exact keysFrom_sublist (List.nil_sublist _)
    · exact keysFrom_sublist (List.nil_sublist _)
  | scanning chain point =>
    dsimp only [Stage.resume, scanPaidLogs] at h
    split at h <;> cases h
    · exact keysFrom_sublist (List.nil_sublist _)
    · apply keysFrom_sublist
      split <;> exact List.nil_sublist _
    · exact keysFrom_sublist (List.nil_sublist _)
    · exact keysFrom_sublist (List.nil_sublist _)
    · exact keysFrom_over
  | sweeping chain rest point =>
    rcases checkAndSweep_cases h with ⟨-, -, -, rfl⟩ | ⟨_, _, rfl, rfl, -, rfl⟩ |
      ⟨_, _, rfl, -, rfl⟩ | ⟨_, _, _, rfl, -, rfl⟩
    · exact keysFrom_sublist (List.nil_sublist _)
    · exact keysFrom_sublist (List.Sublist.refl _)
    · exact keysFrom_sublist (List.sublist_cons_self ..)
    · exact keysFrom_sublist (List.Sublist.refl _)
  | eoa chain point =>
    dsimp only [Stage.resume, checkAndSweepTronEoa] at h
    split at h
    case h_1 => exact keys_plan h
    all_goals cases h
    · exact keysFrom_sublist (List.nil_sublist _)
    · exact keysFrom_sublist (List.Sublist.refl _)
    · exact keysFrom_over
    · exact keysFrom_sublist (List.nil_sublist _)
    · exact keysFrom_sublist (List.Sublist.refl _)
    · exact keysFrom_sublist (List.sublist_cons_self ..)
    · exact keysFrom_sublist (List.Sublist.refl _)
    · exact keysFrom_sublist (List.sublist_cons_self ..)
    · exact keysFrom_sublist (List.sublist_cons_self ..)
    · exact keysFrom_sublist (List.sublist_cons_self ..)

/-- A task takes up invoices that are not swept, none of them twice. -/
theorem keys_start (task : Task) : (∀ key ∈ (task.start config cache).keys,
    hasSuccessfulSweep cache key = false) ∧ (task.start config cache).keys.Nodup := by
  have hlisted : ∀ chainId limit, (∀ key ∈
      (listAwaitingSweepInvoices cache chainId limit).map Invoice.key,
        hasSuccessfulSweep cache key = false) := by
    intro chainId limit key hkey
    rcases List.mem_map.mp hkey with ⟨invoice, hinvoice, rfl⟩
    exact not_swept_of_listed hinvoice
  have hnone : (∀ key ∈ ([] : List Key), hasSuccessfulSweep cache key = false) ∧
      ([] : List Key).Nodup := ⟨fun key hkey => absurd hkey List.not_mem_nil, List.nodup_nil⟩
  cases task with
  | sync => exact hnone
  | reconcile chain | scan chain =>
    dsimp only [Task.start]
    split <;> exact hnone
  | sweep chain =>
    dsimp only [Task.start]
    split
    · exact ⟨hlisted _ _, nodup_listAwaiting⟩
    · exact ⟨hlisted _ _, nodup_listAwaiting⟩

/-! ## Rules for runs -/

-- `I` holds of every state and `J` of the stage of every pass, as long as the steps are as `C` says.
structure Rules (config : Config) (C : State → Event → Prop) (I : State → Prop)
    (J : State → Nat → Stage → Prop) : Prop where
  ready : ∀ s n, J s n .ready
  start : ∀ s n task, I s → J s n (Task.start config s.cache task)
  -- neither is about the passes themselves or the time
  frame : ∀ s s', s'.cache = s.cache → s'.txs = s.txs → s'.moved = s.moved → s'.posts = s.posts →
    I s → I s' ∧ ∀ n stage, J s n stage → J s' n stage
  settle : ∀ s hash status, I s → I (next config s (.settle hash status)) ∧
    ∀ n stage, J s n stage → J (next config s (.settle hash status)) n stage
  move : ∀ s key, I s → I (next config s (.move key)) ∧
    ∀ n stage, J s n stage → J (next config s (.move key)) n stage
  others : ∀ n m s s' writes stage, Written n writes s s' → J s m stage → J s' m stage
  resume : ∀ n s s' pass answer writes next?, s.passes n = some pass → I s → J s n pass.stage →
    C s (.resume n answer) → s.possible pass.stage answer = true →
    pass.stage.resume config s.cache answer = some (writes, next?) → Written n writes s s' →
    I s' ∧ ∀ stage', next? = some stage' → J s' n stage'

structure Holds (I : State → Prop) (J : State → Nat → Stage → Prop) (s : State) : Prop where
  state : I s
  passes : ∀ n pass, s.passes n = some pass → J s n pass.stage

variable {C : State → Event → Prop} {I : State → Prop} {J : State → Nat → Stage → Prop}

theorem Rules.holds_resume (rules : Rules config C I J) (h : Holds I J s)
    (hC : C s (.resume n answer)) : Holds I J (next config s (.resume n answer)) := by
  rcases next_resume config s n answer with hsame |
    ⟨pass, writes, pass', hpass, hpossible, hresume, hnext⟩
  · rwa [hsame]
  rw [hnext]
  have hwritten := written n s writes
  -- what the pass itself comes to
  have hown : I (s.writes n writes) ∧ ∀ p, pass' = some p → J (s.writes n writes) n p.stage := by
    rcases Pass.resume_cases hresume with ⟨-, rfl, hstart⟩ | ⟨next?, hstage, rfl⟩
    · refine ⟨h.state, fun p hp => ?_⟩
      rcases hstart p hp with ⟨task, -, hstage, -⟩
      rw [hstage]
      exact rules.start s n task h.state
    · have hboth := rules.resume n s _ pass answer writes next? hpass h.state
        (h.passes n pass hpass) hC hpossible hstage hwritten
      refine ⟨hboth.1, fun p hp => ?_⟩
      rcases Option.map_eq_some_iff.mp hp with ⟨stage', hstage', rfl⟩
      exact hboth.2 stage' hstage'
  have hput := rules.frame (s.writes n writes) ((s.writes n writes).put n pass') rfl rfl rfl rfl
    hown.1
  constructor
  case state => exact hput.1
  case passes =>
    intro m p hp
    have hp' : Function.update (s.writes n writes).passes n pass' m = some p := hp
    rw [Function.update_apply] at hp'
    split at hp'
    · next heq =>
      rw [heq]
      exact hput.2 _ _ (hown.2 p hp')
    · rw [hwritten.passes] at hp'
      exact hput.2 _ _ (rules.others n m s _ writes _ hwritten (h.passes m p hp'))

theorem Rules.holds_next (rules : Rules config C I J) (h : Holds I J s) (event : Event)
    (hC : C s event) : Holds I J (next config s event) := by
  cases event with
  | wait ms =>
    have hframe := rules.frame s (next config s (.wait ms)) rfl rfl rfl rfl h.state
    exact ⟨hframe.1, fun m pass hpass => hframe.2 _ _ (h.passes m pass hpass)⟩
  | tick =>
    have hframe := rules.frame s (next config s .tick) rfl rfl rfl rfl h.state
    refine ⟨hframe.1, fun m pass hpass => ?_⟩
    have hpass' : Function.update s.passes s.started (some ⟨runOnce config, .ready⟩) m =
        some pass := hpass
    rw [Function.update_apply] at hpass'
    split at hpass'
    · cases hpass'
      exact rules.ready _ _
    · exact hframe.2 _ _ (h.passes m pass hpass')
  | restart =>
    have hframe := rules.frame s (next config s .restart) rfl rfl rfl rfl h.state
    exact ⟨hframe.1, fun m pass hpass => by cases hpass⟩
  | settle hash status =>
    have hsettle := rules.settle s hash status h.state
    exact ⟨hsettle.1, fun m pass hpass => hsettle.2 _ _ (h.passes m pass hpass)⟩
  | move key =>
    have hmove := rules.move s key h.state
    exact ⟨hmove.1, fun m pass hpass => hmove.2 _ _ (h.passes m pass hpass)⟩
  | resume n answer => exact rules.holds_resume h hC

/-- What the rules keep holds of every state of a run. -/
theorem Rules.holds (rules : Rules config C I J) (h : Holds I J s) (events : List Event)
    (hC : Each (fun pre event => C (run (next config) s pre) event) events) :
    Holds I J (run (next config) s events) := by
  induction events using List.reverseRecOn with
  | nil => exact h
  | append_singleton events event ih =>
    rw [each_concat] at hC
    rw [run_concat]
    exact rules.holds_next (ih hC.1) event hC.2

theorem holds_initial (h : I .initial) : Holds I J .initial :=
  ⟨h, fun n pass hpass => by cases hpass⟩

end OnchainInvoice.SweepPass
