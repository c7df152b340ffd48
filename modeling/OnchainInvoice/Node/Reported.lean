import OnchainInvoice.Node.SweepSteps

/-!
# What a swept attempt says about the report

The sweeping paths record a sweep whatever has become of its report, and an invoice that is recorded
as swept is never reported again.
-/

namespace OnchainInvoice.SweepPass

open Lib.Tables Lib.Histories

variable {config : Config} {s s' : State} {chain : Chain} {invoice : Invoice} {writes : List Write}
  {answer : Answer} {t t' : Try} {stage : Stage} {next? : Option Stage} {key : Key} {n : Nat}
  {txId : Option String}

/-! ## What is to hold -/

-- The API has accepted a track of this transaction, or of none when the payment was found there.
def Accepted (s : State) (key : Key) (txId : Option String) : Prop :=
  ∃ post ∈ s.posts, post.accepted = true ∧ post.key = key ∧ post.body.tx.map TxReport.txHash = txId

-- A pass that starts later posts it in some continuation of the run.
def PostedAgain (config : Config) (events : List Event) (key : Key) : Prop :=
  ∃ later, ∃ post ∈ (after config (events ++ later)).posts,
    (after config events).started ≤ post.pass ∧ post.key = key

def Reported (config : Config) (events : List Event) : Prop :=
  ∀ attempt ∈ (after config events).cache.sweepAttempts, attempt.status = .swept →
    Accepted (after config events) attempt.key attempt.txId ∨ PostedAgain config events attempt.key

-- The paths that sweep, not the reconciliation.
def Stage.reportsSweep : Stage → Bool
  | .sweeping _ _ (.trying _ (.paidTrack _)) | .sweeping _ _ (.trying _ (.track ..))
  | .eoa _ (.track ..) => true
  | _ => false

def acceptedReport (s : State) : Event → Bool
  | .resume n (.posted accepted _) =>
    accepted || !(s.passes n).any fun pass => pass.stage.reportsSweep
  | _ => true

/-! ## What a pass knows -/

def Try.Reports (s : State) : Try → Prop
  | .paidTrack body => body.tx = none
  | .track sent body => body.tx.map TxReport.txHash = some sent.txHash
  | .returned attempt => attempt.status = .swept → Accepted s attempt.key attempt.txId
  | _ => True

def Stage.Reports (s : State) : Stage → Prop
  | .reconciling _ _ (.track _ body) => body.tx = none
  | .sweeping _ _ (.trying _ t) => t.Reports s
  | .eoa _ (.track _ hash body _) => body.tx.map TxReport.txHash = some hash
  | _ => True

theorem Accepted.mono (h : Accepted s key txId) (hposts : s.posts ⊆ s'.posts) :
    Accepted s' key txId := by
  rcases h with ⟨post, hpost, hboth⟩
  exact ⟨post, hposts hpost, hboth⟩

theorem Stage.Reports.mono (h : stage.Reports s) (hposts : s.posts ⊆ s'.posts) :
    stage.Reports s' := by
  cases stage with
  | reconciling _ _ point => cases point <;> exact h
  | sweeping _ _ point =>
    cases point with
    | next => trivial
    | trying _ t =>
      cases t with
      | returned attempt => exact fun hswept => (h hswept).mono hposts
      | asked | paidStatus | paidTrack | balance | sweep | wait | status | track => exact h
  | eoa _ point => cases point <;> exact h
  | ready | listing | scanning => trivial

theorem Written.posts_subset (h : Written n writes s s') : s.posts ⊆ s'.posts := by
  rw [h.posts]
  exact List.subset_append_left ..

theorem Written.accepted {body : TrackBody} (h : Written n writes s s')
    (htrack : .track key body true ∈ writes) : Accepted s' key (body.tx.map TxReport.txHash) := by
  refine ⟨⟨n, key, body, true⟩, ?_, rfl, rfl, rfl⟩
  rw [h.posts]
  exact List.mem_append_right _ (List.mem_filterMap.mpr ⟨_, htrack, rfl⟩)

theorem skipped_mannerOf (paid : Option PaidInvoice) (status : String) :
    ((mannerOf chain).skipped paid status).tx = none := by
  unfold mannerOf
  split <;> rfl

theorem swept_mannerOf (sent : Sent) (paid : Option PaidInvoice) (status : String) :
    ((mannerOf chain).swept sent paid status).tx.map TxReport.txHash = some sent.txHash := by
  unfold mannerOf
  split <;> rfl

theorem accepted_failed (message : String) : (failed invoice message).status = .swept →
    Accepted s (failed invoice message).key (failed invoice message).txId := by
  intro hswept
  cases hswept

theorem trySweep_reports {rest : List Invoice} (ht : t.Reports s)
    (haccepted : ∀ accepted answered, answer = .posted accepted answered →
      (Stage.sweeping chain rest (.trying invoice t)).reportsSweep = true → accepted = true)
    (h : trySweep config s.cache (mannerOf chain) invoice t answer = some (writes, t'))
    (hwritten : Written n writes s s') : t'.Reports s' := by
  unfold trySweep at h
  split at h <;> cases h
  · split <;> trivial
  · exact skipped_mannerOf ..
  · trivial
  · trivial
  · -- the payment has been reported
    intro _
    have htrue := haccepted _ _ rfl rfl
    subst htrue
    have hreport := hwritten.accepted (List.mem_singleton_self _)
    rwa [show TrackBody.tx _ = none from ht] at hreport
  · split
    · exact accepted_failed _
    · split
      · exact fun hswept => by cases hswept
      · trivial
  · split <;> trivial
  · exact accepted_failed _
  · trivial
  · exact swept_mannerOf ..
  · -- the sweep has been reported
    intro _
    have htrue := haccepted _ _ rfl rfl
    subst htrue
    have hreport := hwritten.accepted (List.mem_singleton_self _)
    rwa [show Option.map TxReport.txHash (TrackBody.tx _) = _ from ht] at hreport
  · exact accepted_failed _
  · exact accepted_failed _
  · exact accepted_failed _
  · exact accepted_failed _

/-! ## What an answer records -/

structure Records (s' : State) (writes : List Write) (next? : Option Stage) : Prop where
  stage : ∀ stage', next? = some stage' → stage'.Reports s'
  swept : ∀ attempt ∈ attemptsOf writes, attempt.status = .swept →
    Accepted s' attempt.key attempt.txId

theorem records_over (hwrites : attemptsOf writes = []) : Records s' writes none := by
  constructor
  case stage =>
    rintro stage' heq
    cases heq
  case swept =>
    rw [hwrites]
    exact fun attempt hattempt => absurd hattempt List.not_mem_nil

theorem records_none {stage' : Stage} (hwrites : attemptsOf writes = [])
    (hstage : stage'.Reports s') : Records s' writes (some stage') := by
  constructor
  case stage =>
    rintro stage'' heq
    cases heq
    exact hstage
  case swept => exact (records_over hwrites : Records s' writes none).swept

theorem records_one {stage' : Stage} {attempt : SweepAttempt}
    (hwrites : attemptsOf writes = [attempt])
    (hattempt : attempt.status = .swept → Accepted s' attempt.key attempt.txId)
    (hstage : stage'.Reports s') : Records s' writes (some stage') := by
  constructor
  case stage =>
    rintro stage'' heq
    cases heq
    exact hstage
  case swept =>
    rw [hwrites]
    exact fun a ha => List.mem_singleton.mp ha ▸ hattempt

theorem reconcile_records {rest : List Invoice} {point : Reconcile}
    (hreports : (Stage.reconciling chain rest point).Reports s)
    (h : reconcileReceiverPaymentState s.cache chain rest point answer = some (writes, next?))
    (hwritten : Written n writes s s') : Records s' writes next? := by
  unfold reconcileReceiverPaymentState at h
  split at h
  · split at h <;> cases h
    · exact records_none rfl trivial
    · apply records_none rfl
      split <;> trivial
  · split at h <;> cases h
    · refine records_none ?_ trivial
      split <;> rfl
    · exact records_none rfl trivial
  · cases h
    exact records_none rfl rfl
  · cases h
    -- nothing is recorded unless the answer says that the report was accepted
    split
    · next hok =>
      rw [if_pos hok] at hwritten
      have htrue := (Bool.and_eq_true_iff.mp hok).1
      subst htrue
      have hreport := hwritten.accepted (List.mem_cons_self ..)
      rw [show TrackBody.tx _ = none from hreports] at hreport
      exact records_one rfl (fun _ => hreport) trivial
    · exact records_none rfl trivial
  all_goals cases h
  · exact records_none rfl trivial
  · exact records_none rfl trivial

theorem scan_records {point : Scan}
    (h : scanPaidLogs s.cache chain point answer = some (writes, next?)) :
    Records s' writes next? := by
  unfold scanPaidLogs at h
  split at h <;> cases h
  · exact records_none rfl trivial
  · exact records_none rfl trivial
  · exact records_none rfl trivial
  · exact records_none rfl trivial
  · exact records_over rfl

theorem sweep_records {rest : List Invoice} {point : Sweep}
    (hreports : (Stage.sweeping chain rest point).Reports s)
    (haccepted : ∀ accepted answered, answer = .posted accepted answered →
      (Stage.sweeping chain rest point).reportsSweep = true → accepted = true)
    (h : checkAndSweep config s.cache chain rest point answer = some (writes, next?))
    (hwritten : Written n writes s s') : Records s' writes next? := by
  rcases checkAndSweep_cases h with ⟨-, -, rfl, rfl⟩ | ⟨_, _, -, -, rfl, rfl⟩ |
    ⟨_, attempt, rfl, rfl, rfl⟩ | ⟨invoice, t, t', rfl, htry, rfl⟩
  · exact records_none rfl trivial
  · exact records_none rfl trivial
  · exact records_one rfl (fun hswept => (hreports hswept).mono hwritten.posts_subset) trivial
  · have htried := trySweep_reports hreports haccepted htry hwritten
    exact records_none (attemptsOf_trySweep htry) htried

theorem plan_records {invoices unread : List Invoice} {items : List Item}
    (h : planTronSweepBatch config chain invoices unread items answer = some (writes, next?)) :
    Records s' writes next? := by
  unfold planTronSweepBatch at h
  split at h
  · split at h
    · split at h <;> cases h
      · exact records_none (attemptsOf_markChecked invoices) trivial
      · exact records_none rfl trivial
    · cases h
  · split at h
    · cases h
    · split at h
      · cases h
      · split at h <;> cases h
        · exact records_over rfl
        · exact records_none rfl trivial
  · cases h
    exact records_over rfl
  · cases h

theorem eoa_records {point : Eoa} (hreports : (Stage.eoa chain point).Reports s)
    (haccepted : ∀ accepted answered, answer = .posted accepted answered →
      (Stage.eoa chain point).reportsSweep = true → accepted = true)
    (h : checkAndSweepTronEoa config chain point answer = some (writes, next?))
    (hwritten : Written n writes s s') : Records s' writes next? := by
  unfold checkAndSweepTronEoa at h
  split at h
  case h_1 => exact plan_records h
  all_goals cases h
  · exact records_none (attemptsOf_markChecked _) trivial
  · exact records_none rfl trivial
  · exact records_over rfl
  · exact records_none rfl trivial
  · exact records_none rfl trivial
  · exact records_one rfl (accepted_failed _) trivial
  · exact records_none rfl rfl
  · -- the sweep has been reported
    have htrue := haccepted _ _ rfl rfl
    subst htrue
    have hreport := hwritten.accepted (List.mem_cons_self ..)
    rw [show Option.map TxReport.txHash (TrackBody.tx _) = _ from hreports] at hreport
    exact records_one rfl (fun _ => hreport) trivial
  · exact records_one rfl (accepted_failed _) trivial
  · exact records_one rfl (accepted_failed _) trivial

theorem resume_records (hreports : stage.Reports s)
    (haccepted : ∀ accepted answered, answer = .posted accepted answered →
      stage.reportsSweep = true → accepted = true)
    (h : stage.resume config s.cache answer = some (writes, next?))
    (hwritten : Written n writes s s') : Records s' writes next? := by
  cases stage with
  | ready => cases h
  | listing =>
    dsimp only [Stage.resume, syncInvoices] at h
    split at h <;> cases h
    · apply records_none (attemptsOf_upsertInvoice _)
      split <;> trivial
    · exact records_over rfl
  | reconciling chain rest point => exact reconcile_records hreports h hwritten
  | scanning chain point => exact scan_records h
  | sweeping chain rest point => exact sweep_records hreports haccepted h hwritten
  | eoa chain point => exact eoa_records hreports haccepted h hwritten

/-! ## Runs -/

def AllAccepted (s : State) : Prop :=
  ∀ attempt ∈ s.cache.sweepAttempts, attempt.status = .swept →
    Accepted s attempt.key attempt.txId

theorem AllAccepted.mono (h : AllAccepted s) (hcache : s'.cache = s.cache)
    (hposts : s'.posts = s.posts) : AllAccepted s' := by
  unfold AllAccepted
  rw [hcache]
  exact fun attempt hattempt hswept =>
    (h attempt hattempt hswept).mono (hposts ▸ List.Subset.refl _)

theorem reportedRules (config : Config) :
    Rules config (fun s event => acceptedReport s event = true) AllAccepted
      fun s _ stage => stage.Reports s := by
  constructor
  case ready => exact fun s n => trivial
  case start =>
    intro s n task _
    cases task with
    | sync => trivial
    | reconcile chain | scan chain | sweep chain =>
      dsimp only [Task.start]
      split <;> trivial
  case frame =>
    intro s s' hcache _ _ hposts h
    exact ⟨h.mono hcache hposts,
      fun n stage hstage => hstage.mono (hposts ▸ List.Subset.refl _)⟩
  case settle =>
    intro s hash status h
    exact ⟨h.mono rfl rfl, fun n stage hstage => hstage.mono (List.Subset.refl _)⟩
  case move =>
    intro s key h
    exact ⟨h.mono rfl rfl, fun n stage hstage => hstage.mono (List.Subset.refl _)⟩
  case others =>
    exact fun n m s s' writes stage hwritten hstage => hstage.mono hwritten.posts_subset
  case resume =>
    intro n s s' pass answer writes next? hpass h hreports haccepted _ hresume hwritten
    have hposted : ∀ accepted answered, answer = .posted accepted answered →
        pass.stage.reportsSweep = true → accepted = true := by
      rintro accepted answered rfl hsweep
      unfold acceptedReport at haccepted
      dsimp only at haccepted
      rw [hpass, Option.any_some, hsweep] at haccepted
      simpa using haccepted
    have hkept := resume_records hreports hposted hresume hwritten
    refine ⟨fun attempt hattempt hswept => ?_, hkept.stage⟩
    rw [hwritten.attempts] at hattempt
    rcases List.mem_append.mp hattempt with hold | hnew
    · exact (h attempt hold hswept).mono hwritten.posts_subset
    · exact hkept.swept attempt hnew hswept

/-- Where the API accepts every report of the sweeping paths, it has accepted a track for every
sweep that is recorded. -/
theorem swept_reported (config : Config) (events : List Event)
    (h : Each (fun pre event => acceptedReport (after config pre) event = true) events) :
    Reported config events := by
  have hnone : AllAccepted .initial :=
    fun attempt hattempt => absurd hattempt List.not_mem_nil
  have haccepted := ((reportedRules config).holds (holds_initial hnone) events h).state
  exact fun attempt hattempt hswept => .inl (haccepted attempt hattempt hswept)

/-! ## No second report -/

structure Closed (key : Key) (started : Nat) (s : State) : Prop where
  swept : hasSuccessfulSweep s.cache key = true
  posts : ∀ post ∈ s.posts, started ≤ post.pass → post.key ≠ key

-- A pass that starts once the invoice is swept never takes it up.
theorem closedRules (config : Config) (key : Key) (started : Nat) :
    Rules config (fun _ _ => True) (Closed key started)
      fun _ n stage => started ≤ n → key ∉ stage.keys := by
  constructor
  case ready => exact fun s n _ => List.not_mem_nil
  case start =>
    intro s n task h _ hkey
    have hnot := (keys_start task).1 key hkey
    rw [h.swept] at hnot
    cases hnot
  case frame =>
    intro s s' hcache _ _ hposts h
    refine ⟨?_, fun n stage hstage => hstage⟩
    constructor
    · rw [hcache]
      exact h.swept
    · rw [hposts]
      exact h.posts
  case settle => exact fun s hash status h => ⟨⟨h.swept, h.posts⟩, fun n stage hstage => hstage⟩
  case move => exact fun s key' h => ⟨⟨h.swept, h.posts⟩, fun n stage hstage => hstage⟩
  case others => exact fun n m s s' writes stage _ hstage => hstage
  case resume =>
    intro n s s' pass answer writes next? _ h hstage _ _ hresume hwritten
    refine ⟨⟨hwritten.swept h.swept, fun post hpost hlate => ?_⟩, fun stage' heq hlate hkey => ?_⟩
    · rw [hwritten.posts] at hpost
      rcases List.mem_append.mp hpost with hold | hnew
      · exact h.posts post hold hlate
      · rcases (effects_resume hresume).posts n with hnone | ⟨key', _, _, _, hone, hcurrent, -⟩
        · rw [hnone] at hnew
          exact absurd hnew List.not_mem_nil
        · rw [hone, List.mem_singleton] at hnew
          subst hnew
          rintro rfl
          exact hstage hlate (current_mem_keys hcurrent)
    · rcases keys_resume hresume stage' heq with hsublist | ⟨key', hone, hnot⟩
      · exact hstage hlate (hsublist.subset hkey)
      · rw [hone, List.mem_singleton] at hkey
        rw [← hkey, h.swept] at hnot
        cases hnot

/-- No pass that starts later posts an invoice that is swept. -/
theorem not_posted_again {events : List Event}
    (h : hasSuccessfulSweep (after config events).cache key = true) :
    ¬PostedAgain config events key := by
  rintro ⟨later, post, hpost, hlate, hkey⟩
  have hnumbered := numbered_after config events
  have hclosed : Closed key (after config events).started (after config events) := by
    constructor
    case swept => exact h
    case posts =>
      intro post hpost hlate
      exact absurd hlate (Nat.not_le_of_lt (hnumbered.posts post hpost))
  have hholds : Holds (Closed key (after config events).started)
      (fun _ n stage => (after config events).started ≤ n → key ∉ stage.keys)
      (after config events) := by
    refine ⟨hclosed, fun n pass hpass hlate => ?_⟩
    rw [hnumbered.passes n hlate] at hpass
    cases hpass
  have hlater := ((closedRules config key _).holds hholds later fun _ _ _ => trivial).state
  unfold after run at hpost
  rw [List.foldl_append] at hpost
  exact hlater.posts post hpost hlate hkey

/-! ## Runs of one invoice -/

-- A pass up to the report of its sweep.
def evmSweeps : List Event :=
  .tick :: evmSends 0 "h" ++
    [.settle "h" .included, .resume 0 (.receipt ⟨"h", 7, 21000, 1⟩), .resume 0 (.status "paid")]

theorem swept_reported_accepted :
    Reported evmNode (evmSweeps ++ [.resume 0 (.posted true true), .resume 0 .go]) :=
  swept_reported evmNode _ (each_of_take (by decide))

-- The API is down when the sweep is reported.
theorem rejected_report_dropped : ¬∀ config events, Reported config events := by
  intro h
  have hreported := h evmNode (evmSweeps ++ [.resume 0 (.posted false true), .resume 0 .go])
  have hswept : hasSuccessfulSweep (after evmNode
      (evmSweeps ++ [.resume 0 (.posted false true), .resume 0 .go])).cache evmInvoice.key = true := by
    decide
  have hrejected : ∀ post ∈ (after evmNode
      (evmSweeps ++ [.resume 0 (.posted false true), .resume 0 .go])).posts,
        post.accepted = false := by
    decide
  rcases hasSuccessfulSweep_iff.mp hswept with ⟨attempt, hattempt, hkey, hstatus⟩
  rcases hreported attempt hattempt hstatus with ⟨post, hpost, haccepted, -⟩ | hagain
  · rw [hrejected post hpost] at haccepted
    cases haccepted
  · rw [hkey] at hagain
    exact not_posted_again hswept hagain

end OnchainInvoice.SweepPass
