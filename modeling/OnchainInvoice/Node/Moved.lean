import OnchainInvoice.Node.SweepSteps

/-!
# What a swept attempt says about the payment

The EVM path records a sweep when the receiver has the payment or the receipt is there.  The Tron
paths record it once the transaction has been handed over and reported, whatever becomes of it.
-/

namespace OnchainInvoice.SweepPass

open Lib.Tables Lib.Histories

variable {config : Config} {s s' : State} {chain : Chain} {invoice : Invoice}
  {writes : List Write} {answer : Answer} {t t' : Try} {stage : Stage} {next? : Option Stage}
  {hash : String} {key : Key} {n : Nat}

/-! ## What is to hold -/

structure Moved (s : State) : Prop where
  swept : ∀ key, hasSuccessfulSweep s.cache key = true → key ∈ s.moved
  awaits : ∀ row ∈ s.cache.invoices.rows, row.key ∉ s.moved →
    row ∈ awaiting s.cache row.invoice.chainId

def State.includes (s : State) (hash : String) : Bool :=
  s.txs.any fun tx => tx.hash = hash && tx.status = .included

-- The transaction that a Tron path reports.
def Stage.tronReport : Stage → Option String
  | .sweeping chain _ (.trying _ (.track sent _)) => if chain.path = .evm then none else some sent.hash
  | .eoa _ (.track _ hash ..) => some hash
  | _ => none

-- A transaction of a Tron path is included by the time the report of it has been answered.
def includedInTime (s : State) : Event → Bool
  | .resume n (.posted ..) =>
    (s.passes n).all fun pass => pass.stage.tronReport.all fun hash => s.includes hash
  | _ => true

/-! ## What a pass knows -/

def SentFor (s : State) (hash : String) (key : Key) : Prop :=
  ∃ tx ∈ s.txs, tx.hash = hash ∧ tx.key = key

def Tried (s : State) (chain : Chain) (invoice : Invoice) : Try → Prop
  | .paidStatus _ | .paidTrack _ => invoice.key ∈ s.moved
  | .wait hash => SentFor s hash invoice.key
  | .status sent _ | .track sent _ =>
    if chain.path = .evm then invoice.key ∈ s.moved else SentFor s sent.hash invoice.key
  | .returned attempt => attempt.status = .swept → attempt.key ∈ s.moved
  | _ => True

def Sound (s : State) : Stage → Prop
  | .reconciling _ _ (.status invoice _) | .reconciling _ _ (.track invoice _) =>
    invoice.key ∈ s.moved
  | .sweeping chain _ (.trying invoice t) => Tried s chain invoice t
  | .eoa _ (.status item hash ..) | .eoa _ (.track item hash ..) => SentFor s hash item.invoice.key
  | _ => True

-- Transactions stay, and so does what has been moved.
structure Grows (s s' : State) : Prop where
  txs : ∀ hash key, SentFor s hash key → SentFor s' hash key
  moved : s.moved ⊆ s'.moved

theorem Tried.mono (h : Tried s chain invoice t) (hgrows : Grows s s') :
    Tried s' chain invoice t := by
  cases t with
  | paidStatus _ | paidTrack _ => exact hgrows.moved h
  | wait hash => exact hgrows.txs _ _ h
  | status sent _ | track sent _ =>
    dsimp only [Tried] at h ⊢
    split at h
    · next hpath =>
      rw [if_pos hpath]
      exact hgrows.moved h
    · next hpath =>
      rw [if_neg hpath]
      exact hgrows.txs _ _ h
  | returned attempt => exact fun hswept => hgrows.moved (h hswept)
  | asked | balance | sweep => trivial

theorem Sound.mono (h : Sound s stage) (hgrows : Grows s s') : Sound s' stage := by
  cases stage with
  | reconciling _ _ point =>
    cases point with
    | status _ _ | track _ _ => exact hgrows.moved h
    | next | asked _ => trivial
  | sweeping _ _ point =>
    cases point with
    | next => trivial
    | trying _ t => exact Tried.mono h hgrows
  | eoa _ point =>
    cases point with
    | status _ _ _ _ | track _ _ _ _ => exact hgrows.txs _ _ h
    | planning _ _ _ | deciding _ _ | executing _ => trivial
  | ready | listing | scanning _ _ => trivial

structure Truthful (s : State) : Prop where
  hashes : (s.txs.map Tx.hash).Nodup
  included : ∀ tx ∈ s.txs, tx.status = .included → tx.key ∈ s.moved

theorem Truthful.moved_of_includes (h : Truthful s) (hsent : SentFor s hash key)
    (hincludes : s.includes hash = true) : key ∈ s.moved := by
  rcases hsent with ⟨tx, htx, rfl, rfl⟩
  unfold State.includes at hincludes
  rcases List.any_eq_true.mp hincludes with ⟨tx', htx', hboth⟩
  rw [Bool.and_eq_true, decide_eq_true_iff, decide_eq_true_iff] at hboth
  rw [List.inj_on_of_nodup_map h.hashes htx htx' hboth.1.symm]
  exact h.included tx' htx' hboth.2

theorem Written.grows (h : Written n writes s s') : Grows s s' := by
  constructor
  case txs =>
    rintro hash key ⟨tx, htx, hboth⟩
    refine ⟨tx, ?_, hboth⟩
    rw [h.txs]
    exact List.mem_append_left _ htx
  case moved =>
    rw [h.moved]
    exact List.Subset.refl _

theorem Written.sentFor (h : Written n writes s s') (hsend : .send hash key ∈ writes) :
    SentFor s' hash key := by
  refine ⟨⟨hash, key, .pending⟩, ?_, rfl, rfl⟩
  rw [h.txs]
  exact List.mem_append_right _ (List.mem_filterMap.mpr ⟨_, hsend, rfl⟩)

/-! ## What a step leaves it to know -/

theorem possible_payment {payment : Payment} (hcurrent : stage.current = some key)
    (h : s.possible stage (.payment payment) = true) (hpaid : payment.paid = true) :
    key ∈ s.moved := by
  unfold State.possible at h
  simpa [hpaid, hcurrent] using h

theorem not_swept_failed (message : String) :
    (failed invoice message).status = .swept → key ∈ s.moved := by
  intro hswept
  cases hswept

theorem trySweep_tried {rest : List Invoice} (htruth : Truthful s) (ht : Tried s chain invoice t)
    (hpossible : s.possible (.sweeping chain rest (.trying invoice t)) answer = true)
    (hreport : ∀ accepted answered, answer = .posted accepted answered →
      (Stage.sweeping chain rest (.trying invoice t)).tronReport.all (s.includes ·) = true)
    (h : trySweep config s.cache (mannerOf chain) invoice t answer = some (writes, t'))
    (hwritten : Written n writes s s') : Tried s' chain invoice t' := by
  have hmoved := hwritten.grows.moved
  unfold trySweep at h
  split at h <;> cases h
  -- the receiver's answer
  · split
    · next hpaid => exact hmoved (possible_payment rfl hpossible hpaid)
    · trivial
  -- the payment is there and is reported
  · exact hmoved ht
  · trivial
  · trivial
  · exact fun _ => hmoved ht
  -- the balance
  · split
    · exact not_swept_failed _
    · split
      · exact fun hswept => by cases hswept
      · trivial
  -- the transaction goes out
  · have hsent := hwritten.sentFor (List.mem_singleton_self _)
    split
    · exact hsent
    · next hwaits =>
      have hpath : chain.path ≠ .evm := by
        rw [waits_mannerOf, decide_eq_true_iff] at hwaits
        exact hwaits
      show if chain.path = .evm then _ else _
      rwa [if_neg hpath]
  · exact not_swept_failed _
  -- the receipt: only the EVM path waits for it
  · next receipt =>
    show if chain.path = .evm then _ else _
    have hincludes : s.includes _ = true := (Bool.and_eq_true_iff.mp hpossible).2
    have hkey := htruth.moved_of_includes ht hincludes
    split
    · exact hmoved hkey
    · exact hwritten.grows.txs _ _ ht
  · exact Tried.mono ht hwritten.grows
  -- the report has been answered
  · next sent body =>
    intro _
    have hanswered := hreport _ _ rfl
    dsimp only [Tried] at ht
    dsimp only [Stage.tronReport] at hanswered
    split at ht
    · exact hmoved ht
    · next hpath =>
      rw [if_neg hpath] at hanswered
      exact hmoved (htruth.moved_of_includes ht hanswered)
  · exact not_swept_failed _
  · exact not_swept_failed _
  · exact not_swept_failed _
  · exact not_swept_failed _

-- What an answer leaves a pass to know, and what it records.
structure Kept (s s' : State) (writes : List Write) (next? : Option Stage) : Prop where
  stage : ∀ stage', next? = some stage' → Sound s' stage'
  swept : ∀ attempt ∈ attemptsOf writes, attempt.status = .swept → attempt.key ∈ s.moved

theorem kept_over (hwrites : attemptsOf writes = []) : Kept s s' writes none := by
  constructor
  case stage =>
    rintro stage' heq
    cases heq
  case swept =>
    rw [hwrites]
    exact fun attempt hattempt => absurd hattempt List.not_mem_nil

theorem kept_at {stage' : Stage} (hwrites : attemptsOf writes = []) (hstage : Sound s' stage') :
    Kept s s' writes (some stage') := by
  constructor
  case stage =>
    rintro stage'' heq
    cases heq
    exact hstage
  case swept => exact (kept_over hwrites : Kept s s' writes none).swept

theorem kept_record {stage' : Stage} {attempt : SweepAttempt} (hwrites : attemptsOf writes = [attempt])
    (hattempt : attempt.status = .swept → attempt.key ∈ s.moved) (hstage : Sound s' stage') :
    Kept s s' writes (some stage') := by
  constructor
  case stage =>
    rintro stage'' heq
    cases heq
    exact hstage
  case swept =>
    rw [hwrites]
    exact fun a ha => List.mem_singleton.mp ha ▸ hattempt

theorem reconcile_kept {rest : List Invoice} {point : Reconcile}
    (hsound : Sound s (.reconciling chain rest point))
    (hpossible : s.possible (.reconciling chain rest point) answer = true)
    (h : reconcileReceiverPaymentState s.cache chain rest point answer = some (writes, next?))
    (hwritten : Written n writes s s') : Kept s s' writes next? := by
  have hmoved := hwritten.grows.moved
  unfold reconcileReceiverPaymentState at h
  split at h
  · split at h <;> cases h
    · exact kept_at rfl trivial
    · apply kept_at rfl
      split <;> trivial
  · split at h <;> cases h
    · next hpaid =>
      refine kept_at ?_ (hmoved (possible_payment rfl hpossible hpaid))
      split <;> rfl
    · exact kept_at rfl trivial
  · cases h
    exact kept_at rfl (hmoved hsound)
  · cases h
    -- a sweep is recorded when the report has been accepted
    split
    · exact kept_record rfl (fun _ => hsound) trivial
    · exact kept_at rfl trivial
  · cases h
    exact kept_at rfl trivial
  · cases h
    exact kept_at rfl trivial
  · cases h

theorem scan_kept {point : Scan}
    (h : scanPaidLogs s.cache chain point answer = some (writes, next?)) :
    Kept s s' writes next? := by
  unfold scanPaidLogs at h
  split at h <;> cases h
  · exact kept_at rfl trivial
  · exact kept_at rfl trivial
  · exact kept_at rfl trivial
  · exact kept_at rfl trivial
  · exact kept_over rfl

theorem sweep_kept {rest : List Invoice} {point : Sweep} (htruth : Truthful s)
    (hsound : Sound s (.sweeping chain rest point))
    (hpossible : s.possible (.sweeping chain rest point) answer = true)
    (hreport : ∀ accepted answered, answer = .posted accepted answered →
      (Stage.sweeping chain rest point).tronReport.all (s.includes ·) = true)
    (h : checkAndSweep config s.cache chain rest point answer = some (writes, next?))
    (hwritten : Written n writes s s') : Kept s s' writes next? := by
  rcases checkAndSweep_cases h with ⟨-, -, rfl, rfl⟩ | ⟨_, _, -, -, rfl, rfl⟩ |
    ⟨_, attempt, rfl, rfl, rfl⟩ | ⟨invoice, t, t', rfl, htry, rfl⟩
  · exact kept_at rfl trivial
  · exact kept_at rfl trivial
  · exact kept_record rfl hsound trivial
  · have htried := trySweep_tried htruth hsound hpossible hreport htry hwritten
    exact kept_at (attemptsOf_trySweep htry) htried

theorem plan_kept {invoices unread : List Invoice} {items : List Item}
    (h : planTronSweepBatch config chain invoices unread items answer = some (writes, next?)) :
    Kept s s' writes next? := by
  unfold planTronSweepBatch at h
  split at h
  · split at h
    · split at h <;> cases h
      · exact kept_at (attemptsOf_markChecked invoices) trivial
      · exact kept_at rfl trivial
    · cases h
  · split at h
    · cases h
    · split at h
      · cases h
      · split at h <;> cases h
        · exact kept_over rfl
        · exact kept_at rfl trivial
  · cases h
    exact kept_over rfl
  · cases h

theorem eoa_kept {point : Eoa} (htruth : Truthful s) (hsound : Sound s (.eoa chain point))
    (hreport : ∀ accepted answered, answer = .posted accepted answered →
      (Stage.eoa chain point).tronReport.all (s.includes ·) = true)
    (h : checkAndSweepTronEoa config chain point answer = some (writes, next?))
    (hwritten : Written n writes s s') : Kept s s' writes next? := by
  unfold checkAndSweepTronEoa at h
  split at h
  · exact plan_kept h
  · cases h
    exact kept_at (attemptsOf_markChecked _) trivial
  · cases h
    exact kept_at rfl trivial
  · cases h
    exact kept_over rfl
  · cases h
    exact kept_at rfl trivial
  · cases h
    exact kept_at rfl (hwritten.sentFor (List.mem_cons_self ..))
  · cases h
    exact kept_record rfl (not_swept_failed _) trivial
  · cases h
    exact kept_at rfl (hwritten.grows.txs _ _ hsound)
  · cases h
    -- the report has been answered
    have hanswered := hreport _ _ rfl
    exact kept_record rfl (fun _ => htruth.moved_of_includes hsound hanswered) trivial
  · cases h
    exact kept_record rfl (not_swept_failed _) trivial
  · cases h
    exact kept_record rfl (not_swept_failed _) trivial
  · cases h

theorem resume_kept (htruth : Truthful s) (hsound : Sound s stage)
    (hpossible : s.possible stage answer = true)
    (hreport : ∀ accepted answered, answer = .posted accepted answered →
      stage.tronReport.all (s.includes ·) = true)
    (h : stage.resume config s.cache answer = some (writes, next?))
    (hwritten : Written n writes s s') : Kept s s' writes next? := by
  cases stage with
  | ready => cases h
  | listing =>
    dsimp only [Stage.resume, syncInvoices] at h
    split at h <;> cases h
    · apply kept_at (attemptsOf_upsertInvoice _)
      split <;> trivial
    · exact kept_over rfl
  | reconciling chain rest point => exact reconcile_kept hsound hpossible h hwritten
  | scanning chain point => exact scan_kept h
  | sweeping chain rest point => exact sweep_kept htruth hsound hpossible hreport h hwritten
  | eoa chain point => exact eoa_kept htruth hsound hreport h hwritten

/-! ## Runs -/

structure Recorded (s : State) : Prop where
  truth : Truthful s
  swept : ∀ attempt ∈ s.cache.sweepAttempts, attempt.status = .swept → attempt.key ∈ s.moved

theorem Recorded.initial : Recorded .initial := by
  constructor
  case truth =>
    constructor
    case hashes => exact List.nodup_nil
    case included => exact fun tx htx => absurd htx List.not_mem_nil
  case swept => exact fun attempt hattempt => absurd hattempt List.not_mem_nil

-- Nothing is recorded.
theorem Recorded.mono (h : Recorded s) (hmoved : s.moved ⊆ s'.moved) (htruth : Truthful s')
    (hcache : s'.cache = s.cache) : Recorded s' := by
  constructor
  case truth => exact htruth
  case swept =>
    rw [hcache]
    exact fun attempt hattempt hswept => hmoved (h.swept attempt hattempt hswept)

theorem key_settle (status : TxStatus) (tx : Tx) : (Tx.settle hash status tx).key = tx.key := by
  unfold Tx.settle
  split <;> rfl

theorem hash_settle (status : TxStatus) (tx : Tx) : (Tx.settle hash status tx).hash = tx.hash := by
  unfold Tx.settle
  split <;> rfl

theorem grows_settle (s : State) (hash : String) (status : TxStatus) :
    Grows s (next config s (.settle hash status)) := by
  constructor
  case txs =>
    rintro hash' key ⟨tx, htx, rfl, rfl⟩
    exact ⟨_, List.mem_map_of_mem htx, hash_settle .., key_settle ..⟩
  case moved => exact fun key hkey => List.mem_append_left _ hkey

theorem Truthful.settle (h : Truthful s) (hash : String) (status : TxStatus) :
    Truthful (next config s (.settle hash status)) := by
  constructor
  case hashes =>
    have hsame : (s.txs.map (Tx.settle hash status)).map Tx.hash = s.txs.map Tx.hash := by
      rw [List.map_map]
      exact List.map_congr_left fun tx _ => hash_settle status tx
    show ((s.txs.map (Tx.settle hash status)).map Tx.hash).Nodup
    rw [hsame]
    exact h.hashes
  case included =>
    intro tx htx hincluded
    apply List.mem_append_right
    exact List.mem_map_of_mem (List.mem_filter.mpr ⟨htx, decide_eq_true hincluded⟩)

theorem Truthful.written (h : Truthful s) (hwritten : Written n writes s s')
    (heffects : Effects stage answer writes) (hpossible : s.possible stage answer = true) :
    Truthful s' := by
  rcases heffects.sends with hnone | ⟨hash, key, hone, -, hanswer⟩
  · have htxs : s'.txs = s.txs := by rw [hwritten.txs, hnone, List.append_nil]
    constructor
    case hashes =>
      rw [htxs]
      exact h.hashes
    case included =>
      rw [htxs, hwritten.moved]
      exact h.included
  · have hfresh : s.txs.all (·.hash ≠ hash) = true := by
      rcases hanswer with ⟨amount, rfl⟩ | ⟨message, rfl⟩ <;> exact hpossible
    have htxs : s'.txs = s.txs ++ [⟨hash, key, .pending⟩] := by rw [hwritten.txs, hone]
    constructor
    case hashes =>
      rw [htxs, List.map_append]
      refine List.nodup_append'.mpr ⟨h.hashes, List.nodup_singleton _, ?_⟩
      rw [List.disjoint_comm, List.map_singleton, List.singleton_disjoint]
      intro hmem
      rcases List.mem_map.mp hmem with ⟨tx, htx, heq⟩
      exact of_decide_eq_true (List.all_eq_true.mp hfresh tx htx) heq
    case included =>
      rw [htxs, hwritten.moved]
      intro tx htx hincluded
      rcases List.mem_append.mp htx with htx | htx
      · exact h.included tx htx hincluded
      · rw [List.mem_singleton.mp htx] at hincluded
        cases hincluded

theorem Recorded.written (h : Recorded s) (hwritten : Written n writes s s')
    (hkept : Kept s s' writes next?) (htruth : Truthful s') : Recorded s' := by
  constructor
  case truth => exact htruth
  case swept =>
    intro attempt hattempt hswept
    rw [hwritten.moved]
    rw [hwritten.attempts] at hattempt
    rcases List.mem_append.mp hattempt with hold | hnew
    · exact h.swept attempt hold hswept
    · exact hkept.swept attempt hnew hswept

theorem movedRules (config : Config) :
    Rules config (fun s event => includedInTime s event = true) Recorded
      fun s _ stage => Sound s stage := by
  constructor
  case ready => exact fun s n => trivial
  case start =>
    intro s n task _
    cases task with
    | sync => trivial
    | reconcile chain | scan chain | sweep chain =>
      dsimp only [Task.start]
      split <;> trivial
  case frame =>
    intro s s' hcache htxs hmoved _ h
    have htruth : Truthful s' := by
      constructor
      case hashes =>
        rw [htxs]
        exact h.truth.hashes
      case included =>
        rw [htxs, hmoved]
        exact h.truth.included
    refine ⟨h.mono (hmoved ▸ List.Subset.refl _) htruth hcache, fun n stage hstage => hstage.mono ?_⟩
    constructor
    case txs =>
      rintro hash key ⟨tx, htx, hboth⟩
      exact ⟨tx, htxs ▸ htx, hboth⟩
    case moved => exact hmoved ▸ List.Subset.refl _
  case settle =>
    intro s hash status h
    have hgrows : Grows s (next config s (.settle hash status)) := grows_settle s hash status
    exact ⟨h.mono hgrows.moved (h.truth.settle hash status) rfl,
      fun n stage hstage => hstage.mono hgrows⟩
  case move =>
    intro s key h
    have hgrows : Grows s (next config s (.move key)) :=
      ⟨fun _ _ hsent => hsent, fun key hkey => List.mem_append_left _ hkey⟩
    have htruth : Truthful (next config s (.move key)) :=
      ⟨h.truth.hashes, fun tx htx hincluded => hgrows.moved (h.truth.included tx htx hincluded)⟩
    exact ⟨h.mono hgrows.moved htruth rfl, fun n stage hstage => hstage.mono hgrows⟩
  case others => exact fun n m s s' writes stage hwritten hstage => hstage.mono hwritten.grows
  case resume =>
    intro n s s' pass answer writes next? hpass h hsound hreport hpossible hresume hwritten
    have hreported : ∀ accepted answered, answer = .posted accepted answered →
        pass.stage.tronReport.all (s.includes ·) = true := by
      rintro accepted answered rfl
      unfold includedInTime at hreport
      dsimp only at hreport
      rwa [hpass] at hreport
    have hkept := resume_kept h.truth hsound hpossible hreported hresume hwritten
    have htruth := h.truth.written hwritten (effects_resume hresume) hpossible
    exact ⟨h.written hwritten hkept htruth, hkept.stage⟩

theorem Recorded.to_moved (h : Recorded s) : Moved s := by
  have hswept : ∀ key, hasSuccessfulSweep s.cache key = true → key ∈ s.moved := by
    intro key hkey
    rcases hasSuccessfulSweep_iff.mp hkey with ⟨attempt, hattempt, rfl, hstatus⟩
    exact h.swept attempt hattempt hstatus
  constructor
  case swept => exact hswept
  case awaits =>
    intro row hrow hmoved
    refine mem_awaiting.mpr ⟨hrow, rfl, ?_⟩
    rw [← Bool.not_eq_true]
    exact fun hkey => hmoved (hswept row.key hkey)

/-- Where every transaction of a Tron path is included by the time its report has been answered, an
invoice is swept only if its payment was moved, and awaits its sweep otherwise. -/
theorem swept_moved (config : Config) (events : List Event)
    (h : Each (fun pre event => includedInTime (after config pre) event = true) events) :
    Moved (after config events) :=
  ((movedRules config).holds (holds_initial .initial) events h).state.to_moved

/-! ## Runs of one invoice -/

def tronChain : Chain := ⟨"tron", .tron, none, none, none, []⟩

def tronNode : Config := ⟨[tronChain], none, fun _ => none⟩

def tronInvoice : Invoice := ⟨"tron", "0x01", "T1", "0x", none, none, none⟩

def tronSends : List Event :=
  [.tick, .resume 0 .go, .resume 0 (.page [(tronInvoice, 0)] false), .resume 0 .go, .resume 0 .go,
    .resume 0 .go, .resume 0 .go, .resume 0 .go, .resume 0 (.throws "no receiver"),
    .resume 0 (.balance 5), .resume 0 (.sent "h" 5)]

def tronReports : List Event :=
  [.resume 0 (.status "paid"), .resume 0 (.posted true true), .resume 0 .go]

theorem swept_moved_included :
    Moved (after tronNode (tronSends ++ .settle "h" .included :: tronReports)) :=
  swept_moved tronNode _ (each_of_take (by decide))

-- The transaction is reverted after its sweep was recorded.
theorem reverted_sweep_recorded : ¬∀ config events, Moved (after config events) := by
  intro h
  have hmoved := h tronNode (tronSends ++ tronReports ++ [.settle "h" .reverted])
  have hswept : hasSuccessfulSweep (after tronNode
      (tronSends ++ tronReports ++ [.settle "h" .reverted])).cache tronInvoice.key = true := by
    decide
  have hnot : tronInvoice.key ∉ (after tronNode
      (tronSends ++ tronReports ++ [.settle "h" .reverted])).moved := by
    decide
  exact hnot (hmoved.swept _ hswept)

end OnchainInvoice.SweepPass
