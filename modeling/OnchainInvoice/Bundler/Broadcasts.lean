import OnchainInvoice.Bundler.UserOps
import OnchainInvoice.Lib.Histories

/-!
# Who broadcasts an operation

Any number of bundlers claim, report and broadcast the operations of one table.  The table does not
guard an included operation, and a worker broadcasts whatever has become of its report; both matter
only in the ways that `orderly` names.
-/

namespace OnchainInvoice.Bundler

open Lib.Tables Lib.Histories Server

/-! ## The system -/

structure System where
  ops : UserOps
  jobs : List Job

inductive Event
  | create (input : NewUserOp)
  | requeue (input : NewUserOp)
  | call (call : Call)
  -- A worker takes an operation from its list; `verdict` is what its checks find wrong.
  | start (bundler : String) (maxRetries : Nat) (userOpHash : String) (verdict : Option String)
  | fetch (n : Nat) (fate : Fate) (now : Time)
  | handleOps (n : Nat) (now : Time)
  | mined (n : Nat) (opSuccess : Bool) (txHash : String) (gasSpentWei : Option String)
  | abort (n : Nat)

def Phase.first (maxRetries : Nat) (row : WalletUserOp) : Option String → Phase
  | some reason => .rejecting reason maxRetries (some (some (row.version : Int)))
  | none => .claiming maxRetries row.version

variable (leaseMs : Time) (s : System)

def System.put (n : Nat) (job : Job) : Option Phase → System
  | some phase => { s with jobs := s.jobs.set n { job with phase := phase } }
  | none => { s with jobs := s.jobs.eraseIdx n }

def System.fetch (n : Nat) (job : Job) (fate : Fate) (now : Time) : System :=
  match job.request leaseMs now with
  | none => s.put n job (job.phase.after job.maxRetries none false)
  | some call =>
    let attempt := attemptOf job.phase.expectedVersion (fetched s.ops call fate)
    let taken := fate.reaches && (serve s.ops call).isOk
    { s.put n job (job.phase.after job.maxRetries (some attempt) taken) with
      ops := if fate.reaches then served s.ops call else s.ops }

def next : Event → System
  | .create input => { s with ops := createWalletUserOp s.ops input }
  | .requeue input => { s with ops := requeueWalletUserOp s.ops input }
  | .call call => { s with ops := served s.ops call }
  | .start bundler maxRetries userOpHash verdict =>
    match getWalletUserOpByHash s.ops userOpHash with
    | none => s
    | some row =>
      if h : bundler ≠ "" ∧ (row.status = .pending ∨ row.status = .claimed) then
        { s with jobs := s.jobs ++ [⟨bundler, h.1, maxRetries, row, .first maxRetries row verdict⟩] }
      else s
  | .fetch n fate now =>
    match s.jobs[n]? with
    | none => s
    | some job => s.fetch leaseMs n job fate now
  | .handleOps n _ =>
    match s.jobs[n]? with
    | none => s
    | some job =>
      match job.phase with
      | .broadcasting claimed _ => s.put n job (some (.mining claimed))
      | _ => s
  | .mined n opSuccess txHash gasSpentWei =>
    match s.jobs[n]? with
    | none => s
    | some job =>
      match job.phase with
      | .mining claimed => s.put n job (some
          (.reporting opSuccess txHash gasSpentWei job.maxRetries
            (some (some ((claimed.version + 1 : Nat) : Int)))))
      | _ => s
  | .abort n => { s with jobs := s.jobs.eraseIdx n }

def after (events : List Event) : System := run (next leaseMs) ⟨.empty, []⟩ events

/-! ## What is to hold of a step -/

-- A bundler other than this one has a claim that has not run out.
def heldByOther (row : WalletUserOp) (bundler : String) (now : Time) : Bool :=
  (row.claimedBy.any fun holder => holder ≠ "" && holder ≠ lowerCase bundler) &&
    !row.claimedUntil.any fun claimedUntil => claimedUntil < now

structure Safe (event : Event) : Prop where
  included : ∀ hash row, getWalletUserOpByHash s.ops hash = some row → row.status = .included →
    ∃ row', getWalletUserOpByHash (next leaseMs s event).ops hash = some row' ∧ row'.status = .included
  single : ∀ n now job claimed accepted, event = .handleOps n now → s.jobs[n]? = some job →
    job.phase = .broadcasting claimed accepted → accepted = true ∧
      ∀ row, getWalletUserOpByHash s.ops job.record.userOpHash = some row →
        heldByOther row job.bundler now = false

/-! ## What goes wrong -/

def Phase.accepted : Phase → Bool
  | .submitting _ accepted _ _ | .broadcasting _ accepted => accepted
  | _ => false

-- An accepted call neither moves an included operation nor takes an operation from a bundler whose
-- report has been accepted and that has not broadcast yet.
def harmless : Call → Bool
  | .track input =>
    !(serve s.ops (.track input)).isOk ||
      (getWalletUserOpByHash s.ops input.userOpHash).all fun row =>
        row.status ≠ .included || input.status.all (· = .included)
  | .claim input now =>
    !(serve s.ops (.claim input now)).isOk || s.jobs.all fun job =>
      !job.phase.accepted || lowerCase job.record.userOpHash ≠ lowerCase input.userOpHash ||
        lowerCase job.bundler = lowerCase input.bundlerAddress

-- The call that the server serves in a step.
def callOf : Event → Option Call
  | .call call => some call
  | .fetch n fate now =>
    if fate.reaches then s.jobs[n]?.bind fun job => job.request leaseMs now else none
  | _ => none

-- A worker stops reporting although no report of it was accepted: the attempts have run out, or the
-- refusal has an included operation.
def givesUp : Event → Bool
  | .fetch n fate now =>
    s.jobs[n]?.any fun job =>
      match job.phase with
      | .submitting _ false _ _ =>
        match job.request leaseMs now with
        | none => true
        | some call => fate = .answered && !(serve s.ops call).isOk &&
            (getWalletUserOpByHash s.ops job.record.userOpHash).any (·.status = .included)
      | _ => false
  | _ => false

def orderly (event : Event) : Bool :=
  (callOf leaseMs s event).all (harmless s) && !givesUp leaseMs s event

/-! ## Calls -/

def Call.userOpHash : Call → String
  | .claim input _ => input.userOpHash
  | .track input => input.userOpHash

-- What an accepted call makes of its row.
def Call.apply : Call → WalletUserOp → WalletUserOp
  | .claim input now => .claim input now
  | .track input => .track input

-- The answer to a call that names no row.
def Call.missing : Call → Nat × String
  | .claim _ _ => (409, "UserOp claim conflict")
  | .track _ => (404, "UserOp not found")

section Calls

variable {ops : UserOps} {call : Call} {row row' : WalletUserOp} {input : TrackUserOp}
  {claim : ClaimUserOp} {now : Time} {hash bundler : String}

theorem userOpHash_apply (call : Call) (row : WalletUserOp) :
    (call.apply row).userOpHash = row.userOpHash := by
  cases call <;> rfl

-- What refuses a report.
def refusedTrack (row : WalletUserOp) (input : TrackUserOp) : Option String :=
  if input.expectedVersion.any (· ≠ some (row.version : Int)) then some "UserOp version conflict"
  else if input.bundlerAddress ≠ "" ∧
      row.claimedBy.any (fun holder => holder ≠ "" && holder ≠ lowerCase input.bundlerAddress) then
    some "UserOp claimed by another bundler"
  else none

-- What refuses a call to the row that it names.
def refused (row : WalletUserOp) : Call → Option String
  | .claim input now => if claimable row input now then none else some "UserOp claim conflict"
  | .track input => refusedTrack row input

/-- What the server makes of a call, for all routes at once. -/
theorem serve_eq : serve ops call =
    match getWalletUserOpByHash ops call.userOpHash with
    | none => .error ⟨call.missing.1, call.missing.2, none⟩
    | some row =>
      match refused row call with
      | some message => .error ⟨409, message, some row⟩
      | none => .ok (call.apply row,
          ops.modify (lowerCase call.userOpHash) call.apply (userOpHash_apply call)) := by
  cases call with
  | claim claim now =>
    show claimWalletUserOp ops claim now = _
    unfold claimWalletUserOp
    cases hfind : getWalletUserOpByHash ops claim.userOpHash with
    | none =>
      simp only [Call.userOpHash, hfind]
      rfl
    | some row =>
      have hkey : row.userOpHash = lowerCase claim.userOpHash := Table.key_of_find? hfind
      simp only [Call.userOpHash, hfind, refused, hkey]
      split <;> rfl
  | track input =>
    show trackWalletUserOp ops input = _
    unfold trackWalletUserOp
    cases hfind : getWalletUserOpByHash ops input.userOpHash with
    | none =>
      simp only [Call.userOpHash, hfind]
      rfl
    | some row =>
      have hkey : row.userOpHash = lowerCase input.userOpHash := Table.key_of_find? hfind
      simp only [Call.userOpHash, hfind, refused, refusedTrack, hkey]
      split
      · rfl
      · split <;> rfl

theorem served_eq : served ops call =
    if (serve ops call).isOk then
      ops.modify (lowerCase call.userOpHash) call.apply (userOpHash_apply call)
    else ops := by
  unfold served
  rw [serve_eq]
  cases getWalletUserOpByHash ops call.userOpHash with
  | none => rfl
  | some row => cases hrefused : refused row call <;> simp [hrefused, Except.isOk, Except.toBool]

/-- A call changes the row it names, when it is accepted. -/
theorem find_served : getWalletUserOpByHash (served ops call) hash =
    if (serve ops call).isOk ∧ lowerCase hash = lowerCase call.userOpHash then
      (getWalletUserOpByHash ops hash).map call.apply
    else getWalletUserOpByHash ops hash := by
  rw [served_eq]
  split
  · unfold getWalletUserOpByHash
    rw [Table.find?_modify]
    simp only [*, true_and]
  · simp only [*, Bool.false_eq_true, false_and, if_false]

/-- An accepted call had nothing against it in its row. -/
theorem refused_of_isOk (h : (serve ops call).isOk)
    (hfind : getWalletUserOpByHash ops call.userOpHash = some row) : refused row call = none := by
  rw [serve_eq, hfind] at h
  cases hrefused : refused row call with
  | none => rfl
  | some message => exact absurd h (by simp [hrefused, Except.isOk, Except.toBool])

/-- A report is accepted only where nobody else has the claim. -/
theorem holder_of_isOk (h : (serve ops (.track input)).isOk) (hnamed : input.bundlerAddress ≠ "")
    (hfind : getWalletUserOpByHash ops input.userOpHash = some row) :
    row.claimedBy.any (fun holder => holder ≠ "" && holder ≠ lowerCase input.bundlerAddress) =
      false := by
  have hnone : refusedTrack row input = none := refused_of_isOk h hfind
  unfold refusedTrack at hnone
  split at hnone
  · exact absurd hnone (by simp)
  · split at hnone
    · exact absurd hnone (by simp)
    · next hguard => exact eq_false_of_ne_true fun hany => hguard ⟨hnamed, hany⟩

end Calls

/-! ## Included operations -/

section Included

variable {leaseMs : Time} {s : System} {call : Call} {event : Event} {row : WalletUserOp}
  {hash : String}

theorem included_served (hharmless : harmless s call)
    (hfind : getWalletUserOpByHash s.ops hash = some row) (hrow : row.status = .included) :
    ∃ row', getWalletUserOpByHash (served s.ops call) hash = some row' ∧ row'.status = .included := by
  rw [find_served]
  by_cases hhit : (serve s.ops call).isOk ∧ lowerCase hash = lowerCase call.userOpHash
  · rw [if_pos hhit, hfind]
    refine ⟨call.apply row, rfl, ?_⟩
    have hnamed : getWalletUserOpByHash s.ops call.userOpHash = some row := by
      unfold getWalletUserOpByHash at hfind ⊢
      rw [← hhit.2, hfind]
    cases call with
    | claim claim now =>
      -- An included operation is not to be claimed.
      have hclaim := refused_of_isOk hhit.1 hnamed
      simp [refused, claimable, hrow] at hclaim
    | track input =>
      dsimp only [harmless] at hharmless
      rw [hhit.1, show getWalletUserOpByHash s.ops input.userOpHash = some row from hnamed] at hharmless
      simp only [Bool.not_true, Bool.false_or, Option.all_some, hrow, ne_eq, not_true_eq_false,
        decide_false] at hharmless
      show input.status.getD row.status = .included
      cases hstatus : input.status with
      | none => exact hrow
      | some status => simpa [hstatus] using hharmless
  · rw [if_neg hhit]
    exact ⟨row, hfind, hrow⟩

theorem ops_put {n : Nat} {job : Job} {phase : Option Phase} : (s.put n job phase).ops = s.ops := by
  cases phase <;> rfl

-- The table after a step that is no creation and no requeue.
theorem ops_next (hcreate : ∀ input, event ≠ .create input) (hrequeue : ∀ input, event ≠ .requeue input) :
    (next leaseMs s event).ops = (callOf leaseMs s event).elim s.ops (served s.ops) := by
  cases event with
  | create input => exact absurd rfl (hcreate input)
  | requeue input => exact absurd rfl (hrequeue input)
  | call call => rfl
  | start bundler maxRetries userOpHash verdict =>
    unfold next
    dsimp only
    split
    · rfl
    · split <;> rfl
  | fetch n fate now =>
    unfold next callOf
    dsimp only
    cases hjob : s.jobs[n]? with
    | none => cases fate.reaches <;> rfl
    | some job =>
      dsimp only [System.fetch, Option.bind_some]
      cases job.request leaseMs now with
      | none =>
        dsimp only
        rw [ops_put]
        cases fate.reaches <;> rfl
      | some call => cases fate.reaches <;> rfl
  | handleOps n now =>
    unfold next
    dsimp only
    split
    · rfl
    · split
      · exact ops_put
      · rfl
  | mined n opSuccess txHash gasSpentWei =>
    unfold next
    dsimp only
    split
    · rfl
    · split
      · exact ops_put
      · rfl
  | abort n => rfl

theorem find_create {input : NewUserOp} (hfind : getWalletUserOpByHash s.ops hash = some row) :
    getWalletUserOpByHash (createWalletUserOp s.ops input) hash = some row := by
  unfold createWalletUserOp getWalletUserOpByHash at *
  cases hinsert : s.ops.insert _ with
  | none => exact hfind
  | some ops' =>
    have hfree := Table.find?_of_insert hinsert
    show ops'.find? (lowerCase hash) = some row
    rw [Table.find?_insert hinsert]
    split
    · next hkey =>
      rw [hkey, hfind] at hfree
      exact absurd hfree (by simp)
    · exact hfind

theorem find_requeue {input : NewUserOp} :
    getWalletUserOpByHash (requeueWalletUserOp s.ops input) hash =
      if lowerCase hash = lowerCase input.userOpHash then
        (getWalletUserOpByHash s.ops hash).map (requeued input)
      else getWalletUserOpByHash s.ops hash := Table.find?_modify

theorem requeued_of_included {input : NewUserOp} (hrow : row.status = .included) :
    requeued input row = row := by
  unfold requeued
  rw [if_neg]
  rw [hrow]
  simp

theorem included_next (horderly : (callOf leaseMs s event).all (harmless s))
    (hfind : getWalletUserOpByHash s.ops hash = some row) (hrow : row.status = .included) :
    ∃ row', getWalletUserOpByHash (next leaseMs s event).ops hash = some row' ∧
      row'.status = .included := by
  by_cases hcreate : ∃ input, event = .create input
  · obtain ⟨input, rfl⟩ := hcreate
    exact ⟨row, find_create hfind, hrow⟩
  by_cases hrequeue : ∃ input, event = .requeue input
  · obtain ⟨input, rfl⟩ := hrequeue
    refine ⟨row, ?_, hrow⟩
    show getWalletUserOpByHash (requeueWalletUserOp s.ops input) hash = some row
    rw [find_requeue, hfind, Option.map_some, requeued_of_included hrow, ite_self]
  rw [ops_next (not_exists.mp hcreate) (not_exists.mp hrequeue)]
  cases hcall : callOf leaseMs s event with
  | none => exact ⟨row, hfind, hrow⟩
  | some call =>
    rw [hcall] at horderly
    exact included_served horderly hfind hrow

end Included

/-! ## Attempts -/

section Attempts

variable {ops : UserOps} {call : Call} {fate : Fate} {version : Option Number} {row : WalletUserOp}

theorem taken_of_accepted (h : attemptOf version (fetched ops call fate) = .accepted row) :
    (fate.reaches && (serve ops call).isOk) = true := by
  cases fate with
  | answered =>
    cases hserve : serve ops call with
    | ok answer => rfl
    | error refusal =>
      simp only [fetched, hserve, attemptOf] at h
      repeat' split at h
      all_goals exact absurd h (by simp)
  | failed => exact absurd h (by simp [fetched, attemptOf])
  | failedAfter => exact absurd h (by simp [fetched, attemptOf])
  | unsent => exact absurd h (by simp [fetched, attemptOf])
  | lost => exact absurd h (by simp [fetched, attemptOf])

theorem refused_of_settled (h : attemptOf version (fetched ops call fate) = .settled) :
    fate = .answered ∧ (serve ops call).isOk = false ∧
      (getWalletUserOpByHash ops call.userOpHash).any (·.status = .included) = true := by
  cases fate with
  | answered =>
    refine And.intro rfl ?_
    rw [serve_eq]
    cases hfind : getWalletUserOpByHash ops call.userOpHash with
    | none =>
      simp only [fetched, serve_eq, hfind, attemptOf] at h
      repeat' split at h
      all_goals simp_all
    | some row =>
      cases hrefused : refused row call with
      | none => exact absurd h (by simp [fetched, serve_eq, hfind, hrefused, attemptOf])
      | some message =>
        simp only [fetched, serve_eq, hfind, hrefused, attemptOf, if_pos] at h
        split at h
        · next hincluded => exact ⟨by simp [hrefused, Except.isOk, Except.toBool], hincluded⟩
        · exact absurd h (by simp)
  | failed => exact absurd h (by simp [fetched, attemptOf])
  | failedAfter => exact absurd h (by simp [fetched, attemptOf])
  | unsent => exact absurd h (by simp [fetched, attemptOf])
  | lost => exact absurd h (by simp [fetched, attemptOf])

end Attempts

/-! ## Phases -/

section Phases

variable {maxRetries : Nat} {attempt : Option Attempt} {taken accepted : Bool} {phase phase' : Phase}
  {claimed : WalletUserOp}

/-- A report is accepted by an attempt or was so before. -/
theorem accepted_after (h : phase.after maxRetries attempt taken = some phase')
    (haccepted : phase'.accepted = true) : phase.accepted = true ∨
      (taken = true ∧ ∃ claimed accepted left version,
        phase = .submitting claimed accepted left version) := by
  cases phase with
  | submitting claimed accepted left version =>
    have hor : (accepted || taken) = true := by
      dsimp only [Phase.after] at h
      repeat' split at h
      all_goals cases h <;> exact haccepted
    rcases Bool.or_eq_true_iff.mp hor with hbefore | htaken
    · exact .inl hbefore
    · exact .inr ⟨htaken, claimed, accepted, left, version, rfl⟩
  | broadcasting claimed accepted =>
    cases h
    exact .inl haccepted
  | mining claimed =>
    cases h
    exact .inl haccepted
  | rejecting reason left version =>
    dsimp only [Phase.after] at h
    repeat' split at h
    all_goals cases h <;> exact absurd haccepted (by simp [Phase.accepted])
  | claiming left version =>
    dsimp only [Phase.after] at h
    repeat' split at h
    all_goals cases h <;> exact absurd haccepted (by simp [Phase.accepted])
  | reporting opSuccess txHash gasSpentWei left version =>
    dsimp only [Phase.after] at h
    repeat' split at h
    all_goals cases h <;> exact absurd haccepted (by simp [Phase.accepted])

/-- A worker comes to its broadcast from the report, whatever came of that. -/
theorem broadcasting_after
    (h : phase.after maxRetries attempt taken = some (.broadcasting claimed accepted)) :
    phase = .broadcasting claimed accepted ∨ ∃ before left version,
      phase = .submitting claimed before left version ∧ accepted = (before || taken) ∧
        (attempt = none ∨ attempt = some .settled ∨ ∃ row, attempt = some (.accepted row)) := by
  cases phase with
  | submitting held before left version =>
    refine .inr ⟨before, left, version, ?_⟩
    dsimp only [Phase.after] at h
    cases attempt with
    | none =>
      cases h
      exact ⟨rfl, rfl, .inl rfl⟩
    | some attempt =>
      cases attempt with
      | accepted row =>
        cases h
        exact ⟨rfl, rfl, .inr (.inr ⟨row, rfl⟩)⟩
      | settled =>
        cases h
        exact ⟨rfl, rfl, .inr (.inl rfl)⟩
      | again version => cases h
      | threw => cases h
  | broadcasting held before =>
    cases h
    exact .inl rfl
  | mining held => cases h
  | rejecting reason left version =>
    dsimp only [Phase.after] at h
    repeat' split at h
    all_goals cases h
  | claiming left version =>
    dsimp only [Phase.after] at h
    repeat' split at h
    all_goals cases h
  | reporting opSuccess txHash gasSpentWei left version =>
    dsimp only [Phase.after] at h
    repeat' split at h
    all_goals cases h

end Phases

/-! ## Jobs -/

-- No other bundler has a claim on the operation, run out or not.
def Clear (ops : UserOps) (hash bundler : String) : Prop :=
  ∀ row, getWalletUserOpByHash ops hash = some row →
    row.claimedBy.any (fun holder => holder ≠ "" && holder ≠ lowerCase bundler) = false

-- An accepted report keeps other bundlers off, and comes before the broadcast.
structure Job.Sound (ops : UserOps) (job : Job) : Prop where
  clear : job.phase.accepted = true → Clear ops job.record.userOpHash job.bundler
  reported : ∀ claimed accepted, job.phase = .broadcasting claimed accepted → accepted = true

section Jobs

variable {leaseMs now : Time} {s : System} {call : Call} {event : Event} {job job' : Job} {n : Nat}
  {hash bundler : String} {phase phase' : Phase} {fate : Fate}

theorem clear_served (hclear : Clear s.ops hash bundler)
    (hclaim : ∀ claim now, call = .claim claim now → (serve s.ops call).isOk →
      lowerCase hash = lowerCase claim.userOpHash →
      lowerCase bundler = lowerCase claim.bundlerAddress) :
    Clear (served s.ops call) hash bundler := by
  intro row hfind
  rw [find_served] at hfind
  split at hfind
  · next hhit =>
    obtain ⟨old, hold, rfl⟩ := Option.map_eq_some_iff.mp hfind
    cases call with
    | claim claim now =>
      show (some (lowerCase claim.bundlerAddress)).any _ = false
      rw [Option.any_some, hclaim claim now rfl hhit.1 hhit.2]
      simp
    | track input =>
      show (if terminal input.status then none else old.claimedBy).any _ = false
      split
      · rfl
      · exact hclear old hold
  · exact hclear row hfind

theorem clear_create {input : NewUserOp} (hclear : Clear s.ops hash bundler) :
    Clear (createWalletUserOp s.ops input) hash bundler := by
  intro row hfind
  cases hold : getWalletUserOpByHash s.ops hash with
  | some old =>
    rw [find_create hold] at hfind
    obtain rfl := Option.some.inj hfind
    exact hclear old hold
  | none =>
    unfold createWalletUserOp getWalletUserOpByHash at *
    cases hinsert : s.ops.insert _ with
    | none =>
      rw [hinsert, Option.getD_none, hold] at hfind
      cases hfind
    | some ops' =>
      rw [hinsert, Option.getD_some, Table.find?_insert hinsert, hold] at hfind
      split at hfind
      · cases hfind
        rfl
      · cases hfind

theorem clear_requeue {input : NewUserOp} (hclear : Clear s.ops hash bundler) :
    Clear (requeueWalletUserOp s.ops input) hash bundler := by
  intro row hfind
  rw [find_requeue] at hfind
  split at hfind
  · obtain ⟨old, hold, rfl⟩ := Option.map_eq_some_iff.mp hfind
    unfold requeued
    split
    · rfl
    · exact hclear old hold
  · exact hclear row hfind

theorem clear_next (hmem : job ∈ s.jobs) (haccepted : job.phase.accepted = true)
    (horderly : (callOf leaseMs s event).all (harmless s))
    (hclear : Clear s.ops job.record.userOpHash job.bundler) :
    Clear (next leaseMs s event).ops job.record.userOpHash job.bundler := by
  by_cases hcreate : ∃ input, event = .create input
  · obtain ⟨input, rfl⟩ := hcreate
    exact clear_create hclear
  by_cases hrequeue : ∃ input, event = .requeue input
  · obtain ⟨input, rfl⟩ := hrequeue
    exact clear_requeue hclear
  rw [ops_next (not_exists.mp hcreate) (not_exists.mp hrequeue)]
  cases hcall : callOf leaseMs s event with
  | none => exact hclear
  | some call =>
    rw [hcall] at horderly
    apply clear_served hclear
    rintro claim now rfl hok hhash
    -- Only this bundler may claim while its report stands.
    have hharmless : harmless s (.claim claim now) = true := horderly
    dsimp only [harmless] at hharmless
    rw [hok, Bool.not_true, Bool.false_or, List.all_eq_true] at hharmless
    have hown := hharmless job hmem
    simpa [haccepted, hhash] using hown

theorem sound_next (hmem : job ∈ s.jobs) (horderly : (callOf leaseMs s event).all (harmless s))
    (hsound : job.Sound s.ops) : job.Sound (next leaseMs s event).ops :=
  ⟨fun haccepted => clear_next hmem haccepted horderly (hsound.clear haccepted), hsound.reported⟩

/-- The jobs after a step of a job are those before and the job in its new phase. -/
theorem mem_put {phase : Option Phase} (h : job' ∈ (s.put n job phase).jobs) :
    job' ∈ s.jobs ∨ ∃ phase', phase = some phase' ∧ job' = { job with phase := phase' } := by
  cases phase with
  | none => exact .inl (List.mem_of_mem_eraseIdx h)
  | some phase' =>
    rcases List.mem_or_eq_of_mem_set h with hold | rfl
    · exact .inl hold
    · exact .inr ⟨phase', rfl, rfl⟩

theorem request_submitting {claimed : WalletUserOp} {accepted : Bool} {left : Nat}
    {version : Option Number} (hphase : job.phase = .submitting claimed accepted left version)
    (hrequest : job.request leaseMs now = some call) : ∃ input : TrackUserOp,
      call = .track input ∧ input.userOpHash = job.record.userOpHash ∧
      input.bundlerAddress = job.bundler := by
  unfold Job.request at hrequest
  rw [hphase] at hrequest
  cases left with
  | zero => exact absurd hrequest (by simp)
  | succ left => exact ⟨_, (Option.some.inj hrequest).symm, rfl, rfl⟩

/-- An accepted report of a bundler finds no claim of another one. -/
theorem clear_of_taken {claimed : WalletUserOp} {accepted : Bool} {left : Nat}
    {version : Option Number} (hphase : job.phase = .submitting claimed accepted left version)
    (hrequest : job.request leaseMs now = some call) (hok : (serve s.ops call).isOk) :
    Clear (served s.ops call) job.record.userOpHash job.bundler := by
  obtain ⟨input, rfl, hhash, hbundler⟩ := request_submitting hphase hrequest
  apply clear_served
  · intro row hfind
    rw [← hbundler]
    rw [← hhash] at hfind
    exact holder_of_isOk hok (hbundler ▸ job.named) hfind
  · intro claim now hcall
    cases hcall

/-- The step of a request keeps the job sound unless the worker gives up. -/
theorem sound_fetch (hjob : s.jobs[n]? = some job) (hsound : job.Sound s.ops)
    (horderly : orderly leaseMs s (.fetch n fate now) = true)
    (hmem : job' ∈ (s.fetch leaseMs n job fate now).jobs) (hnew : job' ∉ s.jobs) :
    job'.Sound (next leaseMs s (.fetch n fate now)).ops := by
  obtain ⟨hcalls, hgives⟩ := Bool.and_eq_true_iff.mp horderly
  have hjobs : job ∈ s.jobs := List.mem_of_getElem? hjob
  have hkept := sound_next hjobs hcalls hsound
  have hops : (next leaseMs s (.fetch n fate now)).ops = (s.fetch leaseMs n job fate now).ops := by
    simp only [next, hjob]
  cases hrequest : job.request leaseMs now with
  | none =>
    unfold System.fetch at hmem
    rw [hrequest] at hmem
    obtain ⟨phase', hafter, rfl⟩ := (mem_put hmem).resolve_left hnew
    refine ⟨fun haccepted => ?_, fun claimed accepted hphase => ?_⟩
    · rcases accepted_after hafter haccepted with hbefore | htaken
      · exact hkept.clear hbefore
      · exact absurd htaken.1 (by simp)
    · obtain rfl : phase' = .broadcasting claimed accepted := hphase
      rcases broadcasting_after hafter with hbefore | hreport
      · exact hsound.reported claimed accepted hbefore
      · obtain ⟨before, left, version, hsubmitting, rfl, -⟩ := hreport
        cases before with
        | true => rfl
        | false => simp [givesUp, hjob, hsubmitting, hrequest] at hgives
  | some call =>
    unfold System.fetch at hmem hops
    rw [hrequest] at hmem hops
    dsimp only at hmem hops
    obtain ⟨phase', hafter, rfl⟩ := (mem_put hmem).resolve_left hnew
    refine ⟨fun haccepted => ?_, fun claimed accepted hphase => ?_⟩
    · rcases accepted_after hafter haccepted with hbefore | hreport
      · exact hkept.clear hbefore
      · obtain ⟨htaken, claimed, accepted, left, version, hsubmitting⟩ := hreport
        obtain ⟨hreaches, hok⟩ := Bool.and_eq_true_iff.mp htaken
        rw [hops, if_pos hreaches]
        have hclear : Clear (served s.ops call) job.record.userOpHash job.bundler :=
          clear_of_taken hsubmitting hrequest hok
        exact hclear
    · obtain rfl : phase' = .broadcasting claimed accepted := hphase
      rcases broadcasting_after hafter with hbefore | hreport
      · exact hsound.reported claimed accepted hbefore
      · obtain ⟨before, left, version, hsubmitting, rfl, hattempt⟩ := hreport
        cases before with
        | true => rfl
        | false =>
          rcases hattempt with hnone | hsettled | ⟨row, haccepted⟩
          · exact absurd hnone (by simp)
          · -- The worker has given up: the operation was included already.
            obtain ⟨rfl, hok, hincluded⟩ := refused_of_settled (Option.some.inj hsettled)
            obtain ⟨input, rfl, hhash, -⟩ := request_submitting hsubmitting hrequest
            rw [show (Call.track input).userOpHash = job.record.userOpHash from hhash] at hincluded
            simp [givesUp, hjob, hsubmitting, hrequest, hok, hincluded] at hgives
          · rw [Bool.false_or]
            exact taken_of_accepted (Option.some.inj haccepted)

/-- What a step adds to the jobs. -/
theorem sound_new (hsound : ∀ job ∈ s.jobs, job.Sound s.ops)
    (horderly : orderly leaseMs s event = true) (hmem : job' ∈ (next leaseMs s event).jobs)
    (hnew : job' ∉ s.jobs) : job'.Sound (next leaseMs s event).ops := by
  cases event with
  | create input => exact absurd hmem hnew
  | requeue input => exact absurd hmem hnew
  | call call => exact absurd hmem hnew
  | abort n => exact absurd (List.mem_of_mem_eraseIdx hmem) hnew
  | start bundler maxRetries userOpHash verdict =>
    have hfirst : ∀ row, (Phase.first maxRetries row verdict).accepted = false ∧
        ∀ claimed accepted, Phase.first maxRetries row verdict ≠ .broadcasting claimed accepted := by
      intro row
      cases verdict <;> exact ⟨rfl, by simp [Phase.first]⟩
    unfold next at hmem
    dsimp only at hmem
    split at hmem
    · exact absurd hmem hnew
    · split at hmem
      · next row _ _ =>
        obtain rfl := List.mem_singleton.mp ((List.mem_append.mp hmem).resolve_left hnew)
        refine ⟨fun haccepted => ?_, fun claimed accepted hphase => ?_⟩
        · exact absurd ((hfirst row).1.symm.trans haccepted) (by simp)
        · exact absurd hphase ((hfirst row).2 claimed accepted)
      · exact absurd hmem hnew
  | fetch n fate now =>
    cases hjob : s.jobs[n]? with
    | none =>
      simp only [next, hjob] at hmem
      exact absurd hmem hnew
    | some job =>
      have hput : job' ∈ (s.fetch leaseMs n job fate now).jobs := by
        simpa only [next, hjob] using hmem
      exact sound_fetch hjob (hsound job (List.mem_of_getElem? hjob)) horderly hput hnew
  | handleOps n now =>
    unfold next at hmem
    dsimp only at hmem
    split at hmem
    · exact absurd hmem hnew
    · split at hmem
      · obtain ⟨phase', hphase', rfl⟩ := (mem_put hmem).resolve_left hnew
        cases hphase'
        exact ⟨fun haccepted => absurd haccepted (by simp [Phase.accepted]),
          fun claimed accepted hphase => absurd hphase (by simp)⟩
      · exact absurd hmem hnew
  | mined n opSuccess txHash gasSpentWei =>
    unfold next at hmem
    dsimp only at hmem
    split at hmem
    · exact absurd hmem hnew
    · split at hmem
      · obtain ⟨phase', hphase', rfl⟩ := (mem_put hmem).resolve_left hnew
        cases hphase'
        exact ⟨fun haccepted => absurd haccepted (by simp [Phase.accepted]),
          fun claimed accepted hphase => absurd hphase (by simp)⟩
      · exact absurd hmem hnew

end Jobs

/-! ## Runs -/

section Runs

variable {leaseMs : Time} {s : System} {event : Event} {events : List Event}

/-- An orderly step keeps every job sound. -/
theorem sound_step (hsound : ∀ job ∈ s.jobs, job.Sound s.ops)
    (horderly : orderly leaseMs s event = true) :
    ∀ job ∈ (next leaseMs s event).jobs, job.Sound (next leaseMs s event).ops := by
  intro job hmem
  by_cases hold : job ∈ s.jobs
  · exact sound_next hold (Bool.and_eq_true_iff.mp horderly).1 (hsound job hold)
  · exact sound_new hsound horderly hmem hold

/-- An orderly step of sound jobs is safe. -/
theorem safe_of_orderly (hsound : ∀ job ∈ s.jobs, job.Sound s.ops)
    (horderly : orderly leaseMs s event = true) : Safe leaseMs s event := by
  refine ⟨fun hash row hfind hrow => ?_, fun n now job claimed accepted hevent hjob hphase => ?_⟩
  · exact included_next (Bool.and_eq_true_iff.mp horderly).1 hfind hrow
  · have hjobs := hsound job (List.mem_of_getElem? hjob)
    have haccepted : accepted = true := hjobs.reported claimed accepted hphase
    refine And.intro haccepted ?_
    intro row hfind
    have hclear := hjobs.clear (by rw [hphase]; exact haccepted) row hfind
    unfold heldByOther
    rw [hclear, Bool.false_and]

theorem after_concat : after leaseMs (events ++ [event]) = next leaseMs (after leaseMs events) event :=
  run_concat events event

theorem sound_run (horderly : Each (fun pre event => orderly leaseMs (after leaseMs pre) event = true)
    events) : ∀ job ∈ (after leaseMs events).jobs, job.Sound (after leaseMs events).ops := by
  induction events using List.reverseRecOn with
  | nil => exact fun job hjob => absurd hjob (by simp [after, run])
  | append_singleton events event ih =>
    obtain ⟨hevents, hevent⟩ := each_concat.mp horderly
    rw [after_concat]
    exact sound_step (ih hevents) hevent

/-- In a run whose steps are all orderly, an included operation stays included, and a worker calls
`handleOps` only after its report was accepted and while nobody else has a claim. -/
theorem single_broadcaster
    (horderly : Each (fun pre event => orderly leaseMs (after leaseMs pre) event = true) events) :
    Each (fun pre event => Safe leaseMs (after leaseMs pre) event) events := by
  rintro pre event ⟨post, rfl⟩
  have hpre : Each (fun pre event => orderly leaseMs (after leaseMs pre) event = true) pre := by
    intro pre' event' hpre'
    exact horderly pre' event' ((hpre'.trans (List.prefix_append _ _)).trans (List.prefix_append _ _))
  exact safe_of_orderly (sound_run hpre) (horderly pre event (List.prefix_append _ _))

end Runs

/-! ## Two bundlers -/

def order : NewUserOp := ⟨"0x77", "8453", "0xabc", "{}"⟩

def worked : List Event :=
  [.create order, .start "0xB1" 5 "0xabc" none, .start "0xB2" 5 "0xabc" none,
    .fetch 0 .answered 10, .fetch 0 .failedAfter 11, .fetch 1 .answered 12, .fetch 0 .answered 13,
    .fetch 0 .answered 14, .handleOps 0 15, .mined 0 true "0xaa" (some "21000"),
    .fetch 0 .answered 16, .fetch 0 .answered 17]

theorem single_broadcaster_worked :
    Each (fun pre event => Safe 1000 (after 1000 pre) event) worked :=
  single_broadcaster (each_of_take (by decide))

-- The operation is put back by a report without a version.
def reopened : List Event :=
  [.create order, .call (.claim ⟨"0xabc", "0xB1", some 1, 1000⟩ 10),
    .call (.track ⟨"0xabc", some .included, some "0xaa", none, none, some (some 2), "0xB1"⟩),
    .call (.track ⟨"0xabc", some .pending, none, none, none, none, "0xB2"⟩)]

-- The first bundler's lease runs out, its report is refused as often as it is made, and it broadcasts.
def overtaken : List Event :=
  [.create order, .start "0xB1" 2 "0xabc" none, .fetch 0 .answered 10,
    .call (.claim ⟨"0xabc", "0xB2", some 2, 1000⟩ 2000), .fetch 0 .answered 2001,
    .fetch 0 .answered 2002, .fetch 0 .answered 2003, .handleOps 0 2004]

/-- An included operation can be put back, and two bundlers can broadcast one. -/
theorem included_reopened : ¬Each (fun pre event => Safe 1000 (after 1000 pre) event) reopened ∧
    ¬Each (fun pre event => Safe 1000 (after 1000 pre) event) overtaken := by
  apply And.intro
  · intro h
    have hlast := (h (reopened.take 3) _ List.prefix_rfl).included "0xabc" _ rfl rfl
    obtain ⟨row, hfind, hrow⟩ := hlast
    cases hfind
    exact absurd hrow (by decide)
  · intro h
    have hlast := (h (overtaken.take 7) _ List.prefix_rfl).single 0 2004 _ _ _ rfl rfl rfl
    exact absurd hlast.1 (by decide)

end OnchainInvoice.Bundler
