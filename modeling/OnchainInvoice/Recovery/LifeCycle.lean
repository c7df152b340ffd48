import OnchainInvoice.Lib.Histories
import OnchainInvoice.Recovery.Requests

/-!
# The life cycle of a recovery request

A request that is completed, cancelled, rejected or archived stays so, and goes on the chain only
when the guardian or a signer of the operator approved it.  `operatorInitiated` checks neither; the
theorem says that nothing else breaks the life cycle.
-/

namespace OnchainInvoice.Recovery

open Lib.Histories Lib.Tables Server WalletLog

variable {env : Env} {s : RecoveryServer} {call : Call} {id : String} {r : Request}

abbrev runCalls (env : Env) (calls : List Call) : RecoveryServer :=
  run (next env) RecoveryServer.empty calls

/-! ## The life cycle -/

def Absorbs (s s' : RecoveryServer) : Prop :=
  ∀ id r, s.db.requests.find? id = some r → r.status.final →
    ∃ r', s'.db.requests.find? id = some r' ∧
      (r'.status = r.status ∨ (r.status = .completed ∧ r'.status = .archived))

def GoesOnChain (id : String) (s s' : RecoveryServer) : Prop :=
  (∃ r', s'.db.requests.find? id = some r' ∧ r'.status = .onChain) ∧
    ∀ r, s.db.requests.find? id = some r → r.status ≠ .onChain

/-- The guardian approves the request, or a signer of the operator initiates it. -/
def Approves (env : Env) (id : String) (s : RecoveryServer) (call : Call) : Prop :=
  (step env s call).1 = .ok () ∧ ((∃ n answer session, call = .resume n answer ∧
      s.pending[n]? = some (.guarding session (.approve id))) ∨
    ∃ c session, call = .operatorInitiated id c ∧ c.session = some session ∧
      env.isSigner c.now session)

def KeepsLifeCycle (env : Env) (calls : List Call) (call : Call) : Prop :=
  Absorbs (runCalls env calls) (next env (runCalls env calls) call) ∧
    ∀ id, GoesOnChain id (runCalls env calls) (next env (runCalls env calls) call) →
      Happened (next env) RecoveryServer.empty (Approves env id) (calls ++ [call])

/-! ## When it is kept -/

/-- What `operatorInitiated` checks of its request. -/
def Initiates (db : RecoveryDb) (requestId : String) (c : OperatorCall) (session : String)
    (request : Request) : Prop :=
  c.session = some session ∧ getWalletRecoveryRequest db requestId = some request ∧
    (∃ account identityId, getWalletAccount db request.walletAddress = some account ∧
      account.identityId = some identityId ∧ identityId ≠ "") ∧
    db.jobs.find? c.newId = none

/-- Whoever reports that a request was initiated reports no request that is finished and, unless
the guardian has approved it, is a signer of the operator. -/
def Orderly (env : Env) (s : RecoveryServer) (call : Call) : Prop :=
  ∀ id c session request, call = .operatorInitiated id c → Initiates s.db id c session request →
    request.status.final = false ∧ (request.status.awaiting → env.isSigner c.now session)

theorem initiates_of_accepted {c : OperatorCall}
    (h : (step env s (.operatorInitiated id c)).1 = .ok ()) :
    (∃ session request, Initiates s.db id c session request) ∧
      ∃ r', (next env s (.operatorInitiated id c)).db.requests.find? id = some r' ∧
        r'.status = .onChain := by
  revert h
  show (operatorInitiated s.db id c).1 = .ok () → (∃ session request, Initiates s.db id c session
    request) ∧ ∃ r', (operatorInitiated s.db id c).2.requests.find? id = some r' ∧ r'.status = .onChain
  unfold operatorInitiated
  split
  · intro h
    cases h
  next session hsession =>
    split
    · intro h
      cases h
    next request hfound =>
      split
      · intro h
        cases h
      next identityId hidentity =>
        rcases inserted_cases (createWalletRecoveryJob s.db c.now c.newId (executeJob request)) _
          with ⟨e, heq⟩ | ⟨db', hcreated, heq⟩
        · rw [heq]
          intro h
          cases h
        · rw [heq]
          intro _
          obtain ⟨jobs, hjob, rfl⟩ := createJob_eq hcreated
          obtain ⟨account, haccount, hid⟩ := Option.bind_eq_some_iff.mp hidentity
          obtain ⟨hsome, hne⟩ := Option.filter_eq_some_iff.mp hid
          have hidentityId : identityId ≠ "" := by simpa using hne
          refine ⟨⟨session, request, hsession, hfound,
            ⟨account, identityId, haccount, hsome, hidentityId⟩, Table.find?_of_insert hjob⟩,
            _, find?_update hfound, ?_⟩
          rw [if_pos (Table.key_of_find? hfound).symm]
          rfl

theorem accepted_of_initiates {c : OperatorCall} {session : String} {request : Request}
    (h : Initiates s.db id c session request) :
    (step env s (.operatorInitiated id c)).1 = .ok () := by
  obtain ⟨hsession, hfound, ⟨account, identityId, haccount, hidentity, hne⟩, hfree⟩ := h
  show (operatorInitiated s.db id c).1 = .ok ()
  have hfilter : (getWalletAccount s.db request.walletAddress).bind (fun account =>
      account.identityId.filter (· ≠ "")) = some identityId := by
    rw [haccount, Option.bind_some, hidentity]
    simp [hne]
  have hjob : s.db.jobs.insert (newJob c.now c.newId (executeJob request)) ≠ none := by
    intro hnone
    obtain ⟨job, hjob⟩ := Table.insert_eq_none.mp hnone
    exact Option.some_ne_none job (hjob.symm.trans hfree)
  obtain ⟨jobs, hinsert⟩ := Option.ne_none_iff_exists'.mp hjob
  unfold operatorInitiated
  simp only [hsession, hfound, hfilter, createWalletRecoveryJob, hinsert]
  rfl

theorem queued_of_accepted {n : Nat} {answer : Answer} {session : GuardianSession}
    (hpending : s.pending[n]? = some (.guarding session (.approve id)))
    (h : (step env s (.resume n answer)).1 = .ok ()) :
    ∃ r', (next env s (.resume n answer)).db.requests.find? id = some r' ∧ r'.status = .queued := by
  rw [step_guarding env s hpending] at h
  have hdb : (next env s (.resume n answer)).db =
      (approve env s.db id (guardianCall session answer)).2 := by
    show (resume env s n answer).2.db = _
    unfold resume
    rw [hpending]
    rfl
  rw [hdb]
  revert h
  show (approve env s.db id (guardianCall session answer)).1 = .ok () → _
  unfold approve
  split
  · intro h
    cases h
  next request hcheck =>
    rcases inserted_cases (createWalletRecoveryJob s.db (guardianCall session answer).now
      (guardianCall session answer).newId (initiateJob request)) _
      with ⟨e, heq⟩ | ⟨db', hcreated, heq⟩
    · rw [heq]
      intro h
      cases h
    · rw [heq]
      intro _
      obtain ⟨jobs, hjob, rfl⟩ := createJob_eq hcreated
      have hfound : s.db.requests.find? id = some request := (checkApprove_eq_ok hcheck).1
      refine ⟨_, find?_update hfound, ?_⟩
      rw [if_pos (Table.key_of_find? hfound).symm]
      rfl

/-- An approval leaves a request that no longer waits. -/
theorem not_awaiting_of_approves (h : Approves env id s call) :
    ∃ r', (next env s call).db.requests.find? id = some r' ∧ ¬ r'.status.awaiting := by
  obtain ⟨haccepted, ⟨n, answer, session, rfl, hpending⟩ | ⟨c, session, rfl, -, -⟩⟩ := h
  · obtain ⟨r', hr', hstatus⟩ := queued_of_accepted hpending haccepted
    exact ⟨r', hr', by simp [RequestStatus.awaiting, hstatus]⟩
  · obtain ⟨-, r', hr', hstatus⟩ := initiates_of_accepted haccepted
    exact ⟨r', hr', by simp [RequestStatus.awaiting, hstatus]⟩

/-! ## The invariant -/

-- The statuses of a request with a job of the kind.
def StatusFor : Option JobKind → RequestStatus → Prop
  | some .initiate, status => status = .queued ∨ status = .onChain
  | some .execute, status => status = .onChain ∨ status = .archived
  | some .cancel, status => status = .cancelled
  | none, status => status.awaiting ∨ status = .rejected ∨ status = .cancelled

/-- The job of a request is there and decides its status; it was initiated for the guardian if it
is a job to initiate, and not at all while it waits. -/
structure Tracked (env : Env) (calls : List Call) (db : RecoveryDb) (id : String) (r : Request) :
    Prop where
  job : ∀ j ∈ r.jobId, jobKind db j ≠ none
  status : StatusFor (r.jobId.bind (jobKind db)) r.status
  approved : r.jobId.bind (jobKind db) = some .initiate →
    Happened (next env) RecoveryServer.empty (Approves env id) calls
  waiting : r.status.awaiting → ¬ Happened (next env) RecoveryServer.empty (Approves env id) calls

structure LifeCycle (env : Env) (calls : List Call) (s : RecoveryServer) : Prop where
  tracked : ∀ id r, s.db.requests.find? id = some r → Tracked env calls s.db id r
  absent : ∀ id, s.db.requests.find? id = none →
    ¬ Happened (next env) RecoveryServer.empty (Approves env id) calls

theorem lifeCycle_empty : LifeCycle env [] RecoveryServer.empty := by
  refine ⟨fun id r h => ?_, fun id _ => happened_nil⟩
  cases h

theorem waiting_of_moved {db' : RecoveryDb} {r' : Request} (h : Moved env s call db' id r r')
    (hwaiting : r'.status.awaiting) : r.status.awaiting := by
  unfold RequestStatus.awaiting at *
  cases h with
  | same hstatus => rwa [← hstatus]
  | verified hbefore => exact .inl hbefore
  | synced j kind _ _ hstatus =>
    cases kind <;> simp [hstatus, includedStatus] at hwaiting
  | approved _ _ _ _ _ _ _ hstatus | rejected _ hstatus | withdrawn _ hstatus | stopped _ _ hstatus
  | initiated _ _ _ hstatus => simp [hstatus] at hwaiting

theorem jobless_of_awaiting {calls : List Call} {db : RecoveryDb} (h : Tracked env calls db id r)
    (hwaiting : r.status.awaiting) : r.jobId = none := by
  cases hjob : r.jobId with
  | none => rfl
  | some j =>
    obtain ⟨kind, hkind⟩ := Option.ne_none_iff_exists'.mp (h.job j hjob)
    have hstatus := h.status
    rw [hjob, Option.bind_some, hkind] at hstatus
    unfold RequestStatus.awaiting at hwaiting
    cases kind with
    | initiate => rcases hstatus with hs | hs <;> simp [hs] at hwaiting
    | execute => rcases hstatus with hs | hs <;> simp [hs] at hwaiting
    | cancel => simp [show r.status = .cancelled from hstatus] at hwaiting

theorem tracked_moved {calls : List Call} {r' : Request}
    (h : Tracked env calls (runCalls env calls).db id r)
    (hfound : (next env (runCalls env calls) call).db.requests.find? id = some r')
    (hmoved : Moved env (runCalls env calls) call (next env (runCalls env calls) call).db id r r') :
    Tracked env (calls ++ [call]) (next env (runCalls env calls) call).db id r' := by
  have hchange := change env (runCalls env calls) call
  have hwaiting : r'.status.awaiting →
      ¬ Happened (next env) RecoveryServer.empty (Approves env id) (calls ++ [call]) := by
    intro hr' happened
    rcases happened_concat.mp happened with hbefore | hnow
    · exact h.waiting (waiting_of_moved hmoved hr') hbefore
    · obtain ⟨r'', hr'', hno⟩ := not_awaiting_of_approves hnow
      cases hfound.symm.trans hr''
      exact hno hr'
  -- A request whose job is as it was keeps the kind of its job.
  have hkind : r'.jobId = r.jobId →
      r'.jobId.bind (jobKind (next env (runCalls env calls) call).db) =
        r.jobId.bind (jobKind (runCalls env calls).db) := by
    intro hjob
    rw [hjob]
    cases hj : r.jobId with
    | none => rfl
    | some j =>
      obtain ⟨kind, hk⟩ := Option.ne_none_iff_exists'.mp (h.job j hj)
      rw [Option.bind_some, Option.bind_some, hk, jobKind_kept hchange hk]
  have hkept : r'.jobId = r.jobId → ∀ j ∈ r'.jobId,
      jobKind (next env (runCalls env calls) call).db j ≠ none := by
    intro hjob j hj
    rw [hjob] at hj
    obtain ⟨kind, hk⟩ := Option.ne_none_iff_exists'.mp (h.job j hj)
    rw [jobKind_kept hchange hk]
    exact Option.some_ne_none kind
  have happroved : r'.jobId = r.jobId →
      r'.jobId.bind (jobKind (next env (runCalls env calls) call).db) = some .initiate →
      Happened (next env) RecoveryServer.empty (Approves env id) (calls ++ [call]) := by
    intro hjob hinitiate
    rw [hkind hjob] at hinitiate
    exact happened_concat.mpr (.inl (h.approved hinitiate))
  -- A request whose job is new.
  have hnew : ∀ j kind, r'.jobId = some j →
      jobKind (next env (runCalls env calls) call).db j = some kind →
      r'.jobId.bind (jobKind (next env (runCalls env calls) call).db) = some kind ∧
        ∀ j ∈ r'.jobId, jobKind (next env (runCalls env calls) call).db j ≠ none := by
    intro j kind hj hk
    rw [hj]
    refine ⟨hk, ?_⟩
    intro j' hj'
    cases hj'
    rw [hk]
    exact Option.some_ne_none kind
  have hjobless : r.status.awaiting → r'.jobId = r.jobId →
      r'.jobId.bind (jobKind (next env (runCalls env calls) call).db) = none := by
    intro hr hjob
    rw [hjob, jobless_of_awaiting h hr]
    rfl
  cases hmoved with
  | same hstatus hjob =>
    refine ⟨hkept hjob, ?_, happroved hjob, hwaiting⟩
    rw [hkind hjob, hstatus]
    exact h.status
  | verified hbefore hstatus hjob =>
    refine ⟨hkept hjob, ?_, happroved hjob, hwaiting⟩
    rw [hjobless (.inl hbefore) hjob, hstatus]
    exact .inl (.inr rfl)
  | approved n answer session hcall hpending haccepted hbefore hstatus hjob hk =>
    obtain ⟨hbind, hjobs⟩ := hnew _ _ hjob hk
    refine ⟨hjobs, ?_, fun _ => happened_concat.mpr (.inr ⟨haccepted,
      .inl ⟨n, answer, session, hcall, hpending⟩⟩), hwaiting⟩
    rw [hbind, hstatus]
    exact .inl rfl
  | rejected hbefore hstatus hjob =>
    refine ⟨hkept hjob, ?_, happroved hjob, hwaiting⟩
    rw [hjobless hbefore hjob, hstatus]
    exact .inr (.inl rfl)
  | withdrawn hbefore hstatus hjob =>
    refine ⟨hkept hjob, ?_, happroved hjob, hwaiting⟩
    rw [hjobless hbefore hjob, hstatus]
    exact .inr (.inr rfl)
  | stopped j hbefore hstatus hjob hk =>
    obtain ⟨hbind, hjobs⟩ := hnew _ _ hjob hk
    refine ⟨hjobs, ?_, fun heq => ?_, hwaiting⟩
    · rw [hbind, hstatus]
      exact rfl
    · rw [hbind] at heq
      cases heq
  | initiated c hcall haccepted hstatus hjob hk =>
    obtain ⟨hbind, hjobs⟩ := hnew _ _ hjob hk
    refine ⟨hjobs, ?_, fun heq => ?_, hwaiting⟩
    · rw [hbind, hstatus]
      exact .inl rfl
    · rw [hbind] at heq
      cases heq
  | synced j kind hbefore hk hstatus hjob =>
    have hsame : r'.jobId = r.jobId := hjob.trans hbefore.symm
    refine ⟨hkept hsame, ?_, happroved hsame, hwaiting⟩
    rw [hkind hsame, hbefore, Option.bind_some, hk, hstatus]
    cases kind with
    | initiate => exact .inr rfl
    | execute => exact .inr rfl
    | cancel => exact rfl

theorem lifeCycle_next {calls : List Call} (h : LifeCycle env calls (runCalls env calls)) :
    LifeCycle env (calls ++ [call]) (next env (runCalls env calls) call) := by
  have hchange := change env (runCalls env calls) call
  apply LifeCycle.mk
  · intro id r' hr'
    cases hr : (runCalls env calls).db.requests.find? id with
    | some r =>
      obtain ⟨r'', hfound, -, hmoved⟩ := request_moved hchange hr
      cases hfound.symm.trans hr'
      exact tracked_moved (h.tracked id r hr) hr' hmoved
    | none =>
      obtain ⟨hwaiting, hjob⟩ := (request_created hchange hr hr').waits
      refine ⟨by simp [hjob], ?_, by simp [hjob], fun _ happened => ?_⟩
      · rw [hjob]
        exact .inl hwaiting
      · rcases happened_concat.mp happened with hbefore | hnow
        · exact h.absent id hr hbefore
        · obtain ⟨r'', hr'', hno⟩ := not_awaiting_of_approves hnow
          cases hr'.symm.trans hr''
          exact hno hwaiting
  · intro id hnone happened
    rcases happened_concat.mp happened with hbefore | hnow
    · cases hr : (runCalls env calls).db.requests.find? id with
      | some r =>
        obtain ⟨r', hfound, -⟩ := request_moved hchange hr
        rw [hnone] at hfound
        cases hfound
      | none => exact h.absent id hr hbefore
    · obtain ⟨r'', hr'', -⟩ := not_awaiting_of_approves hnow
      rw [hnone] at hr''
      cases hr''

theorem lifeCycle (env : Env) (calls : List Call) : LifeCycle env calls (runCalls env calls) :=
  run_invariant lifeCycle_empty (fun _ _ h => lifeCycle_next h) calls

/-! ## Every step -/

theorem final_not_awaiting (hfinal : r.status.final) : ¬ r.status.awaiting := by
  unfold RequestStatus.awaiting
  rintro (h | h) <;> simp [h, RequestStatus.final] at hfinal

/-- A request that is finished and has a job is left as it is by the callback of the job. -/
theorem includedStatus_of_final {kind : JobKind} (hstatus : StatusFor (some kind) r.status)
    (hfinal : r.status.final) : includedStatus kind = r.status := by
  cases kind with
  | initiate => rcases hstatus with h | h <;> simp [h, RequestStatus.final] at hfinal
  | execute =>
    rcases hstatus with h | h
    · simp [h, RequestStatus.final] at hfinal
    · exact h.symm
  | cancel => exact hstatus.symm

theorem absorbs_of_orderly (calls : List Call) (h : Orderly env (runCalls env calls) call) :
    Absorbs (runCalls env calls) (next env (runCalls env calls) call) := by
  intro id r hr hfinal
  obtain ⟨r', hfound, -, hmoved⟩ := request_moved (change env (runCalls env calls) call) hr
  refine ⟨r', hfound, .inl ?_⟩
  have htracked := (lifeCycle env calls).tracked id r hr
  cases hmoved with
  | same hstatus => exact hstatus
  | verified hbefore => exact absurd (.inl hbefore) (final_not_awaiting hfinal)
  | approved _ _ _ _ _ _ hbefore => exact absurd (.inr hbefore) (final_not_awaiting hfinal)
  | rejected hbefore => exact absurd hbefore (final_not_awaiting hfinal)
  | withdrawn hbefore => exact absurd hbefore (final_not_awaiting hfinal)
  | stopped j hbefore => rcases hbefore with hs | hs <;> simp [hs, RequestStatus.final] at hfinal
  | initiated c hcall haccepted =>
    subst hcall
    obtain ⟨⟨session, request, hinitiates⟩, -⟩ := initiates_of_accepted haccepted
    cases hr.symm.trans hinitiates.2.1
    exact absurd hfinal (by simp [(h id c session r rfl hinitiates).1])
  | synced j kind hbefore hk hstatus =>
    have hfor := htracked.status
    rw [hbefore, Option.bind_some, hk] at hfor
    exact hstatus.trans (includedStatus_of_final hfor hfinal)

theorem approved_of_queued {calls : List Call} {db : RecoveryDb} (h : Tracked env calls db id r)
    (hqueued : r.status = .queued) :
    Happened (next env) RecoveryServer.empty (Approves env id) calls := by
  apply h.approved
  have hfor := h.status
  cases hkind : r.jobId.bind (jobKind db) with
  | none =>
    rw [hkind, hqueued] at hfor
    simp [StatusFor, RequestStatus.awaiting] at hfor
  | some kind =>
    rw [hkind, hqueued] at hfor
    cases kind with
    | initiate => rfl
    | execute => simp [StatusFor] at hfor
    | cancel => simp [StatusFor] at hfor

theorem approved_of_orderly (calls : List Call) (h : Orderly env (runCalls env calls) call)
    (hon : GoesOnChain id (runCalls env calls) (next env (runCalls env calls) call)) :
    Happened (next env) RecoveryServer.empty (Approves env id) (calls ++ [call]) := by
  obtain ⟨⟨r', hr', honChain⟩, hbefore⟩ := hon
  have hchange := change env (runCalls env calls) call
  cases hr : (runCalls env calls).db.requests.find? id with
  | none =>
    obtain ⟨hwaiting, -⟩ := (request_created hchange hr hr').waits
    simp [honChain, RequestStatus.awaiting] at hwaiting
  | some r =>
    obtain ⟨r'', hfound, -, hmoved⟩ := request_moved hchange hr
    cases hfound.symm.trans hr'
    have htracked := (lifeCycle env calls).tracked id r hr
    have hnot : r.status ≠ .onChain := hbefore r hr
    cases hmoved with
    | same hstatus => exact absurd (hstatus.symm.trans honChain) hnot
    | verified _ hstatus | approved _ _ _ _ _ _ _ hstatus | rejected _ hstatus | withdrawn _ hstatus
    | stopped _ _ hstatus => simp [honChain] at hstatus
    | initiated c hcall haccepted =>
      obtain ⟨⟨session, request, hinitiates⟩, -⟩ := initiates_of_accepted (hcall ▸ haccepted)
      cases hr.symm.trans hinitiates.2.1
      obtain ⟨hfinal, hsigner⟩ := h id c session r hcall hinitiates
      by_cases hwaiting : r.status.awaiting
      · exact happened_concat.mpr (.inr ⟨haccepted,
          .inr ⟨c, session, hcall, hinitiates.1, hsigner hwaiting⟩⟩)
      · refine happened_concat.mpr (.inl (approved_of_queued htracked ?_))
        unfold RequestStatus.awaiting at hwaiting
        cases hs : r.status <;> simp_all [RequestStatus.final]
    | synced j kind hjob hk hstatus =>
      refine happened_concat.mpr (.inl (htracked.approved ?_))
      rw [hjob, Option.bind_some, hk]
      cases kind with
      | initiate => rfl
      | execute => simp [honChain, includedStatus] at hstatus
      | cancel => simp [honChain, includedStatus] at hstatus

theorem orderly_of_keeps (calls : List Call) (h : KeepsLifeCycle env calls call) :
    Orderly env (runCalls env calls) call := by
  intro id c session request hcall hinitiates
  subst hcall
  have haccepted : (step env (runCalls env calls) (.operatorInitiated id c)).1 = .ok () :=
    accepted_of_initiates hinitiates
  obtain ⟨-, r', hr', honChain⟩ := initiates_of_accepted haccepted
  have hfound : (runCalls env calls).db.requests.find? id = some request := hinitiates.2.1
  refine And.intro ?_ fun hwaiting => ?_
  · by_contra hfinal
    obtain ⟨r'', hr'', hstatus⟩ := h.1 id request hfound (by simpa using hfinal)
    cases hr'.symm.trans hr''
    rcases hstatus with hs | hs
    · rw [← hs, honChain] at hfinal
      exact hfinal rfl
    · simp [honChain] at hs
  · have hon : GoesOnChain id (runCalls env calls)
        (next env (runCalls env calls) (.operatorInitiated id c)) := by
      refine ⟨⟨r', hr', honChain⟩, fun r hr hs => ?_⟩
      cases hr.symm.trans hfound
      simp [hs, RequestStatus.awaiting] at hwaiting
    rcases happened_concat.mp (h.2 id hon) with hbefore | hnow
    · exact absurd hbefore (((lifeCycle env calls).tracked id request hfound).waiting hwaiting)
    · obtain ⟨-, ⟨n, answer, session', hcall, -⟩ | ⟨c', session', hcall, hsession, hsigner⟩⟩ := hnow
      · cases hcall
      · cases hcall
        cases hinitiates.1.symm.trans hsession
        exact hsigner

/-- A run keeps the life cycle of every request exactly if every report that a request was
initiated is orderly. -/
theorem life_cycle_iff (env : Env) (calls : List Call) :
    Each (KeepsLifeCycle env) calls ↔
      Each (fun before call => Orderly env (runCalls env before) call) calls := by
  refine forall_congr' fun before => forall_congr' fun call => imp_congr_right fun _ => ?_
  refine Iff.intro (orderly_of_keeps before) fun h => ?_
  exact ⟨absorbs_of_orderly before h, fun id => approved_of_orderly before h⟩

/-! ## A rejected request -/

def hex32 (digit : Char) : String := String.ofList ('0' :: 'x' :: List.replicate 64 digit)

-- A key signs by its first coordinate; whoever asks is no signer of the operator.
def toyEnv : Env where
  chainId := "1"
  rpcUrl := false
  rpId := "shop"
  corsOrigins := []
  leaseMs := 60000
  factoryAddress := none
  implementationAddress := none
  getAddress := fun s => if s = "0xw" ∨ s = "0xg" then some s else none
  hostname := fun s => if s = "https://shop" then some "shop" else none
  signed := fun qx _ a => some (a.signature = qx)
  verifyMessage := fun _ signature => some signature
  recoveredByMessage := fun _ _ => none
  recoveredByTypedData := fun _ _ _ _ _ => none
  hashOtpCode := fun code => code
  hashToken := fun token => token
  deriveWalletSalt := fun qx _ => qx
  predictWalletAddress := fun _ _ _ => "0xw"
  computeIdentityMethodId := fun identityId _ qx _ _ => identityId ++ qx
  isSigner := fun _ _ => false

def toyBody (body : List (String × String)) : Body :=
  fun name => (body.find? fun property => property.1 = name).map Prod.snd

def toyInput (body : List (String × String)) (newId code : String) (assertion : Option Assertion) :
    Input where
  body := toyBody body
  captcha := true
  assertion := assertion
  now := 1
  newId := newId
  otpId := "otp"
  code := code

def toyAnswer (newId : String) : Answer where
  input := toyInput [] newId "" none
  restoreEnabled := true
  existingOwner := false
  mailSent := true
  digest := none
  guardian := some "0xg"

-- An account of an identity, and somebody else's request for it.
def requestedRun : List Call :=
  [.elsewhere ⟨.upsertWalletAccount ⟨"0xw", "salt", hex32 '1', hex32 '2', some "cred", none,
      some "0xid", none⟩, 1, 1⟩,
    .recoveryChallenge (toyInput [("purpose", "recover")] "challenge" "c" none),
    .createRecoveryRequest (toyInput [("walletAddress", "0xw"), ("challengeId", "challenge"),
      ("ownerQx", hex32 '3'), ("ownerQy", hex32 '4'), ("credentialId", "other")] "" ""
      (some ⟨some "webauthn.get", some "c", some "https://shop", hex32 '3'⟩)) none none [],
    .resume 0 (toyAnswer ""),
    .resume 0 (toyAnswer "request"),
    .resume 0 (toyAnswer "")]

-- The guardian rejects it.
def rejectedRun : List Call := requestedRun ++
  [.guardianNonce "0xg" "n" (some "0xg") 1,
    .guardianLogin (toyBody [("address", "0xg"), ("signature", "0xg"), ("message", "guardian n"),
      ("nonce", "n")]) (some "0xg") "token" 1,
    .guardianRequest (some "token") (.reject "request") 1,
    .resume 0 (toyAnswer "")]

def lateReport : Call := .operatorInitiated "request" ⟨some "0xother", 2, "job"⟩

theorem rejected_request_revived : ¬ Each (KeepsLifeCycle toyEnv) (rejectedRun ++ [lateReport]) := by
  intro h
  have hkeeps : KeepsLifeCycle toyEnv rejectedRun lateReport := (each_concat.mp h).2
  have hruns : ((runCalls toyEnv rejectedRun).db.requests.find? "request").map Request.status =
        some .rejected ∧
      ((next toyEnv (runCalls toyEnv rejectedRun) lateReport).db.requests.find?
        "request").map Request.status = some .onChain := by
    decide +kernel
  obtain ⟨hbefore, hafter⟩ := hruns
  obtain ⟨r, hr, hstatus⟩ := Option.map_eq_some_iff.mp hbefore
  obtain ⟨r', hr', habsorbed⟩ := hkeeps.1 "request" r hr (by rw [hstatus]; rfl)
  rw [hr', Option.map_some, Option.some.injEq] at hafter
  rcases habsorbed with hsame | harchived
  · rw [hsame, hstatus] at hafter
    cases hafter
  · rw [hstatus] at harchived
    cases harchived.1

end OnchainInvoice.Recovery
