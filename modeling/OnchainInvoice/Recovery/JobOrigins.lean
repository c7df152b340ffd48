import OnchainInvoice.Recovery.Approval

/-!
# Where the jobs to initiate a recovery come from

Nothing rewrites what a job is to do, so every job of a run that is to initiate a recovery was made
by an approval that passed the gate, or for a client that had passed its own checks.
-/

namespace OnchainInvoice.Recovery

open Lib.Histories Lib.Tables Server

variable {env : Env} {s : RecoveryServer} {calls before : List Call} {call : Call} {db' : RecoveryDb}
  {job : Job}

-- What a job is to do.
def Job.core (job : Job) :=
  (job.walletAddress, job.chainId, job.kind, job.newQx, job.newQy, job.cancelSignature)

/-- The job is made for a client of the API whose user owns the wallet by email and has signed a
challenge with the new key. -/
def ForClient (env : Env) (s : RecoveryServer) (call : Call) (job : Job) : Prop :=
  ∃ client wallet input identityVerified key t,
    call = .initiateRecovery client wallet input identityVerified ∧
    checkInitiate s.db client wallet input.body identityVerified = .ok key ∧
    provenKey env s.db client input .recover key =
      (.ok (), { s.db with walletChallenges := t }) ∧
    job = newJob input.now input.newId (clientInitiateJob env wallet key input.body)

/-- What a step leaves of the jobs. -/
inductive JobsLeft (env : Env) (s : RecoveryServer) (call : Call) (db' : RecoveryDb) : Prop
  | same (h : db'.jobs = s.db.jobs)
  | inserted (job : Job) (hinsert : s.db.jobs.insert job = some db'.jobs)
      (hnew : job.kind = .initiate →
        (∀ client wallet input identityVerified,
          call ≠ .initiateRecovery client wallet input identityVerified) ∨ ForClient env s call job)
  | worked (id : String) (f : Job → Job) (hid : ∀ job, (f job).id = job.id)
      (hcore : ∀ job, (f job).core = job.core) (h : db'.jobs = s.db.jobs.modify id f hid)
      (hcall : (∃ authorized input now, call = .claimJob authorized input now) ∨
        ∃ authorized input now, call = .trackJob authorized input now)

-- What a claim makes of the job.
def claimedJob (now : Time) (input : ClaimJob) (job : Job) : Job :=
  { job with
    claimedBy := some (lowerCase input.workerId)
    claimedUntil := some (now + input.leaseMs)
    status := .claimed
    version := job.version + 1 }

theorem claim_modifies {db db' : RecoveryDb} {input : ClaimJob} {now : Time}
    (h : claimWalletRecoveryJob db now input = .ok db') :
    db'.jobs = db.jobs.modify input.id (claimedJob now input) fun _ => rfl := by
  unfold claimWalletRecoveryJob at h
  split at h
  · cases h
  · cases h
    rfl

theorem track_modifies {db db' : RecoveryDb} {input : TrackJob}
    (h : trackWalletRecoveryJob db input = .ok db') :
    db'.jobs = db.jobs.modify input.id (trackedJob input) (trackedJob_id input) := by
  unfold trackWalletRecoveryJob at h
  split at h
  · cases h
  · split at h
    · cases h
    · split at h
      · cases h
      · cases h
        rfl

theorem jobs_left (h : Change env s call db') : JobsLeft env s call db' := by
  cases h with
  | codeTried =>
    obtain ⟨t, heq⟩ := consumeOtp_eq
    exact .same (by rw [heq])
  | codeSent hsent =>
    obtain ⟨t, rfl⟩ := createOtp_eq hsent
    exact .same rfl
  | attached _ _ _ _ hleft | created _ _ _ hleft =>
    rcases hleft with rfl | hsent
    · exact .same rfl
    · obtain ⟨t, rfl⟩ := createOtp_eq hsent
      exact .same rfl
  | emailVerified | requestVerified =>
    refine .same ?_
    obtain ⟨t, heq⟩ := consumeOtp_eq
    rw [heq]
    first | done | rfl
  | stopped _ _ hjob => exact .inserted _ hjob fun _ => .inl fun _ _ _ _ h => by cases h
  | approved _ _ hjob => exact .inserted _ hjob fun _ => .inl fun _ _ _ _ h => by cases h
  | clientCreated _ hproven =>
    refine .same ?_
    obtain ⟨t, ht⟩ := provenKey_db env s.db _ _ .create _
    rw [hproven] at ht
    cases ht
    exact upsertWalletIdentity_requests.2
  | clientInitiated hcheck hproven hleft =>
    rcases hleft with rfl | hjob
    · exact .same rfl
    · exact .inserted _ hjob fun _ => .inr ⟨_, _, _, _, _, _, rfl, hcheck, hproven, rfl⟩
  | clientCancelled hready _ hjob =>
    refine .inserted _ hjob fun hkind => ?_
    cases hkind
  | initiated _ _ hjob => exact .inserted _ hjob fun _ => .inl fun _ _ _ _ h => by cases h
  | @claimed authorized input now _ hclaim =>
    exact .worked _ (claimedJob now { input with leaseMs := env.leaseMs }) (fun _ => rfl)
      (fun _ => rfl) (claim_modifies hclaim) (.inl ⟨_, _, _, rfl⟩)
  | tracked htrack =>
    exact .worked _ _ (trackedJob_id _) (fun _ => rfl) (track_modifies htrack) (.inr ⟨_, _, _, rfl⟩)
  | @synced authorized input now status db₁ htrack =>
    have hjobs : (syncRequestFromJob env db₁ input.id status now).jobs =
        s.db.jobs.modify input.id (trackedJob input) (trackedJob_id input) := by
      rw [sync_jobs, track_modifies htrack]
    exact .worked _ _ (trackedJob_id input) (fun _ => rfl) hjobs (.inr ⟨_, _, _, rfl⟩)
  | _ => exact .same rfl

/-- A job of the state after a step was there before, with the same to do, or is new. -/
theorem job_before_or_new (h : JobsLeft env s call db') {id : String}
    (hfound : db'.jobs.find? id = some job) :
    (∃ old, s.db.jobs.find? id = some old ∧ old.core = job.core) ∨
      s.db.jobs.find? job.id = none ∧ db'.jobs.find? job.id = some job ∧
        (job.kind = .initiate → (∀ client wallet input identityVerified,
          call ≠ .initiateRecovery client wallet input identityVerified) ∨
            ForClient env s call job) := by
  cases h with
  | same h =>
    rw [h] at hfound
    exact .inl ⟨job, hfound, rfl⟩
  | inserted new hinsert hnew =>
    rw [Table.find?_insert hinsert] at hfound
    by_cases hid : new.id = id
    · rw [if_pos hid] at hfound
      cases hfound
      refine .inr ⟨Table.find?_of_insert hinsert, ?_, hnew⟩
      rw [Table.find?_insert hinsert, if_pos rfl]
    · rw [if_neg hid] at hfound
      exact .inl ⟨job, hfound, rfl⟩
  | worked id' f hid hcore h =>
    rw [h, Table.find?_modify] at hfound
    by_cases heq : id = id'
    · rw [if_pos heq] at hfound
      obtain ⟨old, hold, rfl⟩ := Option.map_eq_some_iff.mp hfound
      exact .inl ⟨old, hold, (hcore old).symm⟩
    · rw [if_neg heq] at hfound
      exact .inl ⟨job, hfound, rfl⟩

/-- A job that asks the same was made by a call that passed the guardian's gate or the client's. -/
def Warranted (env : Env) (calls : List Call) (job : Job) : Prop :=
  ∃ before call made, before ++ [call] <+: calls ∧ CreatesJob env before call made ∧
    made.core = job.core ∧
    ((∃ id r, Gate env before call made id r) ∨ ForClient env (runCalls env before) call made)

theorem Warranted.mono (h : Warranted env calls job) {calls' : List Call}
    (hcalls : calls <+: calls') : Warranted env calls' job := by
  obtain ⟨before, call, made, hprefix, hmade⟩ := h
  exact ⟨before, call, made, hprefix.trans hcalls, hmade⟩

theorem Warranted.congr {job' : Job} (h : Warranted env calls job) (hcore : job.core = job'.core) :
    Warranted env calls job' := by
  obtain ⟨before, call, made, hprefix, hcreates, hsame, hgate⟩ := h
  exact ⟨before, call, made, hprefix, hcreates, hsame.trans hcore, hgate⟩

theorem kind_of_core {job' : Job} (h : job.core = job'.core) : job.kind = job'.kind := by
  simp only [Job.core, Prod.mk.injEq] at h
  exact h.2.2.1

/-- Every job of a run that is to initiate a recovery is warranted. -/
theorem warranted_of_found (env : Env) (calls : List Call) :
    ∀ id job, (runCalls env calls).db.jobs.find? id = some job → job.kind = .initiate →
      Warranted env calls job := by
  refine run_invariant (s := RecoveryServer.empty)
    (I := fun calls (s : RecoveryServer) => ∀ id job, s.db.jobs.find? id = some job →
      job.kind = .initiate → Warranted env calls job) ?_ (fun calls call ih => ?_) calls
  · intro id job h
    have hnone : RecoveryServer.empty.db.jobs.find? id = none := Table.find?_empty
    rw [hnone] at h
    cases h
  · intro id job hfound hkind
    have hgrows : calls <+: calls ++ [call] := List.prefix_append ..
    have hleft := jobs_left (change env (runCalls env calls) call)
    rcases job_before_or_new hleft hfound with ⟨old, hold, hcore⟩ | ⟨hfree, hnew, hclient⟩
    · have hwarranted := ih id old hold ((kind_of_core hcore).trans hkind)
      exact (hwarranted.mono hgrows).congr hcore
    · have hcreates : CreatesJob env calls call job := ⟨hfree, hnew⟩
      refine ⟨calls, call, job, List.prefix_rfl, hcreates, rfl, ?_⟩
      rcases hclient hkind with hhosted | hclient
      · exact .inl (gate_of_initiates ⟨hcreates, hkind, hhosted⟩)
      · exact .inr hclient

end OnchainInvoice.Recovery
