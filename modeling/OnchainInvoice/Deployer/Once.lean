import OnchainInvoice.Deployer.Outcomes
import OnchainInvoice.Deployer.Warrants

/-!
# No restore is started twice

The deployer claims a job before it starts the restore of the job, and a job that is claimed is not
listed again unless the deployer puts it back.  It puts a job back only while nothing has been sent
for it, provided that no failure of the node reads like the refusal of an operator.
-/

namespace OnchainInvoice.WalletDeployer

open Evm IdentityTypes Lib.Awaits Lib.Handlers Lib.Tables Recovery Relation Server WalletLog
open IdentityRoutes (bytes32)

variable {env : Recovery.Env} {contract : IdentityStore.Env} {s₀ : IdentityStore.State}
  {cfg : Config} {script : Nat → Turn Other Info} {starts requeues : String → Prop}
  {w w' : World env contract s₀} {v v' : Waiting (World env contract s₀)} {job : Job} {id : String}
  {α β : Type}

/-! ## What is kept of a job -/

-- The job whose restore the transaction starts.
def Submission.restoreOf (sub : Submission) : Option String :=
  match sub.call with
  | some (.initiateRestore _ _) => some sub.jobId
  | _ => none

def World.started (w : World env contract s₀) : List String := w.sent.filterMap Submission.restoreOf

/-- The job is there, and is not listed as pending. -/
def Taken (w : World env contract s₀) (id : String) : Prop :=
  ∃ job, w.server.db.jobs.find? id = some job ∧ job.status ≠ .pending

theorem filterMap_modify {f : α → α} {g : α → Option β} (h : ∀ a, g (f a) = g a) (l : List α)
    (n : Nat) : (l.modify n f).filterMap g = l.filterMap g := by
  induction l generalizing n with
  | nil => cases n <;> rfl
  | cons a l ih =>
    cases n with
    | zero => simp [List.filterMap_cons, h]
    | succ n => simp [List.filterMap_cons, ih]

@[simp] theorem started_serve (w : World env contract s₀) (call : Recovery.Call) :
    (w.serve call).started = w.started := rfl

@[simp] theorem started_mine (w : World env contract s₀) (tx : Tx IdentityStore.Call) :
    (w.mine tx).started = w.started := rfl

@[simp] theorem started_receive (w : World env contract s₀) (n : Nat) (succeeded : Bool) :
    (w.receive n succeeded).started = w.started := by
  have hkept : ∀ sub : Submission,
      Submission.restoreOf { sub with receipt := some succeeded } = sub.restoreOf := fun _ => rfl
  exact filterMap_modify hkept w.sent n

theorem started_submit (w : World env contract s₀) (sub : Submission) :
    (w.submit sub).started = w.started ++ sub.restoreOf.toList := by
  unfold World.started World.submit
  rw [List.filterMap_append]
  cases hsub : sub.restoreOf <;> simp [hsub]

@[simp] theorem started_apply (w : World env contract s₀) (other : Other) :
    (w.apply cfg other).started = w.started := by
  cases other with
  | calls call => rfl
  | transacts tx => rfl
  | includes n timestamp succeeded =>
    unfold World.apply
    dsimp only
    split
    · rfl
    · unfold World.confirm
      split
      · exact started_receive w n succeeded
      · exact started_receive (w.mine _) n _

theorem restoreOf_of_not_restores {sub : Submission} (h : ¬ sub.restores) :
    sub.restoreOf = none := by
  unfold Submission.restoreOf
  split
  · next i f hcall => exact absurd ⟨_, i, f, hcall, .inl rfl⟩ h
  · rfl

/-! ## The server -/

/-- Only the deployer claims and reports jobs. -/
def OnlyWorker (script : Nat → Turn Other Info) : Prop :=
  ∀ n call, Other.calls call ∈ (script n).others →
    (∀ authorized input now, call ≠ .claimJob authorized input now) ∧
      ∀ authorized input now, call ≠ .trackJob authorized input now

theorem taken_of_jobs {db' : RecoveryDb} {s : RecoveryServer} {call : Recovery.Call}
    (h : JobsLeft env s call db')
    (hclaim : ∀ authorized input now, call ≠ .claimJob authorized input now)
    (htrack : ∀ authorized input now, call ≠ .trackJob authorized input now)
    (hfound : s.db.jobs.find? id = some job) : db'.jobs.find? id = some job := by
  cases h with
  | same h => rw [h, hfound]
  | inserted new hinsert =>
    rw [Table.find?_insert hinsert, if_neg]
    · exact hfound
    · intro heq
      rw [← heq, Table.find?_of_insert hinsert] at hfound
      cases hfound
  | worked _ _ _ _ _ hcall =>
    rcases hcall with ⟨authorized, input, now, heq⟩ | ⟨authorized, input, now, heq⟩
    · exact absurd heq (hclaim authorized input now)
    · exact absurd heq (htrack authorized input now)

theorem Taken.serve (h : Taken w id) {call : Recovery.Call}
    (hclaim : ∀ authorized input now, call ≠ .claimJob authorized input now)
    (htrack : ∀ authorized input now, call ≠ .trackJob authorized input now) :
    Taken (w.serve call) id := by
  obtain ⟨job, hfound, hstatus⟩ := h
  exact ⟨job, taken_of_jobs (jobs_left (change env w.server call)) hclaim htrack hfound, hstatus⟩

theorem Taken.apply (h : Taken w id) (honly : OnlyWorker script) {n : Nat} {other : Other}
    (hother : other ∈ (script n).others) : Taken (w.apply cfg other) id := by
  cases other with
  | calls call =>
    obtain ⟨hclaim, htrack⟩ := honly n call hother
    exact h.serve hclaim htrack
  | transacts tx => exact h
  | includes m timestamp succeeded =>
    unfold World.apply
    dsimp only
    split
    · exact h
    · unfold World.confirm
      split <;> exact h

theorem jobs_claimJob (s : RecoveryServer) (input : ClaimJob) (now : Time) :
    (next env s (.claimJob true input now)).db.jobs = s.db.jobs ∨
      (next env s (.claimJob true input now)).db.jobs =
        s.db.jobs.modify input.id (claimedJob now { input with leaseMs := env.leaseMs })
          fun _ => rfl := by
  show (claimJob env s.db true input now).2.jobs = _ ∨ (claimJob env s.db true input now).2.jobs = _
  unfold claimJob
  split
  · exact .inl rfl
  · split
    · exact .inl rfl
    · next db hclaim => exact .inr (claim_modifies hclaim)

theorem jobs_trackJob (s : RecoveryServer) (input : TrackJob) (now : Time) :
    (next env s (.trackJob true input now)).db.jobs = s.db.jobs ∨
      (next env s (.trackJob true input now)).db.jobs =
        s.db.jobs.modify input.id (trackedJob input) (trackedJob_id input) := by
  show (trackJob env s.db true input now).2.jobs = _ ∨ (trackJob env s.db true input now).2.jobs = _
  unfold trackJob
  split
  · exact .inl rfl
  · split
    · exact .inl rfl
    · next db htrack =>
      right
      split
      · exact track_modifies htrack
      · show (syncRequestFromJob env db input.id _ now).jobs = _
        rw [sync_jobs, track_modifies htrack]

/-- A job that is rewritten stays taken unless it is put back. -/
theorem Taken.modify (h : Taken w id) {jobs : Table Job String Job.id} {k : String} {f : Job → Job}
    {hid : ∀ job, (f job).id = job.id} (hjobs : jobs = w.server.db.jobs.modify k f hid)
    (hstatus : id = k → ∀ job, job.status ≠ .pending → (f job).status ≠ .pending) :
    ∃ job, jobs.find? id = some job ∧ job.status ≠ .pending := by
  obtain ⟨job, hfound, htaken⟩ := h
  rw [hjobs, Table.find?_modify]
  by_cases heq : id = k
  · rw [if_pos heq, hfound]
    exact ⟨f job, rfl, hstatus heq job htaken⟩
  · rw [if_neg heq]
    exact ⟨job, hfound, htaken⟩

theorem Taken.asks (h : Taken w id) {call : Recovery.Call} (hcall : Asks requeues call)
    (hno : ¬ requeues id) : Taken (w.serve call) id := by
  cases hcall with
  | claim input now =>
    rcases jobs_claimJob w.server input now with hsame | hjobs
    · obtain ⟨job, hfound, hstatus⟩ := h
      exact ⟨job, hsame ▸ hfound, hstatus⟩
    · refine h.modify hjobs fun _ job _ => ?_
      show JobStatus.claimed ≠ .pending
      decide
  | track input now hrequeues =>
    rcases jobs_trackJob w.server input now with hsame | hjobs
    · obtain ⟨job, hfound, hstatus⟩ := h
      exact ⟨job, hsame ▸ hfound, hstatus⟩
    · refine h.modify hjobs fun heq job hstatus => ?_
      show input.status.getD job.status ≠ .pending
      cases hgiven : input.status with
      | none => exact hstatus
      | some status =>
        intro hpending
        have hpending' : status = .pending := hpending
        exact hno (heq ▸ hrequeues (by rw [hgiven, hpending']))
  | deployed address chainId now =>
    exact h.serve (fun _ _ _ heq => by cases heq) fun _ _ _ heq => by cases heq

/-! ## Steps -/

theorem Happens.taken (h : Happens cfg script starts requeues v v') (honly : OnlyWorker script)
    (htaken : Taken v.state id) (hno : ¬ requeues id) : Taken v'.state id := by
  cases h with
  | others hother => exact htaken.apply honly hother
  | turn n => exact htaken
  | asks hcall => exact htaken.asks hcall hno
  | sends hreceipt hother => exact htaken
  | restores hstarts htargets => exact htaken

theorem Reaches.taken (h : Reaches cfg script starts requeues v v') (honly : OnlyWorker script)
    (htaken : Taken v.state id) (hno : ¬ requeues id) : Taken v'.state id :=
  h.invariant (I := fun w => Taken w id) (fun _ _ hw hstep => hstep.taken honly hw hno) htaken

/-- No restore was started twice, and what was started is not listed again. -/
structure Single (w : World env contract s₀) : Prop where
  nodup : w.started.Nodup
  taken : ∀ id ∈ w.started, Taken w id

theorem Reaches.single (h : Reaches cfg script (fun _ => False) requeues v v')
    (honly : OnlyWorker script) (hsingle : Single v.state)
    (hfree : ∀ id, requeues id → id ∉ v.state.started) :
    Single v'.state ∧ v'.state.started = v.state.started := by
  have hsame : v'.state.started = v.state.started := by
    apply h.invariant (I := fun w => w.started = v.state.started) _ rfl
    intro a b ha hstep
    cases hstep with
    | others hother => exact (started_apply _ _).trans ha
    | turn n => exact ha
    | asks hcall => exact ha
    | sends hreceipt hother =>
      show (World.submit _ _).started = _
      rw [started_submit, restoreOf_of_not_restores hother, Option.toList_none, List.append_nil]
      exact ha
    | restores hstarts htargets => exact hstarts.elim
  refine ⟨⟨hsame ▸ hsingle.nodup, fun id hid => ?_⟩, hsame⟩
  rw [hsame] at hid
  exact h.taken honly (hsingle.taken id hid) fun hno => hfree id hno hid

theorem Starts.single (h : Starts cfg script job v v') (honly : OnlyWorker script)
    (hsingle : Single v.state) (hfree : job.id ∉ v.state.started) (htaken : Taken v.state job.id) :
    Single v'.state ∧ ∀ id ∈ v'.state.started, id ∈ v.state.started ∨ id = job.id := by
  have hnone : ∀ (u : Waiting (World env contract s₀)) (id : String), False → id ∉ u.state.started :=
    fun _ _ h => h.elim
  cases h with
  | never h =>
    obtain ⟨hsingle', hsame⟩ := h.single honly hsingle (hnone v)
    exact ⟨hsingle', fun id hid => .inl (hsame ▸ hid)⟩
  | @once w turn i f hbefore htargets hafter =>
    obtain ⟨hbefore', hsame⟩ := hbefore.single honly hsingle (hnone v)
    have hstarted : (w.submit ⟨job.id, some (.initiateRestore i f), none⟩).started =
        v.state.started ++ [job.id] := by
      rw [started_submit]
      exact congrArg (· ++ [job.id]) hsame
    have hstart : Single (w.submit ⟨job.id, some (.initiateRestore i f), none⟩) := by
      apply Single.mk
      · rw [hstarted]
        exact List.nodup_append.mpr ⟨hsingle.nodup, List.nodup_singleton _, fun a ha b hb heq =>
          hfree (by rw [List.mem_singleton] at hb; rwa [← hb, ← heq])⟩
      · intro id hid
        rw [hstarted, List.mem_append, List.mem_singleton] at hid
        rcases hid with hold | hnew
        · exact hbefore'.taken id (by rw [hsame]; exact hold)
        · rw [hnew]
          exact hbefore.taken honly htaken fun hno => hno
    obtain ⟨hsingle', hsame'⟩ := hafter.single honly hstart (hnone ⟨_, turn⟩)
    refine ⟨hsingle', fun id hid => ?_⟩
    rw [hsame'] at hid
    have hid' := hstarted ▸ hid
    rwa [List.mem_append, List.mem_singleton] at hid'

/-! ## A job -/

/-- An answer is read off what the call leaves, and the call was accepted. -/
theorem request_answered {call : Info → Recovery.Call} {answer : RecoveryServer → Option α} {a : α}
    (h : exec (request cfg script call answer : Work env contract s₀ (Option α)) v =
      (.ok (some a), v')) :
    ∃ (w : World env contract s₀) (info : Info),
      (Recovery.step env w.server (call info)).1 = .ok () ∧ v'.state = w.serve (call info) ∧
        answer v'.state.server = some a := by
  have hsome := request_eq_some h
  unfold request at h
  obtain ⟨reply, v₁, hrun, hreturn⟩ := exec_bind_eq_ok h
  cases reply with
  | none => cases hreturn
  | some reply =>
    obtain ⟨hask, -⟩ := interact_eq_some hrun
    cases hreturn
    unfold ask at hask
    dsimp only at hask
    split at hask
    · next haccepted =>
      rw [Prod.mk.injEq] at hask
      exact ⟨_, _, haccepted, hask.2.symm, hsome⟩
    · cases hask

theorem claimJob_accepted {server : RecoveryServer} {input : ClaimJob} {now : Time}
    (h : (Recovery.step env server (.claimJob true input now)).1 = .ok ()) :
    (next env server (.claimJob true input now)).db.jobs =
      server.db.jobs.modify input.id (claimedJob now { input with leaseMs := env.leaseMs })
        fun _ => rfl := by
  have hreply : (claimJob env server.db true input now).1 = .ok () := h
  show (claimJob env server.db true input now).2.jobs = _
  unfold claimJob at hreply ⊢
  split at hreply
  · cases hreply
  · split at hreply
    · cases hreply
    · next db hclaim => exact claim_modifies hclaim

theorem found_of_modified {jobs jobs' : Table Job String Job.id} {k : String} {f : Job → Job}
    {hid : ∀ job, (f job).id = job.id} (hjobs : jobs' = jobs.modify k f hid)
    (hfound : jobs'.find? k = some job) : ∃ old, f old = job := by
  rw [hjobs, Table.find?_modify, if_pos rfl] at hfound
  obtain ⟨old, -, heq⟩ := Option.map_eq_some_iff.mp hfound
  exact ⟨old, heq⟩

theorem claimRecoveryJob_status {claimed : Job}
    (h : exec (claimRecoveryJob cfg script job : Work env contract s₀ Job) v = (.ok claimed, v')) :
    claimed.status = .claimed := by
  obtain ⟨answer, v₁, hrun, hthrow⟩ := exec_bind_eq_ok h
  obtain ⟨rfl, rfl⟩ := orThrow_eq_ok hthrow
  obtain ⟨w, info, haccepted, hstate, hfound⟩ := request_answered hrun
  rw [hstate] at hfound
  obtain ⟨old, rfl⟩ := found_of_modified (claimJob_accepted haccepted) hfound
  rfl

-- What a part of a tick makes of what was started, for jobs of which nothing was.
def Adds (ids : List String) (v v' : Waiting (World env contract s₀)) : Prop :=
  Single v.state → (∀ id ∈ ids, id ∉ v.state.started) →
    Single v'.state ∧ ∀ id ∈ v'.state.started, id ∈ v.state.started ∨ id ∈ ids

theorem Adds.refl (ids : List String) : Adds ids v v := by
  intro hsingle _
  exact ⟨hsingle, fun _ hid => .inl hid⟩

theorem adds_of_quiet (honly : OnlyWorker script) (h : Quiet cfg script v v') (ids : List String) :
    Adds ids v v' := by
  intro hsingle _
  obtain ⟨hsingle', hsame⟩ := h.single honly hsingle fun _ hno => hno.elim
  exact ⟨hsingle', fun id hid => .inl (hsame ▸ hid)⟩

theorem Adds.trans {ids ids' : List String} {v₁ : Waiting (World env contract s₀)}
    (h : Adds ids v v₁) (h' : Adds ids' v₁ v') (hdisjoint : ids.Disjoint ids') :
    Adds (ids ++ ids') v v' := by
  intro hsingle hfree
  obtain ⟨hsingle₁, hadded⟩ := h hsingle fun id hid => hfree id (List.mem_append_left _ hid)
  have hfree' : ∀ id ∈ ids', id ∉ v₁.state.started := by
    intro id hid hstarted
    rcases hadded id hstarted with hold | hnew
    · exact hfree id (List.mem_append_right _ hid) hold
    · exact hdisjoint hnew hid
  obtain ⟨hsingle', hadded'⟩ := h' hsingle₁ hfree'
  refine ⟨hsingle', fun id hid => ?_⟩
  rw [List.mem_append]
  rcases hadded' id hid with hold | hnew
  · exact (hadded id hold).imp_right .inl
  · exact .inr (.inr hnew)

theorem adds_of_becomes (honly : OnlyWorker script) (h : Becomes cfg script job v v')
    (htaken : Taken v.state job.id) : Adds [job.id] v v' := by
  intro hsingle hfree
  have hnew := hfree job.id (List.mem_singleton_self _)
  rcases h with hback | hstarts
  · obtain ⟨hsingle', hsame⟩ := hback.single honly hsingle fun id hid => hid ▸ hnew
    exact ⟨hsingle', fun id hid => .inl (hsame ▸ hid)⟩
  · obtain ⟨hsingle', hadded⟩ := hstarts.single honly hsingle hnew htaken
    exact ⟨hsingle', fun id hid => (hadded id hid).imp_right List.mem_singleton.mpr⟩

theorem adds_processJob (honly : OnlyWorker script) (happart : TellsApart script)
    {cancelWallets : List String} :
    Leads (Adds [job.id])
      (processJob cfg script cancelWallets job : Work env contract s₀ Unit) v := by
  unfold processJob
  split
  · have hclaim : Leads (Quiet cfg script)
        (caught (some <$> claimRecoveryJob cfg script job) fun _ => return none :
          Work env contract s₀ (Option Job)) v :=
      leads_caught (Leads.map leads_claimRecoveryJob) fun _ _ _ => Leads.pure _
    unfold Leads
    cases hrun : exec (caught (some <$> claimRecoveryJob cfg script job) fun _ => return none) v with
    | mk answer v₁ =>
      have hquiet := hclaim.after hrun
      cases answer with
      | error e =>
        rw [exec_bind_error hrun]
        exact adds_of_quiet honly hquiet _
      | ok answer =>
        rw [exec_bind_ok hrun]
        cases answer with
        | none => exact adds_of_quiet honly hquiet _
        | some claimed =>
          have hclaimed := caught_eq_some hrun
          have hfound := claimRecoveryJob_eq_ok hclaimed
          have hid : claimed.id = job.id := Table.key_of_find? hfound
          have htaken : Taken v₁.state claimed.id :=
            ⟨claimed, hid ▸ hfound, by rw [claimRecoveryJob_status hclaimed]; decide⟩
          have hbecomes : Becomes cfg script claimed v₁ _ :=
            becomes_reported happart (handed_of_found hfound) cancelWallets
          have hadds := (adds_of_quiet honly hquiet []).trans
            (adds_of_becomes honly hbecomes htaken) (List.disjoint_nil_left _)
          rwa [List.nil_append, hid] at hadds
  · exact Adds.refl _

theorem adds_processJobs (honly : OnlyWorker script) (happart : TellsApart script)
    {cancelWallets : List String} {jobs : List Job} (hnodup : (jobs.map Job.id).Nodup)
    (v : Waiting (World env contract s₀)) :
    Leads (Adds (jobs.map Job.id))
      (jobs.foldlM (fun _ job => processJob cfg script cancelWallets job) () :
        Work env contract s₀ Unit) v := by
  induction jobs generalizing v with
  | nil => exact Adds.refl _
  | cons job jobs ih =>
    rw [List.map_cons, List.nodup_cons] at hnodup
    have hhead : Leads (Adds [job.id])
        (processJob cfg script cancelWallets job : Work env contract s₀ Unit) v :=
      adds_processJob honly happart
    rw [List.foldlM_cons]
    unfold Leads
    cases hrun : exec (processJob cfg script cancelWallets job) v with
    | mk answer v₁ =>
      have hadds := hhead.after hrun
      have hdisjoint : [job.id].Disjoint (jobs.map Job.id) :=
        List.singleton_disjoint.mpr hnodup.1
      cases answer with
      | error e =>
        rw [exec_bind_error hrun]
        exact hadds.trans (Adds.refl _) hdisjoint
      | ok u =>
        rw [exec_bind_ok hrun]
        exact hadds.trans (ih hnodup.2 v₁) hdisjoint

/-! ## A tick -/

theorem listed_free (h : Single v.state) {chainId : String} :
    ∀ job ∈ listWalletRecoveryJobs v.state.server.db .pending chainId,
      job.id ∉ v.state.started := by
  intro job hjob hstarted
  have hmem := List.mem_of_mem_take hjob
  rw [List.mem_insertionSort, List.mem_filter, decide_eq_true_eq] at hmem
  obtain ⟨taken, hfound, hstatus⟩ := h.taken job.id hstarted
  rw [Table.find?_of_mem hmem.1] at hfound
  cases hfound
  exact hstatus hmem.2.1

theorem listed_nodup (db : RecoveryDb) (status : JobStatus) (chainId : String) :
    ((listWalletRecoveryJobs db status chainId).map Job.id).Nodup := by
  have hsorted := (List.perm_insertionSort (fun a b : Job => a.createdAt ≤ b.createdAt)
    (db.jobs.rows.filter fun job => job.status = status ∧ job.chainId = chainId)).map Job.id
  apply List.Nodup.sublist ((List.take_sublist ..).map Job.id)
  rw [hsorted.nodup_iff]
  exact db.jobs.nodup.sublist (List.filter_sublist.map Job.id)

theorem fetchRecoveryJobs_eq_ok {status : JobStatus} {listed : List Job}
    (h : exec (fetchRecoveryJobs cfg script status : Work env contract s₀ (List Job)) v =
      (.ok listed, v')) :
    listed = listWalletRecoveryJobs v'.state.server.db status cfg.chain.chainId := by
  obtain ⟨answer, v₁, hread, hthrow⟩ := exec_bind_eq_ok h
  obtain ⟨rfl, rfl⟩ := orThrow_eq_ok hthrow
  obtain ⟨turn, heq⟩ := read_eq_some hread
  exact heq.symm

-- Where no restore was started twice, none is.
def StaysSingle (v v' : Waiting (World env contract s₀)) : Prop := Single v.state → Single v'.state

instance : Std.Refl (fun v v' : Waiting (World env contract s₀) => StaysSingle v v') :=
  ⟨fun _ h => h⟩

instance : IsTrans _ (fun v v' : Waiting (World env contract s₀) => StaysSingle v v') :=
  ⟨fun _ _ _ hleft hright h => hright (hleft h)⟩

theorem Leads.staysSingle {x : Work env contract s₀ α} (h : Leads (Quiet cfg script) x v)
    (honly : OnlyWorker script) : Leads StaysSingle x v :=
  fun hsingle => (adds_of_quiet honly h [] hsingle (by simp)).1

theorem leads_tick_single (honly : OnlyWorker script) (happart : TellsApart script) :
    Leads StaysSingle (tick cfg script : Work env contract s₀ Unit) v := by
  have hlist : Leads (Quiet cfg script)
      (fetchRecoveryJobs cfg script .pending : Work env contract s₀ (List Job)) v :=
    leads_fetchRecoveryJobs
  apply leads_caught
  · apply (Leads.staysSingle hlist honly).bind
    intro listed v₁ hrun
    dsimp only
    split
    · apply Leads.bind
      · intro hsingle
        have hsorted := List.perm_insertionSort (fun a b : Job => rank a.kind ≤ rank b.kind) listed
        have hlisted := fetchRecoveryJobs_eq_ok hrun
        refine (adds_processJobs honly happart ?_ v₁ hsingle ?_).1
        · rw [(hsorted.map Job.id).nodup_iff, hlisted]
          exact listed_nodup _ _ _
        · intro id hid
          rw [(hsorted.map Job.id).mem_iff, List.mem_map] at hid
          obtain ⟨job, hjob, rfl⟩ := hid
          exact listed_free hsingle job (hlisted ▸ hjob)
      · exact fun _ v₂ _ => Leads.staysSingle leads_maybeQueueExecutes honly
    · exact Leads.pure _
  · exact fun _ _ _ => Leads.pure _

/-- In every run of the server, the store and the deployer, no job has its restore started twice,
however its requests and transactions fail. -/
theorem restores_started_once (env : Recovery.Env) (contract : IdentityStore.Env)
    (s₀ : IdentityStore.State) (cfg : Config) (script : Nat → Turn Other Info)
    (honly : OnlyWorker script) (happart : TellsApart script) (n : Nat) :
    (ticks cfg script n : Waiting (World env contract s₀)).state.started.Nodup := by
  suffices h : Single (ticks cfg script n : Waiting (World env contract s₀)).state from h.nodup
  induction n with
  | zero => exact ⟨List.nodup_nil, fun id hid => absurd hid List.not_mem_nil⟩
  | succ n ih => exact leads_tick_single honly happart ih

-- The transaction that starts the restore is sent, and nothing is ever included.
def lostScript (n : Nat) : Turn Other Info :=
  { sampleScript n with others := if n = 0 then (sampleScript 0).others else [] }

def lostWorld : World Recovery.toyEnv IdentityStore.toyEnv IdentityStore.toyStore :=
  (ticks sampleConfig lostScript 2).state

theorem lostWorld_started : lostWorld.started = ["job"] := by decide +kernel

def ofWorker : Recovery.Call → Bool
  | .claimJob .. | .trackJob .. => true
  | _ => false

theorem onlyWorker_lost : OnlyWorker lostScript := by
  intro n call hcall
  unfold lostScript at hcall
  dsimp only at hcall
  split at hcall
  · have hmem : call ∈ approvedRun := by
      rcases List.mem_cons.mp hcall with heq | hmem
      · cases heq
      · obtain ⟨call', hmem', heq⟩ := List.mem_map.mp hmem
        cases heq
        exact hmem'
    have hnone : approvedRun.all fun call => !ofWorker call := by decide +kernel
    have hother : (!ofWorker call) = true := List.all_eq_true.mp hnone call hmem
    apply And.intro
    · intro authorized input now heq
      rw [heq] at hother
      cases hother
    · intro authorized input now heq
      rw [heq] at hother
      cases hother
  · cases hcall

theorem tellsApart_lost : TellsApart lostScript := by
  intro n
  have hmessage : namesOperator "call failed" = false := by decide +kernel
  have hrefusal : namesOperator "execution reverted" = false := by decide +kernel
  refine ⟨hmessage, fun e he => ?_⟩
  have he' : namesOperator "execution reverted" = true := he
  rw [hrefusal] at he'
  cases he'

theorem restores_started_once_lost :
    lostWorld.started = ["job"] ∧ lostWorld.started.Nodup :=
  ⟨lostWorld_started, restores_started_once Recovery.toyEnv IdentityStore.toyEnv
    IdentityStore.toyStore sampleConfig lostScript onlyWorker_lost tellsApart_lost 2⟩

end OnchainInvoice.WalletDeployer
