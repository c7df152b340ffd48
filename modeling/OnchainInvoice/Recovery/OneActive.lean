import OnchainInvoice.Recovery.LifeCycle

/-!
# One active request for a wallet

A key is looked up and its request inserted in one piece.  For an address the chain is asked in
between, and the request that another handler has created meanwhile is not seen.
-/

namespace OnchainInvoice.Recovery

open Lib.Histories Lib.Tables Server WalletLog

variable {env : Env} {s : RecoveryServer} {call : Call} {db db' : RecoveryDb} {id : String}
  {r r' : Request}

/-- No wallet has two requests that are not finished. -/
def OneActive (db : RecoveryDb) : Prop :=
  ∀ id id' r r', db.requests.find? id = some r → db.requests.find? id' = some r' →
    r.walletAddress = r'.walletAddress → r.status.active → r'.status.active → id = id'

/-- Whoever creates a request after waiting for the chain finds no other, and so does a report that
brings a finished request back. -/
def Alone (s : RecoveryServer) : Call → Prop
  | .resume n answer => ∀ c wallet row, s.pending[n]? = some (.looking c wallet) →
    answer.existingOwner = false → creationRow s.db c wallet = some row →
    s.db.requests.find? answer.input.newId = none →
    getActiveWalletRecoveryRequest s.db wallet = none
  | .operatorInitiated id c => ∀ session request, Initiates s.db id c session request →
    request.status.final → ∀ id' r, s.db.requests.find? id' = some r →
    r.walletAddress = request.walletAddress → r.status.active = false
  | _ => True

/-! ## The active request of a wallet -/

theorem newest_eq_none {ρ : Type} {createdAt : ρ → Time} {rows : List ρ} :
    newest createdAt rows = none ↔ rows = [] := by
  cases rows with
  | nil => simp [newest]
  | cons row rest =>
    unfold newest
    split
    · split <;> simp
    · simp

theorem getActive_eq_none {walletAddress : String} :
    getActiveWalletRecoveryRequest db walletAddress = none ↔
      ∀ id r, db.requests.find? id = some r → r.walletAddress = lowerCase walletAddress →
        r.status.active = false := by
  unfold getActiveWalletRecoveryRequest
  rw [newest_eq_none, List.filter_eq_nil_iff]
  apply Iff.intro
  · intro h id r hr hwallet
    simpa [hwallet] using h r (Table.mem_of_find? hr)
  · intro h r hr
    have hr' := h r.id r (Table.find?_of_mem hr)
    simp only [decide_eq_true_eq, not_and, Bool.not_eq_true]
    exact hr'

theorem active_iff_not_final (status : RequestStatus) : status.active = !status.final := by
  cases status <;> rfl

theorem core_walletAddress (h : r'.core = r.core) : r'.walletAddress = r.walletAddress :=
  congrArg (fun core => core.2.1) h

/-- Only `operatorInitiated` makes a request active that was finished. -/
theorem active_of_moved {calls : List Call} (h : Tracked env calls s.db id r)
    (hmoved : Moved env s call db' id r r') (hactive : r'.status.active) :
    r.status.active ∨ ∃ c, call = .operatorInitiated id c ∧ (step env s call).1 = .ok () := by
  cases hmoved with
  | same hstatus => exact .inl (hstatus ▸ hactive)
  | verified hbefore => exact .inl (by rw [hbefore]; rfl)
  | approved _ _ _ _ _ _ hbefore => exact .inl (by rw [hbefore]; rfl)
  | rejected _ hstatus | withdrawn _ hstatus | stopped _ _ hstatus =>
    rw [hstatus] at hactive
    cases hactive
  | initiated c hcall haccepted => exact .inr ⟨c, hcall, haccepted⟩
  | synced j kind hbefore hk hstatus =>
    have hfor := h.status
    rw [hbefore, Option.bind_some, hk] at hfor
    rw [hstatus] at hactive
    cases kind with
    | initiate => rcases hfor with hs | hs <;> exact .inl (by rw [hs]; rfl)
    | execute => cases hactive
    | cancel => cases hactive

theorem round_alone {n : Nat} {answer : Answer} {c : Creation} {wallet : String} {row : NewRequest}
    (h : Alone s (.resume n answer)) (hround : Round env s n answer c wallet)
    (hrow : creationRow s.db c wallet = some row)
    (hfree : s.db.requests.find? answer.input.newId = none) :
    getActiveWalletRecoveryRequest s.db wallet = none := by
  cases hround with
  | passkey _ _ hskipped =>
    unfold skipped at hskipped
    simp only [decide_eq_false_iff_not, not_or] at hskipped
    simpa using hskipped.2.1
  | looked hpending hnew => exact h c wallet row hpending hnew hrow hfree

theorem creationRow_wallet {c : Creation} {wallet : String} {row : NewRequest}
    (h : creationRow db c wallet = some row) : row.walletAddress = wallet := by
  unfold creationRow at h
  dsimp only at h
  split at h <;> cases h
  rfl

/-! ## One step -/

theorem oneActive_of_alone (calls : List Call) (hone : OneActive (runCalls env calls).db)
    (h : Alone (runCalls env calls) call) :
    OneActive (next env (runCalls env calls) call).db := by
  have hchange := change env (runCalls env calls) call
  -- A request that this step creates stands alone.
  have hcreated : ∀ id id' r r' r₁', (next env (runCalls env calls) call).db.requests.find? id = some r →
      (runCalls env calls).db.requests.find? id = none →
      (runCalls env calls).db.requests.find? id' = some r' → r₁'.core = r'.core →
      Moved env (runCalls env calls) call (next env (runCalls env calls) call).db id' r' r₁' →
      r.walletAddress = r₁'.walletAddress → r₁'.status.active → False := by
    intro id id' r r' r₁' hr hnone hr' hcore hmoved hwallet hactive
    obtain ⟨n, answer, c, wallet, row, rfl, hround, hrow, rfl, rfl⟩ :=
      request_created hchange hnone hr
    have hno := getActive_eq_none.mp (round_alone h hround hrow hnone) id' r' hr' (by
      rw [← core_walletAddress hcore, ← hwallet, ← creationRow_wallet hrow]
      rfl)
    rcases active_of_moved ((lifeCycle env calls).tracked id' r' hr') hmoved hactive with
      hbefore | ⟨c, hcall, -⟩
    · rw [hbefore] at hno
      cases hno
    · cases hcall
  -- One that was finished comes back alone.
  have hrevived : ∀ id id' r r' r₁', (runCalls env calls).db.requests.find? id = some r →
      r.status.active = false →
      (∃ c, call = .operatorInitiated id c ∧ (step env (runCalls env calls) call).1 = .ok ()) →
      (runCalls env calls).db.requests.find? id' = some r' →
      Moved env (runCalls env calls) call (next env (runCalls env calls) call).db id' r' r₁' →
      r.walletAddress = r'.walletAddress → r₁'.status.active → id = id' := by
    intro id id' r r' r₁' hr hfinished hinitiated hr' hmoved hwallet hactive
    obtain ⟨c, rfl, haccepted⟩ := hinitiated
    obtain ⟨⟨session, request, hinitiates⟩, -⟩ := initiates_of_accepted haccepted
    cases hr.symm.trans hinitiates.2.1
    rw [active_iff_not_final, Bool.not_eq_false'] at hfinished
    have hno := h session r hinitiates hfinished id' r' hr' hwallet.symm
    rcases active_of_moved ((lifeCycle env calls).tracked id' r' hr') hmoved hactive with
      hbefore | ⟨c', hcall, -⟩
    · rw [hbefore] at hno
      cases hno
    · cases hcall
      rfl
  intro id₁ id₂ r₁ r₂ hr₁ hr₂ hwallet hactive₁ hactive₂
  cases hb₁ : (runCalls env calls).db.requests.find? id₁ with
  | none =>
    cases hb₂ : (runCalls env calls).db.requests.find? id₂ with
    | none =>
      obtain ⟨n, answer, c, wallet, row, hcall, -, -, hid, -⟩ := request_created hchange hb₁ hr₁
      obtain ⟨n', answer', c', wallet', row', hcall', -, -, hid', -⟩ :=
        request_created hchange hb₂ hr₂
      rw [hcall] at hcall'
      cases hcall'
      exact hid.trans hid'.symm
    | some b₂ =>
      obtain ⟨r₂', hf₂, hcore₂, hmoved₂⟩ := request_moved hchange hb₂
      cases hr₂.symm.trans hf₂
      exact (hcreated id₁ id₂ r₁ b₂ r₂ hr₁ hb₁ hb₂ hcore₂ hmoved₂ hwallet hactive₂).elim
  | some b₁ =>
    obtain ⟨r₁', hf₁, hcore₁, hmoved₁⟩ := request_moved hchange hb₁
    cases hr₁.symm.trans hf₁
    cases hb₂ : (runCalls env calls).db.requests.find? id₂ with
    | none =>
      exact (hcreated id₂ id₁ r₂ b₁ r₁ hr₂ hb₂ hb₁ hcore₁ hmoved₁ hwallet.symm hactive₁).elim
    | some b₂ =>
      obtain ⟨r₂', hf₂, hcore₂, hmoved₂⟩ := request_moved hchange hb₂
      cases hr₂.symm.trans hf₂
      have hsame : b₁.walletAddress = b₂.walletAddress := by
        rw [← core_walletAddress hcore₁, hwallet, core_walletAddress hcore₂]
      have htracked₁ := (lifeCycle env calls).tracked id₁ b₁ hb₁
      have htracked₂ := (lifeCycle env calls).tracked id₂ b₂ hb₂
      by_cases ha₁ : b₁.status.active
      · by_cases ha₂ : b₂.status.active
        · exact hone id₁ id₂ b₁ b₂ hb₁ hb₂ hsame ha₁ ha₂
        · have hinitiated := (active_of_moved htracked₂ hmoved₂ hactive₂).resolve_left ha₂
          exact (hrevived id₂ id₁ b₂ b₁ r₁ hb₂ (by simpa using ha₂) hinitiated hb₁ hmoved₁
            hsame.symm hactive₁).symm
      · have hinitiated := (active_of_moved htracked₁ hmoved₁ hactive₁).resolve_left ha₁
        exact hrevived id₁ id₂ b₁ b₂ r₂ hb₁ (by simpa using ha₁) hinitiated hb₂ hmoved₂ hsame
          hactive₂

theorem requests_of_looked {n : Nat} {answer : Answer} {c : Creation} {wallet : String}
    {row : NewRequest} (hpending : s.pending[n]? = some (.looking c wallet))
    (hnew : answer.existingOwner = false) (hrow : creationRow s.db c wallet = some row)
    (hfree : s.db.requests.find? answer.input.newId = none) :
    s.db.requests.insert (newRequest answer.input.now answer.input.newId row) =
      some (next env s (.resume n answer)).db.requests := by
  have hinsert : s.db.requests.insert (newRequest answer.input.now answer.input.newId row) ≠ none := by
    intro hnone
    obtain ⟨r, hr⟩ := Table.insert_eq_none.mp hnone
    exact Option.some_ne_none r (hr.symm.trans hfree)
  obtain ⟨requests, hrequests⟩ := Option.ne_none_iff_exists'.mp hinsert
  have hdb : (next env s (.resume n answer)).db =
      (createRow env s.db c wallet answer.existingOwner answer.input).2 := by
    show (resume env s n answer).2.db = _
    unfold resume
    rw [hpending]
    exact finishRound_db ..
  rw [hdb, hrequests]
  unfold createRow
  simp only [hnew, hrow, createWalletRecoveryRequest, hrequests]
  show some requests = some (if row.status = .awaitingEmail then _ else _ : Reply).2.requests
  split
  · rcases inserted_cases (createWalletEmailOtp { s.db with requests := requests } answer.input.now
      answer.input.otpId wallet row.email .recover (env.hashOtpCode answer.input.code)) accept with
      ⟨e, heq⟩ | ⟨db', hsent, heq⟩
    · rw [heq]
    · rw [heq]
      obtain ⟨t, rfl⟩ := createOtp_eq hsent
      rfl
  · rfl

theorem requests_of_initiated {c : OperatorCall} {id' : String} (hne : id' ≠ id)
    (hr : s.db.requests.find? id' = some r) :
    (next env s (.operatorInitiated id c)).db.requests.find? id' = some r := by
  have hchange := change env s (.operatorInitiated id c)
  generalize (next env s (.operatorInitiated id c)).db = db' at hchange
  cases hchange with
  | idle | challenged | clientChallenged | guarded => exact hr
  | codeTried =>
    obtain ⟨t, heq⟩ := consumeOtp_eq
    rw [heq]
    exact hr
  | clientCancelled => exact hr
  | initiated _ hfound =>
    refine (find?_update hr).trans (congrArg some (if_neg ?_))
    rw [Table.key_of_find? hfound]
    exact hne

theorem alone_of_oneActive (h : OneActive (next env s call).db) : Alone s call := by
  cases call with
  | resume n answer =>
    intro c wallet row hpending hnew hrow hfree
    have hinsert :=
      @requests_of_looked env _ _ _ _ _ _ hpending hnew hrow hfree
    rw [getActive_eq_none]
    intro id r hr hwallet
    by_contra hactive
    rw [Bool.not_eq_false] at hactive
    have hcreated : (next env s (.resume n answer)).db.requests.find? answer.input.newId =
        some (newRequest answer.input.now answer.input.newId row) := by
      rw [Table.find?_insert hinsert]
      exact if_pos rfl
    have hid : id = answer.input.newId := by
      refine h id _ r _ (find?_insert_old hinsert hr) hcreated ?_ hactive ?_
      · rw [hwallet, ← creationRow_wallet hrow]
        rfl
      · show row.status.active = true
        rcases creationRow_awaiting hrow with hs | hs <;> rw [hs] <;> rfl
    rw [hid, hfree] at hr
    cases hr
  | operatorInitiated id c =>
    intro session request hinitiates hfinal id' r hr hwallet
    by_contra hactive
    rw [Bool.not_eq_false] at hactive
    have hfound : s.db.requests.find? id = some request := hinitiates.2.1
    have hne : id' ≠ id := by
      rintro rfl
      cases hr.symm.trans hfound
      rw [active_iff_not_final, hfinal] at hactive
      cases hactive
    obtain ⟨-, r', hr', honChain⟩ := initiates_of_accepted
      (@accepted_of_initiates env _ _ _ _ _ hinitiates)
    obtain ⟨r'', hr'', hcore, -⟩ := request_moved (change env s (.operatorInitiated id c)) hfound
    cases hr'.symm.trans hr''
    refine hne (h id' id r r' (requests_of_initiated hne hr) hr' ?_ hactive (by rw [honChain]; rfl))
    rw [hwallet, core_walletAddress hcore]
  | _ => exact trivial

/-! ## Every run -/

/-- At every moment of a run no wallet has two requests that are not finished, exactly if each
request that is created after waiting for the chain, or brought back, stands alone. -/
theorem one_active_iff (env : Env) (calls : List Call) :
    (∀ before, before <+: calls → OneActive (runCalls env before).db) ↔
      Each (fun before call => Alone (runCalls env before) call) calls := by
  have hempty : OneActive (runCalls env []).db := by
    intro id id' r r' hr
    cases hr
  have heach : (∀ before, before <+: calls → OneActive (runCalls env before).db) ↔
      Each (fun before call => OneActive (next env (runCalls env before) call).db) calls := by
    apply Iff.intro
    · intro h before call hbefore
      have hone := h _ hbefore
      rwa [runCalls, run_concat] at hone
    · intro h before hbefore
      rcases List.eq_nil_or_concat before with rfl | ⟨before, call, rfl⟩
      · exact hempty
      · rw [List.concat_eq_append] at hbefore ⊢
        rw [runCalls, run_concat]
        exact h before call hbefore
  rw [heach]
  refine each_iff_each (I := fun calls => OneActive (runCalls env calls).db) hempty
    (fun calls call hone halone => ?_) (fun calls call hone => ?_) calls
  · rw [runCalls, run_concat]
    exact oneActive_of_alone calls hone halone
  · exact ⟨alone_of_oneActive, oneActive_of_alone calls hone⟩

/-! ## Two handlers that wait for the chain -/

-- The two addresses sign for themselves.
def eoaEnv : Env := { toyEnv with
  getAddress := fun s => if s ∈ ["0xw", "0xa", "0xb"] then some s else none
  recoveredByTypedData := fun _ _ _ _ signature => some signature }

def eoaRequest (challenge eoa : String) : Call :=
  .createRecoveryRequest (toyInput [("walletAddress", "0xw"), ("challengeId", challenge),
    ("ownerKind", "eoa"), ("eoaAddress", eoa), ("eoaSignature", eoa)] "" "" none) none none []

-- Both find no request and ask the chain; then both insert theirs.
def eoaRun : List Call :=
  [.elsewhere ⟨.upsertWalletAccount ⟨"0xw", "salt", hex32 '1', hex32 '2', some "cred", none, none,
      none⟩, 1, 1⟩,
    .recoveryChallenge (toyInput [("purpose", "recover")] "first" "c" none),
    .recoveryChallenge (toyInput [("purpose", "recover")] "second" "d" none),
    eoaRequest "first" "0xa", eoaRequest "second" "0xb",
    .resume 0 (toyAnswer ""), .resume 0 (toyAnswer ""),
    .resume 0 (toyAnswer ""), .resume 0 (toyAnswer ""),
    .resume 0 (toyAnswer "a"), .resume 0 (toyAnswer "b")]

theorem two_active : ¬ ∀ before, before <+: eoaRun → OneActive (runCalls eoaEnv before).db := by
  intro h
  have hrequests : (runCalls eoaEnv eoaRun).db.requests.rows.map
      (fun r => (r.id, r.walletAddress, r.status)) =
      [("a", "0xw", .awaitingGuardian), ("b", "0xw", .awaitingGuardian)] := by
    decide +kernel
  have hrow : ∀ row ∈ [("a", "0xw", RequestStatus.awaitingGuardian), ("b", "0xw", .awaitingGuardian)],
      ∃ r, (runCalls eoaEnv eoaRun).db.requests.find? r.id = some r ∧
        (r.id, r.walletAddress, r.status) = row := by
    intro row hmem
    rw [← hrequests] at hmem
    obtain ⟨r, hr, heq⟩ := List.mem_map.mp hmem
    exact ⟨r, Table.find?_of_mem hr, heq⟩
  obtain ⟨a, ha, heqa⟩ := hrow ("a", "0xw", .awaitingGuardian) (by simp)
  obtain ⟨b, hb, heqb⟩ := hrow ("b", "0xw", .awaitingGuardian) (by simp)
  simp only [Prod.mk.injEq] at heqa heqb
  have hid := h eoaRun (List.prefix_refl _) a.id b.id a b ha hb (heqa.2.1.trans heqb.2.1.symm)
    (by rw [heqa.2.2]; rfl) (by rw [heqb.2.2]; rfl)
  rw [heqa.1, heqb.1] at hid
  exact absurd hid (by decide)

end OnchainInvoice.Recovery
