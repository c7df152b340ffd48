import OnchainInvoice.Recovery.Requests

/-!
# Codes

Every code in the database was drawn by a route that mailed it, and a code that is accepted is one
of them.
-/

namespace OnchainInvoice.Recovery

open Lib.Tables Server WalletLog

variable {env : Env} {s : RecoveryServer} {call : Call} {db db' : RecoveryDb} {now : Time}
  {walletAddress email codeHash : String} {purpose : OtpPurpose} {row : EmailOtp}

/-- The route that draws the code of `row` and mails it. -/
inductive NewCode (env : Env) (s : RecoveryServer) : Call → EmailOtp → Prop
  | attach {input : Input} {c : AttachChecked} {challenge : String} {t} {a : Assertion}
      {row : EmailOtp} (hcheck : checkAttach env s.db input = .ok c)
      (hconsumed : consumeHostedRecoveryChallenge s.db input.now c.challengeId .attach =
        some (challenge, t))
      (hassertion : input.assertion = some a)
      (hverifies : Verifies env a (hosted env challenge c.ownerQx c.ownerQy))
      (hpurpose : row.purpose = .attach) (hwallet : row.walletAddress = lowerCase c.walletAddress)
      (hemail : row.email = normalizeEmail c.email)
      (hcode : row.codeHash = env.hashOtpCode input.code) :
    NewCode env s (.attachEmail input) row
  | recover {n : Nat} {answer : Answer} {c : Creation} {wallet : String} {request : NewRequest}
      {row : EmailOtp} (hround : Round env s n answer c wallet)
      (hrequest : creationRow s.db c wallet = some request)
      (hpurpose : row.purpose = .recover) (hwallet : row.walletAddress = lowerCase wallet)
      (hemail : row.email = normalizeEmail request.email)
      (hcode : row.codeHash = env.hashOtpCode answer.input.code) :
    NewCode env s (.resume n answer) row
  | lookup {input : Input} {restoreEnabled : Bool} {email : String} {row : EmailOtp}
      (hpurpose : row.purpose = .recover)
      (hemail : row.email = normalizeEmail email)
      (hcode : row.codeHash = env.hashOtpCode input.code) :
    NewCode env s (.startRecoveryEmailLookup input restoreEnabled) row

-- What using a code leaves of it.
def SameCode (row row' : EmailOtp) : Prop :=
  row.walletAddress = row'.walletAddress ∧ row.email = row'.email ∧ row.purpose = row'.purpose ∧
    row.codeHash = row'.codeHash

theorem newest_mem {ρ : Type} {createdAt : ρ → Time} {rows : List ρ} {r : ρ}
    (h : newest createdAt rows = some r) : r ∈ rows := by
  induction rows with
  | nil => cases h
  | cons first rest ih =>
    unfold newest at h
    split at h
    · next other hother =>
      split at h
      · exact List.mem_cons_of_mem _ (ih (hother.trans h))
      · cases h
        exact List.mem_cons_self
    · cases h
      exact List.mem_cons_self

/-- A code that is accepted is there, unused, for the wallet, the email and the purpose. -/
theorem consumeOtp_true
    (h : (consumeWalletEmailOtp db now walletAddress email purpose codeHash).1 = true) :
    ∃ row ∈ db.otps.rows, row.walletAddress = lowerCase walletAddress ∧
      row.email = normalizeEmail email ∧ row.purpose = purpose ∧ row.consumedAt = none ∧
      row.codeHash = codeHash := by
  unfold consumeWalletEmailOtp at h
  split at h
  · cases h
  next row hlatest =>
    split at h
    · cases h
    · obtain ⟨hmem, hrow⟩ := List.mem_filter.mp (newest_mem hlatest)
      rw [decide_eq_true_eq] at hrow
      exact ⟨row, hmem, hrow.1, hrow.2.1, hrow.2.2.1, hrow.2.2.2, of_decide_eq_true h⟩

theorem mem_consumeOtp
    (h : row ∈ (consumeWalletEmailOtp db now walletAddress email purpose codeHash).2.otps.rows) :
    ∃ old ∈ db.otps.rows, SameCode old row := by
  unfold consumeWalletEmailOtp at h
  split at h
  · exact ⟨row, h, rfl, rfl, rfl, rfl⟩
  · split at h
    · exact ⟨row, h, rfl, rfl, rfl, rfl⟩
    · obtain ⟨old, hold, rfl⟩ := List.mem_map.mp h
      refine ⟨old, hold, ?_⟩
      split <;> exact ⟨rfl, rfl, rfl, rfl⟩

theorem mem_createOtp {id : String}
    (h : createWalletEmailOtp db now id walletAddress email purpose codeHash = some db')
    (hrow : row ∈ db'.otps.rows) : (∃ old ∈ db.otps.rows, SameCode old row) ∨
      (row.walletAddress = lowerCase walletAddress ∧ row.email = normalizeEmail email ∧
        row.purpose = purpose ∧ row.codeHash = codeHash) := by
  obtain ⟨t, hinsert, heq⟩ := Option.bind_eq_some_iff.mp h
  cases heq
  have hmem : row ∈ t.rows := hrow
  rw [Table.rows_insert hinsert, List.mem_append, List.mem_singleton] at hmem
  rcases hmem with hold | rfl
  · obtain ⟨old, hmem, rfl⟩ := List.mem_map.mp hold
    refine .inl ⟨old, hmem, ?_⟩
    split <;> exact ⟨rfl, rfl, rfl, rfl⟩
  · exact .inr ⟨rfl, rfl, rfl, rfl⟩

theorem NewCode.congr {row' : EmailOtp} (h : NewCode env s call row) (hsame : SameCode row row') :
    NewCode env s call row' := by
  obtain ⟨hwallet, hemail, hpurpose, hcode⟩ := hsame
  cases h with
  | attach hcheck hconsumed hassertion hverifies hp hw he hc =>
    exact .attach hcheck hconsumed hassertion hverifies (hpurpose ▸ hp) (hwallet ▸ hw)
      (hemail ▸ he) (hcode ▸ hc)
  | recover hround hrequest hp hw he hc =>
    exact .recover hround hrequest (hpurpose ▸ hp) (hwallet ▸ hw) (hemail ▸ he) (hcode ▸ hc)
  | lookup hp he hc => exact .lookup (hpurpose ▸ hp) (hemail ▸ he) (hcode ▸ hc)

/-- A code after a step was there before, or the step drew it. -/
theorem code_origin (h : Change env s call db') (hrow : row ∈ db'.otps.rows) :
    (∃ old ∈ s.db.otps.rows, SameCode old row) ∨ NewCode env s call row := by
  have hsame : db'.otps = s.db.otps → ∃ old ∈ s.db.otps.rows, SameCode old row := by
    intro heq
    rw [heq] at hrow
    exact ⟨row, hrow, rfl, rfl, rfl, rfl⟩
  cases h with
  | idle | challenged | clientChallenged | guarded => exact .inl (hsame rfl)
  | codeTried | emailVerified => exact .inl (mem_consumeOtp hrow)
  | codeSent hsent =>
    rcases mem_createOtp hsent hrow with hold | ⟨-, hemail, hpurpose, hcode⟩
    · exact .inl hold
    · exact .inr (.lookup hpurpose hemail hcode)
  | attached hcheck hconsumed hassertion hverifies hleft =>
    rcases hleft with rfl | hsent
    · exact .inl (hsame rfl)
    · rcases mem_createOtp hsent hrow with
        hold | ⟨hwallet, hemail, hpurpose, hcode⟩
      · exact .inl hold
      · exact .inr (.attach hcheck hconsumed hassertion hverifies hpurpose hwallet hemail hcode)
  | created hround hrequest _ hleft =>
    rcases hleft with rfl | hsent
    · exact .inl (hsame rfl)
    · rcases mem_createOtp hsent hrow with hold | ⟨hwallet, hemail, hpurpose, hcode⟩
      · exact .inl hold
      · exact .inr (.recover hround hrequest hpurpose hwallet hemail hcode)
  | requestVerified => exact .inl (mem_consumeOtp hrow)
  | withdrawn | stopped | approved | rejected | devicePosted | deviceDeleted | recovered =>
    exact .inl (hsame rfl)
  | clientCreated _ hproven =>
    obtain ⟨t, ht⟩ := provenKey_db env s.db _ _ .create _
    rw [hproven] at ht
    cases ht
    refine .inl (hsame ?_)
    unfold upsertWalletIdentity
    dsimp only
    split <;> rfl
  | clientInitiated | clientCancelled | signed | initiated => exact .inl (hsame rfl)
  | claimed hclaim => exact .inl (hsame (jobKind_claim hclaim).2.2.1)
  | tracked htrack => exact .inl (hsame (jobKind_track htrack).2.2.1)
  | synced htrack => exact .inl (hsame (sync_otps.trans (jobKind_track htrack).2.2.1))
  | elsewhere => exact .inl (hsame rfl)

end OnchainInvoice.Recovery
