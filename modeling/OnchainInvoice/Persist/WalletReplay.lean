import OnchainInvoice.Persist.WalletRestore

/-!
# The wallets rebuilt from the log

After every run of the operations, what the log is rebuilt to is the live database exactly if the
events of every operation carry what it changes.
-/

namespace OnchainInvoice.WalletLog

open Lib.EventLog Lib.Tables Table Server

variable {deriveWalletSalt : String → String → Option String} {full : Bool} {db : WalletDb}
  {state : WalletPersistState}

/-! ## A step -/

def Follows (deriveWalletSalt : String → String → Option String) (full : Bool) (db : WalletDb)
    (state : WalletPersistState) : Prop :=
  Agree deriveWalletSalt full db state ∧ Sound state

theorem agree_step (h : Agree deriveWalletSalt full db state) (hs : Sound state) (call : Call) :
    Agree deriveWalletSalt full (step db call).1
        (replay applyWalletPersistEvent state (step db call).2) ↔
      Carried deriveWalletSalt full db call := by
  rcases call with ⟨operation, now, ts⟩
  cases operation with
  | upsertIdentity input =>
    by_cases htaken : emailTaken db input = true
    · have hsame : step db ⟨.upsertIdentity input, now, ts⟩ = (db, []) := by
        simp only [step, upsertIdentity, if_pos htaken, Option.getD_none]
      rw [hsame]
      exact iff_of_true h fun hfree => absurd hfree (by simp [htaken])
    · have hfree : emailTaken db input = false := by simpa using htaken
      exact (agree_upsertIdentity h hs now ts input hfree).trans
        ⟨fun hcarried _ => hcarried, fun hcarried => hcarried hfree⟩
  | setIdentityGoogleSub identityId googleSub =>
    exact iff_of_true (agree_setIdentityGoogleSub h ts identityId googleSub) trivial
  | insertIdentityMethod input => exact agree_insertIdentityMethod h hs now ts input
  | deleteIdentityMethod id => exact agree_deleteIdentityMethod h ts id
  | upsertWalletAccount input => exact agree_upsertWalletAccount h hs ts input
  | setWalletAccountLabel address label => exact agree_setWalletAccountLabel h address label
  | markWalletDeployed address chainId => exact agree_markWalletDeployed h ts address chainId
  | upsertWalletDevice input => exact agree_upsertWalletDevice h hs ts input
  | deleteWalletDevice walletAddress chainId ownerQx ownerQy =>
    exact agree_deleteWalletDevice h ts walletAddress chainId ownerQx ownerQy
  | upsertWalletEmail walletAddress email verifiedAt =>
    exact agree_upsertWalletEmail h hs ts walletAddress email verifiedAt
  | markWalletEmailVerified walletAddress email =>
    show Agree deriveWalletSalt full (markWalletEmailVerified db now ts walletAddress email).1
        (replay applyWalletPersistEvent state
          (markWalletEmailVerified db now ts walletAddress email).2) ↔ _
    rw [markWalletEmailVerified_eq]
    exact agree_verified h hs ts walletAddress email now
  | upsertWalletEntity input => exact agree_upsertWalletEntity h hs ts input
  | upsertWalletEntityKey input => exact agree_upsertWalletEntityKey h hs ts input
  | deleteWalletEntity walletAddress entityId =>
    exact agree_deleteWalletEntity h walletAddress entityId
  | deleteWalletEntityKey walletAddress keyId =>
    exact agree_deleteWalletEntityKey h walletAddress keyId

theorem follows_step (h : Follows deriveWalletSalt full db state) (call : Call) :
    Follows deriveWalletSalt full (step db call).1
        (replay applyWalletPersistEvent state (step db call).2) ↔
      Carried deriveWalletSalt full db call :=
  (and_iff_left (h.2.replay (dated_step db call))).trans (agree_step h.1 h.2 call)

/-! ## Runs -/

def live (calls : List Call) : WalletDb := (run step WalletDb.empty calls).state

structure SameContents (full : Bool) (db db' : WalletDb) : Prop where
  identities : db.identities.contents Identity.record = db'.identities.contents Identity.record
  methods : db.methods.contents some = db'.methods.contents some
  accounts : db.accounts.contents (WalletAccount.record full) =
    db'.accounts.contents (WalletAccount.record full)
  devices : db.devices.contents some = db'.devices.contents some
  emails : db.emails.contents WalletEmail.record = db'.emails.contents WalletEmail.record
  entities : db.entities.contents some = db'.entities.contents some
  entityKeys : db.entityKeys.contents some = db'.entityKeys.contents some

-- The log of these calls is rebuilt, in an empty database, to what is live.
def SameWallets (deriveWalletSalt : String → String → Option String) (full : Bool)
    (calls : List Call) : Prop :=
  ∀ now, ∃ restored, applyWalletPersistStateToDb deriveWalletSalt now WalletDb.empty
      (replayWalletPersistState (run step WalletDb.empty calls).log) = some restored ∧
    SameContents full (live calls) restored

theorem uniqueEmails_live (calls : List Call) : UniqueEmails (live calls) := by
  have hempty : UniqueEmails WalletDb.empty := fun _ _ _ _ h => by cases h
  exact run_invariant hempty (fun _ call h => uniqueEmails_step h call) calls

theorem sound_replay (calls : List Call) :
    Sound (replayWalletPersistState (run step WalletDb.empty calls).log) := by
  induction calls using List.reverseRecOn with
  | nil => exact sound_empty
  | append_singleton calls call ih =>
    unfold replayWalletPersistState at ih ⊢
    rw [replay_concat]
    exact ih.replay (dated_step _ call)

theorem follows_iff_same (calls : List Call) :
    Follows deriveWalletSalt full (live calls)
        (replayWalletPersistState (run step WalletDb.empty calls).log) ↔
      SameWallets deriveWalletSalt full calls := by
  have hs := sound_replay calls
  apply Iff.intro
  · rintro ⟨hagree, -⟩ now
    obtain ⟨restored, hrestored⟩ := restored_of_agree now hagree hs (uniqueEmails_live calls)
    have hagree' : Agree deriveWalletSalt full restored _ := agree_restored now hs hrestored
    exact ⟨restored, hrestored, hagree.identities.trans hagree'.identities.symm,
      hagree.methods.trans hagree'.methods.symm, hagree.accounts.trans hagree'.accounts.symm,
      hagree.devices.trans hagree'.devices.symm, hagree.emails.trans hagree'.emails.symm,
      hagree.entities.trans hagree'.entities.symm,
      hagree.entityKeys.trans hagree'.entityKeys.symm⟩
  · intro hsame
    obtain ⟨restored, hrestored, h⟩ := hsame 0
    have hagree' : Agree deriveWalletSalt full restored _ := agree_restored 0 hs hrestored
    exact ⟨⟨h.identities.trans hagree'.identities, h.methods.trans hagree'.methods,
      h.accounts.trans hagree'.accounts, h.devices.trans hagree'.devices,
      h.emails.trans hagree'.emails, h.entities.trans hagree'.entities,
      h.entityKeys.trans hagree'.entityKeys⟩, hs⟩

/-- What is rebuilt from the log is the live database throughout a run exactly if the events of each
operation carry what it changes. -/
theorem same_wallets_iff (deriveWalletSalt : String → String → Option String) (full : Bool)
    (calls : List Call) :
    (∀ pre, pre <+: calls → SameWallets deriveWalletSalt full pre) ↔
      ∀ pre call post, calls = pre ++ call :: post →
        Carried deriveWalletSalt full (live pre) call := by
  have hempty : Follows deriveWalletSalt full WalletDb.empty emptyWalletPersistState :=
    ⟨⟨contents_empty.trans contents_empty.symm, rfl, contents_empty.trans contents_empty.symm, rfl,
      rfl, rfl, rfl⟩, sound_empty⟩
  have hkept : ∀ db call, UniqueEmails db → UniqueEmails (step db call).1 :=
    fun _ call h => uniqueEmails_step h call
  refine Iff.trans ?_ (agree_iff_carried (Follows deriveWalletSalt full)
    (Carried deriveWalletSalt full) (uniqueEmails_live []) hkept hempty
    fun db state call _ h => follows_step h call)
  exact forall_congr' fun pre => imp_congr_right fun _ => (follows_iff_same pre).symm

/-! ## A deleted key of an entity -/

def toyKey : WalletEntityKey := ⟨"0xw", "entity", "key", 0, some "0x1", some "0x2", none, none⟩

def toyCalls : List Call :=
  [⟨.upsertWalletEntityKey toyKey, 0, 0⟩, ⟨.deleteWalletEntityKey "0xw" "key", 1, 1⟩]

-- No account is restored, so no salt is derived.
theorem deleted_key_returns : ¬ SameWallets (fun _ _ => none) false toyCalls := by
  intro h
  have hagree := ((follows_iff_same toyCalls).mpr h).1.entityKeys
  have hlive : (live toyCalls).entityKeys.rows = [] := by decide +kernel
  have hrebuilt : (replayWalletPersistState
      (run step WalletDb.empty toyCalls).log).entityKeys.rows = [toyKey] := by
    decide +kernel
  have hmem : toyKey ∈ (replayWalletPersistState
      (run step WalletDb.empty toyCalls).log).entityKeys.contents some :=
    ⟨toyKey, by rw [hrebuilt]; exact List.mem_singleton_self _, rfl⟩
  rw [← hagree] at hmem
  obtain ⟨r, hr, -⟩ := hmem
  rw [hlive] at hr
  cases hr

end OnchainInvoice.WalletLog
