import OnchainInvoice.Persist.AccountSteps

/-!
# What the wallet log and the database keep to

The maps of the replay hold named rows in normal form, and no two identities have one email.
-/

namespace OnchainInvoice.WalletLog

open Lib.EventLog Lib.Tables Table Server

variable {deriveWalletSalt : String → String → Option String} {full : Bool} {db : WalletDb}
  {state : WalletPersistState}

/-! ## What the maps hold -/

theorem sound_empty : Sound emptyWalletPersistState where
  identities := All.empty
  methods := All.empty
  accounts := All.empty
  devices := All.empty
  emails := All.empty
  entities := All.empty
  entityKeys := All.empty

theorem chains_withChain {chainId : String} {chains : List String}
    (h : chains.Nodup ∧ "" ∉ chains) :
    (withChain chainId chains).Nodup ∧ "" ∉ withChain chainId chains := by
  unfold withChain
  split
  · next hnew =>
    apply And.intro
    · exact List.nodup_append'.mpr ⟨h.1, List.nodup_singleton _, by simpa using hnew.2⟩
    · simp [h.2, Ne.symm hnew.1]
  · exact h

-- The creation of an identity is logged with its time.
def Dated (evt : PersistLogEvent) : Prop :=
  evt.type = .identityCreated → evt.payload.createdAt.isSome

theorem sound_applyIdentityCreated (h : Sound state) (p : WalletPersistPayload)
    (hdated : p.createdAt.isSome) : Sound (applyIdentityCreated state p) := by
  unfold applyIdentityCreated
  dsimp only
  split
  · exact h
  · next hnamed =>
    rw [not_or] at hnamed
    exact { h with
      identities := h.identities.set
        ⟨hnamed.1, hnamed.2, normalizeEmail_normalizeEmail _, hdated⟩ }

theorem sound_applyIdentityGoogleSub (h : Sound state) (p : WalletPersistPayload) :
    Sound (applyIdentityGoogleSub state p) :=
  let found (i : IdentitySnapshot) : IdentitySnapshot :=
    { i with googleSub := p.googleSub.or i.googleSub }
  { h with identities := All.modify (f := found) (fun _ => rfl) h.identities fun _ hi => hi }

theorem sound_applyIdentityMethodAdded (h : Sound state) (p : WalletPersistPayload) :
    Sound (applyIdentityMethodAdded state p) := by
  unfold applyIdentityMethodAdded
  dsimp only
  split
  · exact h
  · next hnamed => exact { h with methods := h.methods.set (not_or.mp hnamed) }

theorem sound_applyIdentityMethodRemoved (h : Sound state) (p : WalletPersistPayload) :
    Sound (applyIdentityMethodRemoved state p) := by
  unfold applyIdentityMethodRemoved
  dsimp only
  split
  · exact h
  · exact { h with methods := h.methods.delete _ }

theorem sound_applyAccountCreated (h : Sound state) (p : WalletPersistPayload) :
    Sound (applyAccountCreated state p) := by
  unfold applyAccountCreated
  dsimp only
  split
  · exact h
  · next hnamed =>
    exact { h with
      accounts := h.accounts.set
        ⟨hnamed, lowerCase_lowerCase _, List.nodup_nil, List.not_mem_nil⟩ }

theorem sound_applyDeviceRegistered (h : Sound state) (p : WalletPersistPayload) :
    Sound (applyDeviceRegistered state p) := by
  unfold applyDeviceRegistered
  dsimp only
  split
  · exact h
  · next hnamed =>
    rw [not_or, not_or] at hnamed
    exact { h with
      devices := h.devices.set ⟨hnamed.1, hnamed.2.1, hnamed.2.2, lowerCase_lowerCase _⟩ }

theorem sound_applyEmailVerified (h : Sound state) (ts : Time) (p : WalletPersistPayload) :
    Sound (applyEmailVerified state ts p) := by
  unfold applyEmailVerified
  dsimp only
  split
  · exact h
  · next hnamed =>
    rw [not_or] at hnamed
    exact { h with
      emails := h.emails.set
        ⟨hnamed.1, hnamed.2, lowerCase_lowerCase _, normalizeEmail_normalizeEmail _⟩ }

theorem sound_applyEntityRegistered (h : Sound state) (p : WalletPersistPayload) :
    Sound (applyEntityRegistered state p) := by
  unfold applyEntityRegistered
  dsimp only
  split
  · exact h
  · next hnamed =>
    rw [not_or] at hnamed
    exact { h with entities := h.entities.set ⟨hnamed.1, hnamed.2, lowerCase_lowerCase _⟩ }

theorem sound_applyEntityKeyRegistered (h : Sound state) (p : WalletPersistPayload) :
    Sound (applyEntityKeyRegistered state p) := by
  unfold applyEntityKeyRegistered
  dsimp only
  split
  · exact h
  · next hnamed =>
    rw [not_or] at hnamed
    exact { h with entityKeys := h.entityKeys.set ⟨hnamed.1, hnamed.2, lowerCase_lowerCase _⟩ }

theorem Sound.apply (h : Sound state) (evt : PersistLogEvent) (hdated : Dated evt) :
    Sound (applyWalletPersistEvent state evt) := by
  unfold applyWalletPersistEvent
  split
  · next htype => exact sound_applyIdentityCreated h _ (hdated htype)
  · exact sound_applyIdentityGoogleSub h _
  · exact sound_applyIdentityMethodAdded h _
  · exact sound_applyIdentityMethodRemoved h _
  · exact sound_applyAccountCreated h _
  · exact { h with accounts := h.accounts.modify (fun _ => by rfl) fun _ ha => ⟨ha.1, ha.2⟩ }
  · exact { h with accounts := h.accounts.modify (fun _ => by rfl) fun _ ha => ⟨ha.1, ha.2⟩ }
  · exact { h with
      accounts := h.accounts.modify (fun _ => by rfl) fun _ ha =>
        ⟨ha.1, ha.2.1, chains_withChain ha.2.2⟩ }
  · exact sound_applyDeviceRegistered h _
  · exact { h with devices := h.devices.delete _ }
  · exact sound_applyEmailVerified h _ _
  · exact sound_applyEntityRegistered h _
  · exact sound_applyEntityKeyRegistered h _

theorem Sound.replay {events : List PersistLogEvent} (h : Sound state)
    (hdated : ∀ evt ∈ events, Dated evt) :
    Sound (replay applyWalletPersistEvent state events) :=
  replay_invariant h fun evt hevt _ hsound => hsound.apply evt (hdated evt hevt)

theorem dated_step (db : WalletDb) (call : Call) : ∀ evt ∈ (step db call).2, Dated evt := by
  rcases call with ⟨operation, now, ts⟩
  cases operation with
  | upsertIdentity input =>
    unfold step upsertIdentity
    dsimp only
    split
    · simp
    · split
      · rintro evt hevt -
        rw [List.mem_singleton.mp hevt]
        rfl
      · simp
  | setIdentityGoogleSub identityId googleSub => simp [step, setIdentityGoogleSub, Dated]
  | insertIdentityMethod input =>
    unfold step insertIdentityMethod
    dsimp only
    split <;> simp [Dated]
  | deleteIdentityMethod id =>
    unfold step deleteIdentityMethod
    dsimp only
    split <;> simp [Dated]
  | upsertWalletAccount input =>
    unfold step upsertWalletAccount
    dsimp only
    split
    · simp [Dated]
    · split_ifs <;> simp [Dated]
  | setWalletAccountLabel address label =>
    unfold step setWalletAccountLabel
    dsimp only
    split <;> simp
  | markWalletDeployed address chainId =>
    unfold step markWalletDeployed
    dsimp only
    split
    · simp
    · split <;> simp [Dated]
  | upsertWalletDevice input => simp [step, upsertWalletDevice, Dated]
  | deleteWalletDevice walletAddress chainId ownerQx ownerQy =>
    simp [step, deleteWalletDevice, Dated]
  | upsertWalletEmail walletAddress email verifiedAt =>
    cases verifiedAt <;> simp [step, upsertWalletEmail, emailVerified, Dated]
  | markWalletEmailVerified walletAddress email =>
    simp [step, markWalletEmailVerified_eq, upsertWalletEmail, emailVerified, Dated]
  | upsertWalletEntity input => simp [step, upsertWalletEntity, Dated]
  | upsertWalletEntityKey input => simp [step, upsertWalletEntityKey, Dated]
  | deleteWalletEntity walletAddress entityId => simp [step]
  | deleteWalletEntityKey walletAddress keyId => simp [step]

/-! ## Emails of identities -/

def UniqueEmails (db : WalletDb) : Prop :=
  ∀ id id' i i', db.identities.find? id = some i → db.identities.find? id' = some i' →
    i.email = i'.email → id = id'

theorem uniqueEmails_upsertIdentity (h : UniqueEmails db) (now ts : Time)
    (input : UpsertIdentity) :
    UniqueEmails ((upsertIdentity db now ts input).getD (db, [])).1 := by
  unfold upsertIdentity
  dsimp only
  split
  · exact h
  · next hfree =>
    have hother (id : String) (i : Identity) (hi : db.identities.find? id = some i)
        (hne : id ≠ input.identityId) : i.email ≠ normalizeEmail input.email := by
      intro hsame
      apply hfree
      unfold emailTaken
      rw [List.any_eq_true]
      exact ⟨i, mem_of_find? hi, by simp [hsame, key_of_find? hi, hne]⟩
    rintro id id' i i' hi hi' hsame
    rw [Option.getD_some] at hi hi'
    dsimp only at hi hi'
    rw [find?_upsert] at hi hi'
    dsimp only at hi hi'
    by_cases hid : id = input.identityId
    · by_cases hid' : id' = input.identityId
      · exact hid.trans hid'.symm
      · rw [if_pos hid] at hi
        rw [if_neg hid'] at hi'
        refine absurd ?_ (hother id' i' hi' hid')
        cases hold : db.identities.find? id with
        | none => rw [hold] at hi; cases hi; exact hsame.symm
        | some old => rw [hold] at hi; cases hi; exact hsame.symm
    · by_cases hid' : id' = input.identityId
      · rw [if_neg hid] at hi
        rw [if_pos hid'] at hi'
        refine absurd ?_ (hother id i hi hid)
        cases hold : db.identities.find? id' with
        | none => rw [hold] at hi'; cases hi'; exact hsame
        | some old => rw [hold] at hi'; cases hi'; exact hsame
      · rw [if_neg hid] at hi
        rw [if_neg hid'] at hi'
        exact h id id' i i' hi hi' hsame

theorem uniqueEmails_setIdentityGoogleSub (h : UniqueEmails db) (ts : Time)
    (identityId googleSub : String) :
    UniqueEmails (setIdentityGoogleSub db ts identityId googleSub).1 := by
  have hold (id : String) (i : Identity)
      (hi : (setIdentityGoogleSub db ts identityId googleSub).1.identities.find? id = some i) :
      ∃ old, db.identities.find? id = some old ∧ old.email = i.email := by
    unfold setIdentityGoogleSub at hi
    dsimp only at hi
    rw [find?_modify] at hi
    split at hi
    · obtain ⟨old, hold, rfl⟩ := Option.map_eq_some_iff.mp hi
      exact ⟨old, hold, rfl⟩
    · exact ⟨i, hi, rfl⟩
  rintro id id' i i' hi hi' hsame
  obtain ⟨old, hold1, hemail1⟩ := hold id i hi
  obtain ⟨old', hold2, hemail2⟩ := hold id' i' hi'
  exact h id id' old old' hold1 hold2 (hemail1.trans (hsame.trans hemail2.symm))

theorem uniqueEmails_step (h : UniqueEmails db) (call : Call) :
    UniqueEmails (step db call).1 := by
  have hkept {db' : WalletDb} (hsame : db'.identities = db.identities) : UniqueEmails db' := by
    unfold UniqueEmails
    rw [hsame]
    exact h
  rcases call with ⟨operation, now, ts⟩
  cases operation with
  | upsertIdentity input => exact uniqueEmails_upsertIdentity h now ts input
  | setIdentityGoogleSub identityId googleSub =>
    exact uniqueEmails_setIdentityGoogleSub h ts identityId googleSub
  | insertIdentityMethod input => exact hkept rfl
  | deleteIdentityMethod id =>
    apply hkept
    unfold step deleteIdentityMethod
    dsimp only
    split <;> rfl
  | upsertWalletAccount input => exact hkept rfl
  | setWalletAccountLabel address label =>
    apply hkept
    unfold step setWalletAccountLabel
    dsimp only
    split <;> rfl
  | markWalletDeployed address chainId =>
    apply hkept
    unfold step markWalletDeployed
    dsimp only
    split
    · rfl
    · split <;> rfl
  | upsertWalletDevice input => exact hkept rfl
  | deleteWalletDevice walletAddress chainId ownerQx ownerQy => exact hkept rfl
  | upsertWalletEmail walletAddress email verifiedAt => exact hkept rfl
  | markWalletEmailVerified walletAddress email =>
    apply hkept
    show (markWalletEmailVerified db now ts walletAddress email).1.identities = _
    rw [markWalletEmailVerified_eq]
    rfl
  | upsertWalletEntity input => exact hkept rfl
  | upsertWalletEntityKey input => exact hkept rfl
  | deleteWalletEntity walletAddress entityId => exact hkept rfl
  | deleteWalletEntityKey walletAddress keyId => exact hkept rfl

end OnchainInvoice.WalletLog
