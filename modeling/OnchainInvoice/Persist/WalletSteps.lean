import OnchainInvoice.Persist.WalletViews

/-!
# The wallet log step by step

For every operation: if the maps of the replay agree with the database before it, they agree after
its events exactly if these carry what it changes.
-/

namespace OnchainInvoice.WalletLog

open Lib.EventLog Lib.Tables Table Server

variable {deriveWalletSalt : String → String → Option String} {full : Bool} {db : WalletDb}
  {state : WalletPersistState}

/-! ## One table at a time -/

section Tables

variable (h : Agree deriveWalletSalt full db state)

include h

theorem Agree.identities_iff {t : Table Identity String Identity.identityId}
    {t' : Table IdentitySnapshot String IdentitySnapshot.identityId} :
    Agree deriveWalletSalt full { db with identities := t } { state with identities := t' } ↔
      t.contents Identity.record = t'.contents some :=
  ⟨fun h' => h'.identities, fun heq => { h with identities := heq }⟩

theorem Agree.methods_iff {t t' : Table IdentityMethod String IdentityMethod.id} :
    Agree deriveWalletSalt full { db with methods := t } { state with methods := t' } ↔
      t.contents some = t'.contents some :=
  ⟨fun h' => h'.methods, fun heq => { h with methods := heq }⟩

theorem Agree.accounts_iff {t : Table WalletAccount String WalletAccount.address}
    {t' : Table AccountSnapshot String AccountSnapshot.address} :
    Agree deriveWalletSalt full { db with accounts := t } { state with accounts := t' } ↔
      t.contents (WalletAccount.record full) =
        t'.contents (AccountSnapshot.record deriveWalletSalt) :=
  ⟨fun h' => h'.accounts, fun heq => { h with accounts := heq }⟩

theorem Agree.devices_iff
    {t : Table WalletDevice (String × String × String × String) WalletDevice.key}
    {t' : Table WalletDevice String WalletDevice.logKey} :
    Agree deriveWalletSalt full { db with devices := t } { state with devices := t' } ↔
      t.contents some = t'.contents some :=
  ⟨fun h' => h'.devices, fun heq => { h with devices := heq }⟩

theorem Agree.emails_iff {t t' : Table WalletEmail String WalletEmail.walletAddress} :
    Agree deriveWalletSalt full { db with emails := t } { state with emails := t' } ↔
      t.contents WalletEmail.record = t'.contents WalletEmail.record :=
  ⟨fun h' => h'.emails, fun heq => { h with emails := heq }⟩

theorem Agree.entities_iff {t : Table WalletEntity (String × String) WalletEntity.key}
    {t' : Table WalletEntity String WalletEntity.logKey} :
    Agree deriveWalletSalt full { db with entities := t } { state with entities := t' } ↔
      t.contents some = t'.contents some :=
  ⟨fun h' => h'.entities, fun heq => { h with entities := heq }⟩

theorem Agree.entityKeys_iff {t : Table WalletEntityKey (String × String) WalletEntityKey.key}
    {t' : Table WalletEntityKey String WalletEntityKey.logKey} :
    Agree deriveWalletSalt full { db with entityKeys := t } { state with entityKeys := t' } ↔
      t.contents some = t'.contents some :=
  ⟨fun h' => h'.entityKeys, fun heq => { h with entityKeys := heq }⟩

end Tables

/-! ## Devices -/

theorem not_given {o : Option String} : ¬ Given o ↔ o = none ∨ o = some "" := by
  unfold Given
  tauto

theorem keptCredential_eq_new {old new : Option String} :
    keptCredential old new = new ↔ old = new ∨ (Given new ∧ ¬ Given old) := by
  rw [not_given]
  unfold keptCredential Given
  split_ifs
  all_goals simp_all
  all_goals tauto

-- The key of the log from the key of the table.
def logKeyOf (k : String × String × String × String) : String := deviceKey k.1 k.2.1 k.2.2.1 k.2.2.2

theorem deviceKey_lowerCase (wallet chainId qx qy : String) :
    deviceKey (lowerCase wallet) chainId qx qy = deviceKey wallet chainId qx qy := by
  unfold deviceKey
  rw [lowerCase_lowerCase]

theorem apart_devices {walletAddress chainId ownerQx ownerQy : String} :
    Apart WalletDevice.key logKeyOf (lowerCase walletAddress, chainId, ownerQx, ownerQy)
        (db.devices.contents some) ↔
      DeviceApart db walletAddress chainId ownerQx ownerQy := by
  have hkey : logKeyOf (lowerCase walletAddress, chainId, ownerQx, ownerQy) =
      deviceKey walletAddress chainId ownerQx ownerQy := deviceKey_lowerCase ..
  unfold Apart DeviceApart
  rw [hkey]
  simp [contents, WalletDevice.logKey, logKeyOf, WalletDevice.key]

theorem agree_deleteWalletDevice (h : Agree deriveWalletSalt full db state) (ts : Time)
    (walletAddress chainId ownerQx ownerQy : String) :
    Agree deriveWalletSalt full (deleteWalletDevice db ts walletAddress chainId ownerQx ownerQy).1
        (replay applyWalletPersistEvent state
          (deleteWalletDevice db ts walletAddress chainId ownerQx ownerQy).2) ↔
      DeviceApart db walletAddress chainId ownerQx ownerQy := by
  have hkey : deviceKey (lowerCase (lowerCase walletAddress)) chainId ownerQx ownerQy =
      logKeyOf (lowerCase walletAddress, chainId, ownerQx, ownerQy) := deviceKey_lowerCase ..
  refine h.devices_iff.trans ?_
  rw [← apart_devices]
  exact delete_eq_delete_iff h.devices (key_some _) (key_some _) (fun _ => rfl) hkey

theorem agree_upsertWalletDevice (h : Agree deriveWalletSalt full db state) (hs : Sound state)
    (ts : Time) (input : WalletDevice) :
    Agree deriveWalletSalt full (upsertWalletDevice db ts input).1
        (replay applyWalletPersistEvent state (upsertWalletDevice db ts input).2) ↔
      DeviceCarried db input := by
  let row : WalletDevice := { input with walletAddress := lowerCase input.walletAddress }
  let merged := ((db.devices.find? row.key).map fun old => { old with
    label := row.label
    credentialId := keptCredential old.credentialId row.credentialId }).getD row
  have hreplay : replay applyWalletPersistEvent state (upsertWalletDevice db ts input).2 =
      if input.walletAddress = "" ∨ input.ownerQx = "" ∨ input.ownerQy = "" then state
      else { state with devices := state.devices.set row } := by
    simp only [upsertWalletDevice, replay, List.foldl_cons, List.foldl_nil,
      applyWalletPersistEvent, applyDeviceRegistered, Option.getD_some, lowerCase_lowerCase,
      lowerCase_eq_empty, row]
  have hmerged : merged = row ↔ ∀ old ∈ db.devices.find? row.key,
      old.credentialId = input.credentialId ∨
        (Given input.credentialId ∧ ¬ Given old.credentialId) := by
    cases hold : db.devices.find? row.key with
    | none => simp [merged, hold]
    | some old =>
      have hkey : old.key = row.key := key_of_find? hold
      simp only [WalletDevice.key, Prod.mk.injEq] at hkey
      obtain ⟨hwallet, hchain, hqx, hqy⟩ := hkey
      simp [merged, hold, row, hwallet, hchain, hqx, hqy, ← keptCredential_eq_new]
  have hkey : merged.key = row.key := key_merged fun _ => rfl
  have hlive : (upsertWalletDevice db ts input).1 = { db with
      devices := db.devices.upsert row
        (fun old => { old with
          label := row.label
          credentialId := keptCredential old.credentialId row.credentialId })
        fun _ => rfl } := rfl
  rw [hlive, hreplay]
  split
  · next hunnamed =>
    have hnames : ∀ d ∈ state.devices.contents some,
        d.walletAddress ≠ "" ∧ d.ownerQx ≠ "" ∧ d.ownerQy ≠ "" := by
      rintro d ⟨d, hd, ⟨⟩⟩
      obtain ⟨hwallet, hqx, hqy, -⟩ := hs.devices d hd
      exact ⟨hwallet, hqx, hqy⟩
    simp only [WalletDevice.key, Prod.mk.injEq] at hkey
    apply iff_of_false
    · intro hagree
      refine upsert_ne (key_some WalletDevice.key) hnames rfl ?_ hagree.devices
      rintro ⟨hwallet, hqx, hqy⟩
      rcases hunnamed with hempty | hempty | hempty
      · exact hwallet (hkey.1.trans (lowerCase_eq_empty.mpr hempty))
      · exact hqx (hkey.2.2.1.trans hempty)
      · exact hqy (hkey.2.2.2.trans hempty)
    · intro hcarried
      obtain ⟨hwallet, hqx, hqy⟩ := hcarried.named
      rcases hunnamed with hempty | hempty | hempty
      · exact hwallet hempty
      · exact hqx hempty
      · exact hqy hempty
  · next hnamed =>
    have hlog : row.logKey = logKeyOf row.key := rfl
    refine h.devices_iff.trans ?_
    refine (upsert_eq_set_iff (g := logKeyOf) h.devices (key_some WalletDevice.key)
      (key_some WalletDevice.logKey) (fun _ => rfl) hlog (key_some WalletDevice.key row)).trans ?_
    have hapart : Apart WalletDevice.key logKeyOf row.key (db.devices.contents some) ↔ _ :=
      apart_devices
    rw [Option.some_inj]
    refine (and_congr hmerged hapart).trans ?_
    apply Iff.intro
    · rintro ⟨hcredential, hapart⟩
      rw [not_or, not_or] at hnamed
      exact ⟨hnamed, hcredential, hapart⟩
    · intro hcarried
      exact ⟨hcarried.credentialId, hcarried.apart⟩

/-! ## Entities -/

def entityLogKeyOf (k : String × String) : String := entityKey k.1 k.2

theorem apart_entities {walletAddress entityId : String} :
    Apart WalletEntity.key entityLogKeyOf (lowerCase walletAddress, entityId)
        (db.entities.contents some) ↔ EntityApart db walletAddress entityId := by
  have hkey : entityLogKeyOf (lowerCase walletAddress, entityId) =
      entityKey walletAddress entityId := by
    unfold entityLogKeyOf entityKey
    rw [lowerCase_lowerCase]
  unfold Apart EntityApart
  rw [hkey]
  simp [contents, WalletEntity.logKey, entityLogKeyOf, WalletEntity.key]

theorem agree_upsertWalletEntity (h : Agree deriveWalletSalt full db state) (hs : Sound state)
    (ts : Time) (input : WalletEntity) :
    Agree deriveWalletSalt full (upsertWalletEntity db ts input).1
        (replay applyWalletPersistEvent state (upsertWalletEntity db ts input).2) ↔
      EntityCarried db input := by
  let row : WalletEntity := { input with walletAddress := lowerCase input.walletAddress }
  let merged := ((db.entities.find? row.key).map fun old => { old with
    label := row.label.or old.label }).getD row
  have hlive : (upsertWalletEntity db ts input).1 = { db with
      entities := db.entities.upsert row
        (fun old => { old with label := row.label.or old.label }) fun _ => rfl } := rfl
  have hreplay : replay applyWalletPersistEvent state (upsertWalletEntity db ts input).2 =
      if input.walletAddress = "" ∨ input.entityId = "" then state
      else { state with entities := state.entities.set row } := by
    simp only [upsertWalletEntity, replay, List.foldl_cons, List.foldl_nil,
      applyWalletPersistEvent, applyEntityRegistered, Option.getD_some, lowerCase_lowerCase,
      lowerCase_eq_empty, row]
  have hmerged : merged = row ↔
      ∀ old ∈ db.entities.find? row.key, input.label = none → old.label = none := by
    cases hold : db.entities.find? row.key with
    | none => simp [merged, hold]
    | some old =>
      have hkey : old.key = row.key := key_of_find? hold
      have hvalue : merged = { old with label := input.label.or old.label } := by
        simp only [merged, hold, Option.map_some, Option.getD_some, row]
      simp only [WalletEntity.key, Prod.mk.injEq] at hkey
      rw [hvalue]
      cases hlabel : input.label <;> simp [row, hkey, hlabel]
  have hkey : merged.key = row.key := key_merged fun _ => rfl
  rw [hlive, hreplay]
  split
  · next hunnamed =>
    have hnames : ∀ e ∈ state.entities.contents some, e.walletAddress ≠ "" ∧ e.entityId ≠ "" := by
      rintro e ⟨e, he, ⟨⟩⟩
      obtain ⟨hwallet, hentity, -⟩ := hs.entities e he
      exact ⟨hwallet, hentity⟩
    simp only [WalletEntity.key, Prod.mk.injEq] at hkey
    apply iff_of_false
    · intro hagree
      refine upsert_ne (key_some WalletEntity.key) hnames rfl ?_ hagree.entities
      rintro ⟨hwallet, hentity⟩
      rcases hunnamed with hempty | hempty
      · exact hwallet (hkey.1.trans (lowerCase_eq_empty.mpr hempty))
      · exact hentity (hkey.2.trans hempty)
    · intro hcarried
      obtain ⟨hwallet, hentity⟩ := hcarried.named
      rcases hunnamed with hempty | hempty
      · exact hwallet hempty
      · exact hentity hempty
  · next hnamed =>
    have hlog : row.logKey = entityLogKeyOf row.key := rfl
    refine h.entities_iff.trans ?_
    refine (upsert_eq_set_iff (g := entityLogKeyOf) h.entities
      (key_some WalletEntity.key) (key_some WalletEntity.logKey) (fun _ => rfl) hlog
      (key_some WalletEntity.key row)).trans ?_
    have hapart : Apart WalletEntity.key entityLogKeyOf row.key
      (db.entities.contents some) ↔ _ := apart_entities
    rw [Option.some_inj]
    refine (and_congr hmerged hapart).trans ?_
    rw [not_or] at hnamed
    apply Iff.intro
    · rintro ⟨hlabel, hapart⟩
      exact ⟨hnamed, hlabel, hapart⟩
    · intro hcarried
      exact ⟨hcarried.label, hcarried.apart⟩

def entityKeyLogKeyOf (k : String × String) : String := entityKeyKey k.1 k.2

theorem apart_entityKeys {walletAddress keyId : String} :
    Apart WalletEntityKey.key entityKeyLogKeyOf (lowerCase walletAddress, keyId)
        (db.entityKeys.contents some) ↔ EntityKeyApart db walletAddress keyId := by
  have hkey : entityKeyLogKeyOf (lowerCase walletAddress, keyId) =
      entityKeyKey walletAddress keyId := by
    unfold entityKeyLogKeyOf entityKeyKey
    rw [lowerCase_lowerCase]
  unfold Apart EntityKeyApart
  rw [hkey]
  simp [contents, WalletEntityKey.logKey, entityKeyLogKeyOf, WalletEntityKey.key]

theorem agree_upsertWalletEntityKey (h : Agree deriveWalletSalt full db state) (hs : Sound state)
    (ts : Time) (input : WalletEntityKey) :
    Agree deriveWalletSalt full (upsertWalletEntityKey db ts input).1
        (replay applyWalletPersistEvent state (upsertWalletEntityKey db ts input).2) ↔
      EntityKeyCarried db input := by
  let row : WalletEntityKey := { input with walletAddress := lowerCase input.walletAddress }
  let merge (old : WalletEntityKey) : WalletEntityKey := { old with
    entityId := row.entityId, keyType := row.keyType, qx := row.qx, qy := row.qy, eoa := row.eoa
    credentialId := row.credentialId }
  let merged := ((db.entityKeys.find? row.key).map merge).getD row
  have hmerge : ∀ old, (merge old).key = old.key := fun _ => rfl
  have hlive : (upsertWalletEntityKey db ts input).1 =
    { db with entityKeys := db.entityKeys.upsert row merge hmerge } := rfl
  have hreplay : replay applyWalletPersistEvent state (upsertWalletEntityKey db ts input).2 =
      if input.walletAddress = "" ∨ input.keyId = "" then state
      else { state with entityKeys := state.entityKeys.set row } := by
    simp only [upsertWalletEntityKey, replay, List.foldl_cons, List.foldl_nil,
      applyWalletPersistEvent, applyEntityKeyRegistered, Option.getD_some, lowerCase_lowerCase,
      lowerCase_eq_empty, row]
  have hmerged : merged = row := by
    cases hold : db.entityKeys.find? row.key with
    | none => simp [merged, hold]
    | some old =>
      have hkey : old.key = row.key := key_of_find? hold
      simp only [WalletEntityKey.key, Prod.mk.injEq] at hkey
      simp [merged, merge, hold, hkey]
  rw [hlive, hreplay]
  split
  · next hunnamed =>
    have hnames : ∀ k ∈ state.entityKeys.contents some, k.walletAddress ≠ "" ∧ k.keyId ≠ "" := by
      rintro k ⟨k, hk, ⟨⟩⟩
      obtain ⟨hwallet, hkeyId, -⟩ := hs.entityKeys k hk
      exact ⟨hwallet, hkeyId⟩
    apply iff_of_false
    · intro hagree
      refine upsert_ne (key_some WalletEntityKey.key) hnames (congrArg some hmerged) ?_
        hagree.entityKeys
      rintro ⟨hwallet, hkeyId⟩
      rcases hunnamed with hempty | hempty
      · exact hwallet (lowerCase_eq_empty.mpr hempty)
      · exact hkeyId hempty
    · intro hcarried
      obtain ⟨hwallet, hkeyId⟩ := hcarried.named
      rcases hunnamed with hempty | hempty
      · exact hwallet hempty
      · exact hkeyId hempty
  · next hnamed =>
    have hlog : row.logKey = entityKeyLogKeyOf row.key := rfl
    refine h.entityKeys_iff.trans ?_
    refine (upsert_eq_set_iff (g := entityKeyLogKeyOf) h.entityKeys
      (key_some WalletEntityKey.key) (key_some WalletEntityKey.logKey) (fun _ => rfl) hlog
      (key_some WalletEntityKey.key row)).trans ?_
    have hapart : Apart WalletEntityKey.key entityKeyLogKeyOf row.key
      (db.entityKeys.contents some) ↔ _ := apart_entityKeys
    refine (and_congr (iff_true_intro (congrArg some hmerged)) hapart).trans ?_
    rw [not_or] at hnamed
    rw [true_and]
    exact ⟨fun hapart => ⟨hnamed, hapart⟩, fun hcarried => hcarried.apart⟩

theorem agree_deleteWalletEntityKey (h : Agree deriveWalletSalt full db state)
    (walletAddress keyId : String) :
    Agree deriveWalletSalt full (deleteWalletEntityKey db walletAddress keyId) state ↔
      db.entityKeys.find? (lowerCase walletAddress, keyId) = none := by
  refine h.entityKeys_iff.trans ?_
  refine (delete_eq_iff h.entityKeys (key_some WalletEntityKey.key)).trans ?_
  rw [Option.bind_fun_some]

theorem agree_deleteWalletEntity (h : Agree deriveWalletSalt full db state)
    (walletAddress entityId : String) :
    Agree deriveWalletSalt full (deleteWalletEntity db walletAddress entityId) state ↔
      NothingOfEntity db walletAddress entityId := by
  have hentities := delete_eq_iff (k := (lowerCase walletAddress, entityId)) h.entities
    (key_some WalletEntity.key)
  have hkeys := delete_rows_eq_iff h.entityKeys fun row =>
    row.walletAddress = lowerCase walletAddress ∧ row.entityId = entityId
  rw [Option.bind_fun_some] at hentities
  apply Iff.intro
  · intro hagree
    apply NothingOfEntity.mk
    · exact hentities.mp hagree.entities
    · intro key hkey hwallet hentity
      have hnot := hkeys.mp hagree.entityKeys key hkey
      simp [hwallet, hentity] at hnot
  · intro hnothing
    exact { h with
      entities := hentities.mpr hnothing.entity
      entityKeys := hkeys.mpr fun key hkey => by
        simpa using hnothing.keys key hkey }

/-! ## Emails -/

theorem agree_verified (h : Agree deriveWalletSalt full db state) (hs : Sound state) (ts : Time)
    (walletAddress email : String) (verifiedAt : Time) :
    Agree deriveWalletSalt full (upsertWalletEmail db ts walletAddress email (some verifiedAt)).1
        (replay applyWalletPersistEvent state
          (upsertWalletEmail db ts walletAddress email (some verifiedAt)).2) ↔
      walletAddress ≠ "" ∧ normalizeEmail email ≠ "" := by
  let row : WalletEmail := ⟨lowerCase walletAddress, normalizeEmail email, some verifiedAt⟩
  let merge (old : WalletEmail) : WalletEmail := { old with
    email := row.email
    verifiedAt := if row.verifiedAt.isSome then row.verifiedAt
      else if row.email ≠ old.email then none
      else old.verifiedAt }
  have hmerge : ∀ old, (merge old).walletAddress = old.walletAddress := fun _ => rfl
  have hlive : (upsertWalletEmail db ts walletAddress email (some verifiedAt)).1 =
    { db with emails := db.emails.upsert row merge hmerge } := rfl
  have hreplay : replay applyWalletPersistEvent state
      (upsertWalletEmail db ts walletAddress email (some verifiedAt)).2 =
      if walletAddress = "" ∨ normalizeEmail email = "" then state
      else { state with emails := state.emails.set row } := by
    simp only [upsertWalletEmail, emailVerified, replay, List.foldl_cons, List.foldl_nil,
      applyWalletPersistEvent, applyEmailVerified, Option.getD_some, lowerCase_lowerCase,
      lowerCase_eq_empty, normalizeEmail_normalizeEmail, row]
  have hmerged : ((db.emails.find? row.walletAddress).map merge).getD row = row := by
    cases hold : db.emails.find? row.walletAddress with
    | none => rfl
    | some old =>
      have hkey : old.walletAddress = row.walletAddress := key_of_find? hold
      simp [merge, hkey, row]
  have hrecord : WalletEmail.record (((db.emails.find? row.walletAddress).map merge).getD row) =
      some row := by
    rw [hmerged]
    rfl
  rw [hlive, hreplay]
  split
  · next hunnamed =>
    have hnames : ∀ e ∈ state.emails.contents WalletEmail.record,
        e.walletAddress ≠ "" ∧ e.email ≠ "" := by
      rintro e ⟨r, hr, hview⟩
      obtain ⟨hwallet, hemail, -⟩ := hs.emails r hr
      obtain ⟨_, -, rfl⟩ := Option.map_eq_some_iff.mp hview
      exact ⟨hwallet, hemail⟩
    apply iff_of_false
    · intro hagree
      refine upsert_ne key_email hnames hrecord ?_ hagree.emails
      rintro ⟨hwallet, hemail⟩
      rcases hunnamed with hempty | hempty
      · exact hwallet (lowerCase_eq_empty.mpr hempty)
      · exact hemail hempty
    · rintro ⟨hwallet, hemail⟩
      rcases hunnamed with hempty | hempty
      · exact hwallet hempty
      · exact hemail hempty
  · next hnamed =>
    rw [not_or] at hnamed
    refine h.emails_iff.trans ?_
    refine (upsert_eq_set_iff (g := id) h.emails key_email key_email (fun _ => rfl) rfl
      (fun x hx => key_email row x hx)).trans ?_
    exact iff_of_true ⟨hrecord, fun _ _ hsame => hsame⟩ hnamed

theorem agree_upsertWalletEmail (h : Agree deriveWalletSalt full db state) (hs : Sound state)
    (ts : Time) (walletAddress email : String) (verifiedAt : Option Time) :
    Agree deriveWalletSalt full (upsertWalletEmail db ts walletAddress email verifiedAt).1
        (replay applyWalletPersistEvent state
          (upsertWalletEmail db ts walletAddress email verifiedAt).2) ↔
      (verifiedAt.isSome → walletAddress ≠ "" ∧ normalizeEmail email ≠ "") ∧
        (verifiedAt = none → ∀ old ∈ db.emails.find? (lowerCase walletAddress),
          old.verifiedAt.isSome → normalizeEmail email = old.email) := by
  cases verifiedAt with
  | some verifiedAt =>
    rw [agree_verified h hs]
    simp
  | none =>
    refine h.emails_iff.trans ?_
    refine (upsert_eq_iff h.emails key_email).trans ?_
    dsimp only
    cases hold : db.emails.find? (lowerCase walletAddress) with
    | none => simp [WalletEmail.record]
    | some old =>
      rcases old with ⟨wallet, oldEmail, verified⟩
      cases verified with
      | none => simp [WalletEmail.record]
      | some t => by_cases hemail : normalizeEmail email = oldEmail <;>
          simp [WalletEmail.record, hemail]

theorem markWalletEmailVerified_eq (db : WalletDb) (now ts : Time) (walletAddress email : String) :
    markWalletEmailVerified db now ts walletAddress email =
      upsertWalletEmail db ts walletAddress email (some now) := by
  unfold markWalletEmailVerified
  dsimp only
  cases hold : db.emails.find? (lowerCase walletAddress) with
  | none => rfl
  | some old =>
    let row : WalletEmail := ⟨lowerCase walletAddress, normalizeEmail email, some now⟩
    let merge (old : WalletEmail) : WalletEmail := { old with
      email := row.email
      verifiedAt := if row.verifiedAt.isSome then row.verifiedAt
        else if row.email ≠ old.email then none
        else old.verifiedAt }
    have hmerge : ∀ old, (merge old).walletAddress = old.walletAddress := fun _ => rfl
    have hupsert : db.emails.upsert row merge hmerge = db.emails.modify row.walletAddress merge hmerge :=
      upsert_of_find? hold
    exact (congrArg (fun emails => ({ db with emails := emails },
      [emailVerified ts row.walletAddress row.email now])) hupsert).symm

end OnchainInvoice.WalletLog
