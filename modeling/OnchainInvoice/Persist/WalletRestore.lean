import OnchainInvoice.Persist.WalletInvariants

/-!
# The wallets restored

What is restored from the maps into an empty database is what the maps hold, and the restoration
succeeds if the maps agree with a database.
-/

namespace OnchainInvoice.WalletLog

open Lib.EventLog Lib.Tables Table Server

variable {deriveWalletSalt : String → String → Option String} {full : Bool} {db : WalletDb}
  {state : WalletPersistState}

/-! ## Restoring -/

section Restore

variable (now : Time)

theorem writes_restoreIdentity (db : WalletDb) :
    Writes Identity.record some IdentitySnapshot.identityId
      (fun t => { db with identities := t }) (restoreIdentity now)
      fun i => i.identityId ≠ "" ∧ i.email ≠ "" ∧ normalizeEmail i.email = i.email ∧
        i.createdAt.isSome := by
  rintro t ⟨id, email, googleSub, createdAt⟩ ⟨-, -, hnormal, hdated⟩ hfree d hd
  obtain ⟨createdAt, rfl⟩ := Option.isSome_iff_exists.mp hdated
  obtain ⟨answer, hanswer, rfl⟩ := Option.map_eq_some_iff.mp hd
  unfold upsertIdentity at hanswer
  dsimp only at hfree hnormal hanswer
  split at hanswer
  · cases hanswer
  · cases hanswer
    refine ⟨_, ⟨id, email, googleSub, createdAt⟩, rfl, rfl, fun k' => ?_⟩
    rw [find?_upsert_free hfree, hfree, hnormal]
    simp

theorem writes_restoreMethod (db : WalletDb) :
    Writes some some IdentityMethod.id (fun t => { db with methods := t })
      (fun db m => some (restoreMethod now db m)) fun _ => True := by
  rintro t m - hfree d ⟨⟩
  exact ⟨_, m, rfl, rfl, fun _ => find?_upsert_free hfree⟩

theorem writes_restoreDevice (db : WalletDb) :
    Writes some some WalletDevice.key (fun t => { db with devices := t })
      (fun db device => some (restoreDevice now db device))
      fun device => lowerCase device.walletAddress = device.walletAddress := by
  rintro t device hlower hfree d ⟨⟩
  have hrow : { device with walletAddress := lowerCase device.walletAddress } = device := by
    rw [hlower]
  refine ⟨_, { device with walletAddress := lowerCase device.walletAddress }, rfl, ?_, fun k' => ?_⟩
  · rw [hrow]
  · refine (find?_upsert_free ?_).trans ?_
    · rw [hrow]
      exact hfree
    · rw [hrow]

theorem writes_restoreEmail (db : WalletDb) :
    Writes WalletEmail.record WalletEmail.record WalletEmail.walletAddress
      (fun t => { db with emails := t }) (fun db email => some (restoreEmail now db email))
      fun e => lowerCase e.walletAddress = e.walletAddress ∧ normalizeEmail e.email = e.email := by
  rintro t e ⟨hlower, hnormal⟩ hfree d ⟨⟩
  have hrow : WalletEmail.mk (lowerCase e.walletAddress) (normalizeEmail e.email) e.verifiedAt =
      e := by
    rw [hlower, hnormal]
  refine ⟨_, ⟨lowerCase e.walletAddress, normalizeEmail e.email, e.verifiedAt⟩, rfl, ?_,
    fun k' => ?_⟩
  · rw [hrow]
  · refine (find?_upsert_free ?_).trans ?_
    · rw [hrow]
      exact hfree
    · rw [hrow]

theorem writes_restoreEntity (db : WalletDb) :
    Writes some some WalletEntity.key (fun t => { db with entities := t })
      (fun db entity => some (restoreEntity now db entity))
      fun entity => lowerCase entity.walletAddress = entity.walletAddress := by
  rintro t entity hlower hfree d ⟨⟩
  have hrow : { entity with walletAddress := lowerCase entity.walletAddress } = entity := by
    rw [hlower]
  refine ⟨_, { entity with walletAddress := lowerCase entity.walletAddress }, rfl, ?_, fun k' => ?_⟩
  · rw [hrow]
  · refine (find?_upsert_free ?_).trans ?_
    · rw [hrow]
      exact hfree
    · rw [hrow]

theorem writes_restoreEntityKey (db : WalletDb) :
    Writes some some WalletEntityKey.key (fun t => { db with entityKeys := t })
      (fun db entityKey => some (restoreEntityKey now db entityKey))
      fun k => lowerCase k.walletAddress = k.walletAddress := by
  rintro t k hlower hfree d ⟨⟩
  have hrow : { k with walletAddress := lowerCase k.walletAddress } = k := by rw [hlower]
  refine ⟨_, { k with walletAddress := lowerCase k.walletAddress }, rfl, ?_, fun k' => ?_⟩
  · rw [hrow]
  · refine (find?_upsert_free ?_).trans ?_
    · rw [hrow]
      exact hfree
    · rw [hrow]

/-- Marking an account deployed on one chain after another. -/
theorem find?_deployed (db : WalletDb) (address : String) (account : WalletAccount)
    (hlower : lowerCase address = address) (chains : List String) (hnodup : chains.Nodup)
    (t : Table WalletAccount String WalletAccount.address) (done : List String) (hnew : ∀ chainId ∈ chains, chainId ∉ done)
    (hfind : t.find? address = some { account with deployedChains := done }) :
    ∃ t', chains.foldl (fun db chainId => (markWalletDeployed db now address chainId).1)
        { db with accounts := t } = { db with accounts := t' } ∧
      ∀ k', t'.find? k' = if k' = address then
        some { account with deployedChains := done ++ chains } else t.find? k' := by
  induction chains generalizing t done with
  | nil =>
    refine ⟨t, rfl, fun k' => ?_⟩
    rw [List.append_nil]
    split
    · next hk => rw [hk, hfind]
    · rfl
  | cons chainId chains ih =>
    rw [List.nodup_cons] at hnodup
    let t1 := t.modify address
      (fun row => { row with deployedChains := done ++ [chainId] }) fun _ => rfl
    have hstep : (markWalletDeployed { db with accounts := t } now address chainId).1 =
        { db with accounts := t1 } := by
      unfold markWalletDeployed
      dsimp only
      rw [hlower, hfind]
      dsimp only
      rw [if_neg (hnew chainId (List.mem_cons_self ..))]
    have hfind1 (k' : String) : t1.find? k' = if k' = address then
        some { account with deployedChains := done ++ [chainId] } else t.find? k' := by
      rw [find?_modify]
      split
      · next hk => rw [hk, hfind]; rfl
      · rfl
    have hnew1 : ∀ c ∈ chains, c ∉ done ++ [chainId] := by
      intro c hc hmem
      rcases List.mem_append.mp hmem with hdone | hlast
      · exact hnew c (List.mem_cons_of_mem chainId hc) hdone
      · exact hnodup.1 (List.mem_singleton.mp hlast ▸ hc)
    obtain ⟨t', hfold, hfind'⟩ := ih hnodup.2 t1 (done ++ [chainId]) hnew1
      ((hfind1 address).trans (if_pos rfl))
    refine ⟨t', ?_, fun k' => ?_⟩
    · rw [List.foldl_cons, hstep, hfold]
    · rw [hfind', List.append_assoc]
      split
      · rfl
      · next hk => rw [hfind1, if_neg hk]

theorem writes_restoreAccount (db : WalletDb) :
    Writes (WalletAccount.record full) (AccountSnapshot.record deriveWalletSalt)
      AccountSnapshot.address (fun t => { db with accounts := t })
      (restoreAccount deriveWalletSalt now)
      fun a => a.address ≠ "" ∧ lowerCase a.address = a.address ∧ a.deployedChains.Nodup ∧
        "" ∉ a.deployedChains := by
  rintro t s ⟨-, hlower, hnodup, -⟩ hfree d hd
  simp only [restoreAccount, Option.bind_eq_bind, Option.mem_def, Option.bind_eq_some_iff,
    Option.pure_def, Option.some_inj] at hd
  obtain ⟨salt, hsalt, rfl⟩ := hd
  let account : WalletAccount := {
    address := s.address
    salt := salt
    ownerQx := s.ownerQx
    ownerQy := s.ownerQy
    credentialId := s.credentialId
    webauthnAttestation := none
    identityId := s.identityId
    label := none
    deployedChains := [] }
  obtain ⟨t1, hupsert, hfind⟩ : ∃ t1 : Table WalletAccount String WalletAccount.address,
      (upsertWalletAccount { db with accounts := t } now {
        address := s.address
        salt := salt
        ownerQx := s.ownerQx
        ownerQy := s.ownerQy
        credentialId := s.credentialId
        webauthnAttestation := none
        identityId := s.identityId
        label := none }).1 = { db with accounts := t1 } ∧
      ∀ k', t1.find? k' = if k' = s.address then some account else t.find? k' := by
    refine ⟨_, rfl, fun k' => ?_⟩
    dsimp only
    rw [hlower, hfree]
    rw [find?_upsert_free]
    · simp [account, orElse]
    · exact hfree
  obtain ⟨t2, hfold, hfind2⟩ := find?_deployed now db s.address account hlower s.deployedChains
    hnodup t1 [] (fun _ _ => List.not_mem_nil) ((hfind s.address).trans (if_pos rfl))
  refine ⟨t2, { account with deployedChains := s.deployedChains }, ?_, ?_, fun k' => ?_⟩
  · rw [hupsert, hfold]
  · show _ = some _
    rw [show s.restoredSalt deriveWalletSalt = some salt from hsalt]
    cases full <;> rfl
  · rw [hfind2]
    split
    · rfl
    · next hk => rw [hfind, if_neg hk]

/-! Every map is written into a table of its own, here into an empty one. -/

section Maps

variable (hs : Sound state) (db : WalletDb)

include hs

theorem restored_identities : ∀ db' ∈ state.identities.rows.foldlM (restoreIdentity now)
      { db with identities := .empty }, ∃ t, db' = { db with identities := t } ∧
        t.contents Identity.record = state.identities.contents some :=
  contents_of_rows (g := id) key_identity (writes_restoreIdentity now db) (fun _ => rfl)
    hs.identities

theorem restored_accounts (full : Bool) : ∀ db' ∈ state.accounts.rows.foldlM
      (restoreAccount deriveWalletSalt now) { db with accounts := .empty },
      ∃ t, db' = { db with accounts := t } ∧ t.contents (WalletAccount.record full) =
        state.accounts.contents (AccountSnapshot.record deriveWalletSalt) :=
  contents_of_rows (g := id) (key_account full) (writes_restoreAccount now db) (fun _ => rfl)
    hs.accounts

omit hs in
theorem restored_methods (state : WalletPersistState) (db : WalletDb) :
    ∃ t, state.methods.rows.foldl (restoreMethod now) { db with methods := .empty } =
      { db with methods := t } ∧ t.contents some = state.methods.contents some :=
  contents_of_rows_foldl (g := id) (key_some IdentityMethod.id) (writes_restoreMethod now db)
    (fun _ => rfl) fun _ _ => trivial

theorem restored_devices :
    ∃ t, state.devices.rows.foldl (restoreDevice now) { db with devices := .empty } =
      { db with devices := t } ∧ t.contents some = state.devices.contents some :=
  contents_of_rows_foldl (g := logKeyOf) (key_some WalletDevice.key) (writes_restoreDevice now db)
    (fun _ => rfl) fun d hd => (hs.devices d hd).2.2.2

theorem restored_emails :
    ∃ t, state.emails.rows.foldl (restoreEmail now) { db with emails := .empty } =
      { db with emails := t } ∧
      t.contents WalletEmail.record = state.emails.contents WalletEmail.record :=
  contents_of_rows_foldl (g := id) key_email (writes_restoreEmail now db) (fun _ => rfl)
    fun e he => (hs.emails e he).2.2

theorem restored_entities :
    ∃ t, state.entities.rows.foldl (restoreEntity now) { db with entities := .empty } =
      { db with entities := t } ∧ t.contents some = state.entities.contents some :=
  contents_of_rows_foldl (g := entityLogKeyOf) (key_some WalletEntity.key)
    (writes_restoreEntity now db) (fun _ => rfl) fun e he => (hs.entities e he).2.2

theorem restored_entityKeys :
    ∃ t, state.entityKeys.rows.foldl (restoreEntityKey now) { db with entityKeys := .empty } =
      { db with entityKeys := t } ∧ t.contents some = state.entityKeys.contents some :=
  contents_of_rows_foldl (g := entityKeyLogKeyOf) (key_some WalletEntityKey.key)
    (writes_restoreEntityKey now db) (fun _ => rfl) fun k hk => (hs.entityKeys k hk).2.2

end Maps

/-- Whatever is restored into an empty database is what the maps hold. -/
theorem agree_restored (hs : Sound state) {restored : WalletDb}
    (h : applyWalletPersistStateToDb deriveWalletSalt now WalletDb.empty state = some restored) :
    Agree deriveWalletSalt full restored state := by
  simp only [applyWalletPersistStateToDb, Option.bind_eq_bind, Option.bind_eq_some_iff,
    Option.pure_def, Option.some_inj] at h
  obtain ⟨db1, h1, db3, h3, rfl⟩ := h
  obtain ⟨identities, rfl, hidentities⟩ := restored_identities now hs WalletDb.empty db1 h1
  obtain ⟨methods, hmethods, hmethods'⟩ := restored_methods now state
    { WalletDb.empty with identities := identities }
  dsimp only at hmethods
  rw [show state.methods.rows.foldl (restoreMethod now)
    { WalletDb.empty with identities := identities } = _ from hmethods] at h3
  obtain ⟨accounts, rfl, haccounts⟩ := restored_accounts now hs
    ⟨identities, methods, .empty, .empty, .empty, .empty, .empty⟩ full db3 h3
  obtain ⟨devices, hdevices, hdevices'⟩ := restored_devices now hs
    ⟨identities, methods, accounts, .empty, .empty, .empty, .empty⟩
  obtain ⟨emails, hemails, hemails'⟩ := restored_emails now hs
    ⟨identities, methods, accounts, devices, .empty, .empty, .empty⟩
  obtain ⟨entities, hentities, hentities'⟩ := restored_entities now hs
    ⟨identities, methods, accounts, devices, emails, .empty, .empty⟩
  obtain ⟨entityKeys, hentityKeys, hentityKeys'⟩ := restored_entityKeys now hs
    ⟨identities, methods, accounts, devices, emails, entities, .empty⟩
  have hrestored : state.entityKeys.rows.foldl (restoreEntityKey now)
      (state.entities.rows.foldl (restoreEntity now) (state.emails.rows.foldl (restoreEmail now)
        (state.devices.rows.foldl (restoreDevice now)
          ⟨identities, methods, accounts, .empty, .empty, .empty, .empty⟩))) =
      ⟨identities, methods, accounts, devices, emails, entities, entityKeys⟩ := by
    rw [hdevices, hemails, hentities, hentityKeys]
  have hagree : Agree deriveWalletSalt full
      ⟨identities, methods, accounts, devices, emails, entities, entityKeys⟩ state :=
    ⟨hidentities, hmethods', haccounts, hdevices', hemails', hentities', hentityKeys'⟩
  rw [← hrestored] at hagree
  exact hagree

theorem restoreIdentities_isSome (db : WalletDb) (rows : List IdentitySnapshot)
    (t : Table Identity String Identity.identityId)
    (hrows : ∀ i ∈ rows, (i.identityId ≠ "" ∧ i.email ≠ "" ∧ normalizeEmail i.email = i.email ∧
      i.createdAt.isSome) ∧ t.find? i.identityId = none ∧
        ∀ k j, t.find? k = some j → j.email ≠ i.email)
    (hids : (rows.map IdentitySnapshot.identityId).Nodup)
    (hemails : (rows.map IdentitySnapshot.email).Nodup) :
    (rows.foldlM (restoreIdentity now) { db with identities := t }).isSome := by
  induction rows generalizing t with
  | nil => rfl
  | cons i rows ih =>
    obtain ⟨hsound, hfree, hother⟩ := hrows i (List.mem_cons_self ..)
    rw [List.map_cons, List.nodup_cons] at hids hemails
    have hnot : ¬ emailTaken { db with identities := t }
        ⟨i.identityId, i.email, i.googleSub, i.createdAt⟩ = true := by
      unfold emailTaken
      rw [List.any_eq_true]
      rintro ⟨j, hj, hsame⟩
      rw [hsound.2.2.1, decide_eq_true_iff] at hsame
      exact hother _ j (find?_of_mem hj) hsame.1
    obtain ⟨d, hd⟩ : ∃ d, restoreIdentity now { db with identities := t } i = some d := by
      unfold restoreIdentity upsertIdentity
      rw [if_neg hnot]
      exact ⟨_, rfl⟩
    obtain ⟨t', row, rfl, hrow, hfind⟩ := writes_restoreIdentity now db t i hsound hfree d hd
    have hemail : row.email = i.email := by
      cases hrow
      rfl
    rw [List.foldlM_cons, hd]
    apply ih t' (fun i' hi' => ?_) hids.2 hemails.2
    obtain ⟨hsound', hfree', hother'⟩ := hrows i' (List.mem_cons_of_mem i hi')
    have hne : i'.identityId ≠ i.identityId := fun hsame =>
      hids.1 (hsame ▸ List.mem_map_of_mem hi')
    refine ⟨hsound', ?_, fun k j hj => ?_⟩
    · rw [hfind, if_neg hne, hfree']
    · rw [hfind] at hj
      split at hj
      · cases hj
        rw [hemail]
        exact fun hsame => hemails.1 (hsame ▸ List.mem_map_of_mem hi')
      · exact hother' k j hj

theorem nodup_emails (h : Agree deriveWalletSalt full db state) (hunique : UniqueEmails db) :
    (state.identities.rows.map IdentitySnapshot.email).Nodup := by
  apply List.Nodup.map_on _ (List.Nodup.of_map _ state.identities.nodup)
  intro i hi j hj hsame
  have hlive (i : IdentitySnapshot) (hi : i ∈ state.identities.rows) :
      ∃ row ∈ db.identities.rows, row.identityId = i.identityId ∧ row.email = i.email := by
    have hmem : i ∈ db.identities.contents Identity.record := h.identities ▸ ⟨i, hi, rfl⟩
    obtain ⟨row, hrow, hrecord⟩ := hmem
    cases hrecord
    exact ⟨row, hrow, rfl, rfl⟩
  obtain ⟨row, hrow, hid, hemail⟩ := hlive i hi
  obtain ⟨row', hrow', hid', hemail'⟩ := hlive j hj
  have hids := hunique _ _ row row' (find?_of_mem hrow) (find?_of_mem hrow')
    (hemail.trans (hsame.trans hemail'.symm))
  exact List.inj_on_of_nodup_map state.identities.nodup hi hj (hid.symm.trans (hids.trans hid'))

/-- The restoration fails nowhere if the maps agree with a database. -/
theorem restored_of_agree (h : Agree deriveWalletSalt full db state) (hs : Sound state)
    (hunique : UniqueEmails db) : ∃ restored,
      applyWalletPersistStateToDb deriveWalletSalt now WalletDb.empty state = some restored := by
  have hidentities := restoreIdentities_isSome now WalletDb.empty state.identities.rows .empty
    (fun i hi => ⟨hs.identities i hi, rfl, fun k j hj => by cases hj⟩) state.identities.nodup
    (nodup_emails h hunique)
  obtain ⟨db1, hdb1⟩ := Option.isSome_iff_exists.mp hidentities
  have haccounts : ∀ d, (state.accounts.rows.foldlM (restoreAccount deriveWalletSalt now) d).isSome := by
    apply foldlM_isSome
    intro d s hmem
    obtain ⟨a, -, hrecord⟩ : ∃ a ∈ db.accounts.rows,
        a.record full = s.record deriveWalletSalt := by
      have hmem' : (s.record deriveWalletSalt).get rfl ∈
          db.accounts.contents (WalletAccount.record full) := h.accounts ▸ ⟨s, hmem, rfl⟩
      exact hmem'
    have hsalt : s.restoredSalt deriveWalletSalt = some a.salt := by
      simp only [AccountSnapshot.record, WalletAccount.record, Option.some_inj,
        AccountRecord.mk.injEq] at hrecord
      exact hrecord.2.1.symm
    unfold restoreAccount
    rw [hsalt]
    rfl
  obtain ⟨db3, hdb3⟩ := Option.isSome_iff_exists.mp
    (haccounts (state.methods.rows.foldl (restoreMethod now) db1))
  have hfirst : state.identities.rows.foldlM (restoreIdentity now) WalletDb.empty = some db1 :=
    hdb1
  rw [← Option.isSome_iff_exists]
  simp only [applyWalletPersistStateToDb, Option.bind_eq_bind, Option.pure_def, hfirst,
    Option.bind_some, hdb3, Option.isSome_some]

end Restore

end OnchainInvoice.WalletLog
