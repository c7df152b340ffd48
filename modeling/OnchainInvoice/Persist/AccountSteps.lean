import OnchainInvoice.Persist.WalletSteps

/-!
# The wallet log step by step: identities and accounts

The same for the operations on identities, their methods and the accounts of the wallets.
-/

namespace OnchainInvoice.WalletLog

open Lib.EventLog Lib.Tables Table Server

variable {deriveWalletSalt : String → String → Option String} {full : Bool} {db : WalletDb}
  {state : WalletPersistState}

/-! ## Identity methods -/

theorem agree_insertIdentityMethod (h : Agree deriveWalletSalt full db state) (hs : Sound state)
    (now ts : Time) (input : IdentityMethod) :
    Agree deriveWalletSalt full (insertIdentityMethod db now ts input).1
        (replay applyWalletPersistEvent state (insertIdentityMethod db now ts input).2) ↔
      (db.methods.find? input.id = none → input.id ≠ "" ∧ input.identityId ≠ "") ∧
      ∀ old ∈ db.methods.find? input.id, ∀ credentialId ∈ input.credentialId,
        old.credentialId = some credentialId := by
  let merge (old : IdentityMethod) : IdentityMethod :=
    { old with credentialId := input.credentialId.or old.credentialId }
  have hmerge : ∀ old, (merge old).id = old.id := fun _ => rfl
  have hlive : (insertIdentityMethod db now ts input).1 =
    { db with methods := db.methods.upsert input merge hmerge } := rfl
  cases hold : db.methods.find? input.id with
  | some old =>
    have hevents : (insertIdentityMethod db now ts input).2 = [] := by
      simp [insertIdentityMethod, hold]
    rw [hlive, hevents]
    refine h.methods_iff.trans ?_
    refine (upsert_eq_iff h.methods (key_some IdentityMethod.id)).trans ?_
    rw [hold]
    rcases old with ⟨id, identityId, kind, credentialId, qx, qy, eoa⟩
    cases hgiven : input.credentialId <;> simp [merge, hgiven]
  | none =>
    have hreplay : replay applyWalletPersistEvent state (insertIdentityMethod db now ts input).2 =
        if input.id = "" ∨ input.identityId = "" then state
        else { state with methods := state.methods.set input } := by
      simp only [insertIdentityMethod, hold, Option.isNone_none, if_true, replay, List.foldl_cons,
        List.foldl_nil, applyWalletPersistEvent, applyIdentityMethodAdded, methodPayload,
        Option.getD_some]
    have hmerged : ((db.methods.find? input.id).map merge).getD input = input := by
      rw [hold]
      rfl
    have hcarried : ((none : Option IdentityMethod) = none →
        input.id ≠ "" ∧ input.identityId ≠ "") ∧
        (∀ old ∈ (none : Option IdentityMethod), ∀ credentialId ∈ input.credentialId,
          old.credentialId = some credentialId) ↔ input.id ≠ "" ∧ input.identityId ≠ "" := by
      simp
    rw [hlive, hreplay, hcarried]
    split
    · next hunnamed =>
      have hnames : ∀ m ∈ state.methods.contents some, m.id ≠ "" ∧ m.identityId ≠ "" := by
        rintro m ⟨m, hm, ⟨⟩⟩
        exact hs.methods m hm
      apply iff_of_false
      · intro hagree
        refine upsert_ne (key_some IdentityMethod.id) hnames (congrArg some hmerged) ?_
          hagree.methods
        rintro ⟨hid, hidentity⟩
        rcases hunnamed with hempty | hempty
        · exact hid hempty
        · exact hidentity hempty
      · rintro ⟨hid, hidentity⟩
        rcases hunnamed with hempty | hempty
        · exact hid hempty
        · exact hidentity hempty
    · next hnamed =>
      rw [not_or] at hnamed
      refine h.methods_iff.trans ?_
      refine (upsert_eq_set_iff (g := id) h.methods (key_some IdentityMethod.id)
        (key_some IdentityMethod.id) (fun _ => rfl) rfl (key_some IdentityMethod.id input)).trans ?_
      exact iff_of_true ⟨congrArg some hmerged, fun _ _ hsame => hsame⟩ hnamed

theorem agree_deleteIdentityMethod (h : Agree deriveWalletSalt full db state) (ts : Time)
    (id : String) :
    Agree deriveWalletSalt full (deleteIdentityMethod db ts id).1
        (replay applyWalletPersistEvent state (deleteIdentityMethod db ts id).2) ↔
      (id = "" → db.methods.find? id = none) := by
  unfold deleteIdentityMethod
  cases hold : db.methods.find? id with
  | none => exact iff_of_true h fun _ => rfl
  | some row =>
    have hid : row.id = id := key_of_find? hold
    have hreplay : replay applyWalletPersistEvent state
        [⟨ts, .identityMethodRemoved, methodPayload row⟩] =
        if id = "" then state
        else { state with methods := state.methods.delete fun row => row.id = id } := by
      simp only [replay, List.foldl_cons, List.foldl_nil, applyWalletPersistEvent,
        applyIdentityMethodRemoved, methodPayload, Option.getD_some, hid]
    dsimp only
    rw [hreplay]
    split
    · next hempty =>
      apply iff_of_false
      · intro hagree
        have hnone := (delete_eq_iff h.methods (key_some IdentityMethod.id)).mp hagree.methods
        rw [hold] at hnone
        cases hnone
      · intro hcarried
        cases hcarried hempty
    · next hne =>
      refine h.methods_iff.trans ?_
      refine (delete_eq_delete_iff (g := fun k => k) h.methods (key_some IdentityMethod.id)
        (key_some IdentityMethod.id) (fun _ => rfl) rfl).trans ?_
      exact iff_of_true (fun _ _ hsame => hsame) fun hempty => absurd hempty hne

/-! ## Identities -/

theorem agree_upsertIdentity (h : Agree deriveWalletSalt full db state) (hs : Sound state)
    (now ts : Time) (input : UpsertIdentity) (hfree : emailTaken db input = false) :
    Agree deriveWalletSalt full ((upsertIdentity db now ts input).getD (db, [])).1
        (replay applyWalletPersistEvent state
          ((upsertIdentity db now ts input).getD (db, [])).2) ↔
      (db.identities.find? input.identityId = none →
        input.identityId ≠ "" ∧ normalizeEmail input.email ≠ "") ∧
      ∀ old ∈ db.identities.find? input.identityId, normalizeEmail input.email = old.email ∧
        ∀ sub ∈ input.googleSub, old.googleSub = some sub := by
  let existing := db.identities.find? input.identityId
  let row : Identity := {
    identityId := input.identityId
    email := normalizeEmail input.email
    googleSub := input.googleSub.or (existing.bind Identity.googleSub)
    createdAt := input.createdAt.getD ((existing.map Identity.createdAt).getD now) }
  let merge (old : Identity) : Identity :=
    { old with email := row.email, googleSub := row.googleSub.or old.googleSub }
  have hmerge : ∀ old, (merge old).identityId = old.identityId := fun _ => rfl
  let events : List PersistLogEvent := if existing.isNone then [⟨ts, .identityCreated, {
      identityId := some row.identityId
      email := some row.email
      googleSub := input.googleSub
      createdAt := some row.createdAt }⟩]
    else []
  have hanswer : upsertIdentity db now ts input =
      some ({ db with identities := db.identities.upsert row merge hmerge }, events) := by
    unfold upsertIdentity
    rw [hfree]
    rfl
  rw [hanswer, Option.getD_some]
  dsimp only
  cases hold : db.identities.find? input.identityId with
  | some old =>
    have hexisting : existing = some old := hold
    have hevents : events = [] := by simp [events, hexisting]
    rw [hevents]
    refine h.identities_iff.trans ?_
    refine (upsert_eq_iff h.identities key_identity).trans ?_
    show (db.identities.find? input.identityId).bind Identity.record =
      Identity.record (((db.identities.find? input.identityId).map merge).getD row) ↔ _
    rw [hold]
    rcases old with ⟨id, email, googleSub, createdAt⟩
    have hsub : row.googleSub.or googleSub = input.googleSub.or googleSub := by
      cases hgiven : input.googleSub <;> cases googleSub <;> simp [row, hexisting, hgiven]
    have hleft : (some (⟨id, email, googleSub, createdAt⟩ : Identity)).bind Identity.record =
        Identity.record (merge ⟨id, email, googleSub, createdAt⟩) ↔
        email = normalizeEmail input.email ∧ googleSub = input.googleSub.or googleSub := by
      rw [← hsub]
      simp only [Option.bind_some, Identity.record, merge, row, Option.some_inj,
        IdentitySnapshot.mk.injEq, true_and, and_true]
    rw [Option.map_some, Option.getD_some, hleft, eq_comm (a := email)]
    cases input.googleSub <;> simp
  | none =>
    have hexisting : existing = none := hold
    have hevents : events = [⟨ts, .identityCreated, {
        identityId := some row.identityId
        email := some row.email
        googleSub := input.googleSub
        createdAt := some row.createdAt }⟩] := by simp [events, hexisting]
    have hsub : row.googleSub = input.googleSub := by simp [row, hexisting]
    have hreplay : replay applyWalletPersistEvent state events =
        if input.identityId = "" ∨ normalizeEmail input.email = "" then state
        else { state with
          identities := state.identities.set
            ⟨row.identityId, row.email, input.googleSub, some row.createdAt⟩ } := by
      rw [hevents]
      simp only [replay, List.foldl_cons, List.foldl_nil, applyWalletPersistEvent,
        applyIdentityCreated, Option.getD_some, normalizeEmail_normalizeEmail, row]
    have hrecord : Identity.record (((db.identities.find? row.identityId).map merge).getD row) =
        some ⟨row.identityId, row.email, input.googleSub, some row.createdAt⟩ := by
      rw [show db.identities.find? row.identityId = none from hold, ← hsub]
      rfl
    have hcarried : ((none : Option Identity) = none →
        input.identityId ≠ "" ∧ normalizeEmail input.email ≠ "") ∧
        (∀ old ∈ (none : Option Identity), normalizeEmail input.email = old.email ∧
          ∀ sub ∈ input.googleSub, old.googleSub = some sub) ↔
        input.identityId ≠ "" ∧ normalizeEmail input.email ≠ "" := by
      simp
    rw [hreplay, hcarried]
    split
    · next hunnamed =>
      have hnames : ∀ i ∈ state.identities.contents some, i.identityId ≠ "" ∧ i.email ≠ "" := by
        rintro i ⟨i, hi, ⟨⟩⟩
        obtain ⟨hid, hemail, -⟩ := hs.identities i hi
        exact ⟨hid, hemail⟩
      apply iff_of_false
      · intro hagree
        refine upsert_ne key_identity hnames hrecord ?_ hagree.identities
        rintro ⟨hid, hemail⟩
        rcases hunnamed with hempty | hempty
        · exact hid hempty
        · exact hemail hempty
      · rintro ⟨hid, hemail⟩
        rcases hunnamed with hempty | hempty
        · exact hid hempty
        · exact hemail hempty
    · next hnamed =>
      rw [not_or] at hnamed
      refine h.identities_iff.trans ?_
      refine (upsert_eq_set_iff (g := id) h.identities key_identity
        (key_some IdentitySnapshot.identityId) (fun _ => rfl) rfl
        (key_some IdentitySnapshot.identityId _)).trans ?_
      exact iff_of_true ⟨hrecord, fun _ _ hsame => hsame⟩ hnamed

theorem agree_setIdentityGoogleSub (h : Agree deriveWalletSalt full db state) (ts : Time)
    (identityId googleSub : String) :
    Agree deriveWalletSalt full (setIdentityGoogleSub db ts identityId googleSub).1
      (replay applyWalletPersistEvent state (setIdentityGoogleSub db ts identityId googleSub).2) := by
  have hfind := bind_find?_eq h.identities key_identity (key_some IdentitySnapshot.identityId)
    identityId
  apply h.identities_iff.mpr
  apply (modify_eq_modify_iff h.identities key_identity
    (key_some IdentitySnapshot.identityId)).mpr
  dsimp only
  rw [Option.bind_fun_some] at hfind
  rw [← hfind]
  cases db.identities.find? identityId <;> rfl

/-! ## Accounts -/

section Records

variable {s : AccountSnapshot} {a : WalletAccount}

theorem record_update (h : s.record deriveWalletSalt = a.record full)
    (credentialId identityId : Option String) (deployedChains : List String) :
    AccountSnapshot.record deriveWalletSalt { s with
        credentialId := credentialId, identityId := identityId, deployedChains := deployedChains } =
      WalletAccount.record full { a with
        credentialId := credentialId, identityId := identityId
        deployedChains := deployedChains } := by
  simp only [AccountSnapshot.record, WalletAccount.record, AccountSnapshot.restoredSalt,
    Option.some_inj, AccountRecord.mk.injEq] at h ⊢
  obtain ⟨haddress, hsalt, hqx, hqy, -, hattestation, -, hlabel, -⟩ := h
  exact ⟨haddress, hsalt, hqx, hqy, trivial, hattestation, trivial, hlabel, trivial⟩

theorem fields_of_record (h : s.record deriveWalletSalt = a.record full) :
    s.credentialId = a.credentialId ∧ s.identityId = a.identityId ∧
      s.deployedChains = a.deployedChains ∧
      (full = true → a.webauthnAttestation = none ∧ a.label = none) := by
  simp only [AccountSnapshot.record, WalletAccount.record, Option.some_inj,
    AccountRecord.mk.injEq] at h
  obtain ⟨-, -, -, -, hcredential, hattestation, hidentity, hlabel, hchains⟩ := h
  refine ⟨hcredential, hidentity, hchains, ?_⟩
  rintro rfl
  exact ⟨hattestation.symm, hlabel.symm⟩

/-- The log has neither the attestation nor the label. -/
theorem record_eq_iff (credentialId credentialId' webauthnAttestation identityId identityId'
    label : Option String) :
    WalletAccount.record full { a with
        credentialId := credentialId, webauthnAttestation := webauthnAttestation
        identityId := identityId, label := label } =
      WalletAccount.record full { a with
        credentialId := credentialId', identityId := identityId' } ↔
      credentialId = credentialId' ∧ identityId = identityId' ∧
        (full = true → webauthnAttestation = a.webauthnAttestation ∧ label = a.label) := by
  cases full <;> simp [WalletAccount.record]
  tauto

end Records

theorem snapshot_of_account (h : Agree deriveWalletSalt full db state) {address : String}
    {a : WalletAccount} (ha : db.accounts.find? address = some a) :
    ∃ s, state.accounts.find? address = some s ∧ s.record deriveWalletSalt = a.record full := by
  have hfind := bind_find?_eq h.accounts (key_account full) (key_snapshot deriveWalletSalt) address
  rw [ha, Option.bind_some] at hfind
  exact Option.bind_eq_some_iff.mp hfind.symm

theorem orElse_eq_none {a b : Option String} : orElse a b = none ↔ ¬ Given a ∧ b = none := by
  rw [not_given]
  cases a <;> simp [orElse]

theorem given_orElse {a : Option String} : Given (orElse a (orElse none none)) ↔ Given a := by
  unfold Given orElse
  cases a with
  | none => simp
  | some text => by_cases htext : text = "" <;> simp [Option.filter_some, htext]

theorem or_of_given {new : Option String} (h : Given new) (old : Option String) :
    new.or old = new := by
  cases new with
  | none => exact absurd rfl h.1
  | some text => rfl

theorem orElse_or_of_given {new old : Option String} (h : Given new) :
    orElse (new.or old) old = new := by
  obtain ⟨hsome, hne⟩ := h
  cases new with
  | none => exact absurd rfl hsome
  | some text =>
    have htext : text ≠ "" := fun heq => hne (congrArg some heq)
    simp [orElse, htext]

theorem orElse_or_of_not_given {new old : Option String} (h : ¬ Given new) :
    orElse (new.or old) old = old := by
  rcases not_given.mp h with rfl | rfl
  · cases old with
    | none => rfl
    | some text => by_cases htext : text = "" <;> simp [orElse, Option.filter_some, htext]
  · rfl

theorem keptCredential_eq_old {old new : Option String} :
    keptCredential old new = old ↔ ¬ Given new ∨ Given old ∨ new = old := by
  unfold keptCredential Given
  split_ifs
  all_goals simp_all
  all_goals tauto

theorem agree_new_account (h : Agree deriveWalletSalt full db state) (hs : Sound state) (ts : Time)
    (input : UpsertWalletAccount) (hnew : db.accounts.find? (lowerCase input.address) = none) :
    Agree deriveWalletSalt full (upsertWalletAccount db ts input).1
        (replay applyWalletPersistEvent state (upsertWalletAccount db ts input).2) ↔
      NewAccountCarried deriveWalletSalt full input := by
  let row : WalletAccount := {
    address := lowerCase input.address
    salt := input.salt
    ownerQx := input.ownerQx
    ownerQy := input.ownerQy
    credentialId := input.credentialId
    webauthnAttestation := input.webauthnAttestation
    identityId := input.identityId
    label := orElse (input.label.map Server.trim) none
    deployedChains := [] }
  let snapshot : AccountSnapshot := {
    address := lowerCase input.address
    salt := input.salt
    ownerQx := input.ownerQx
    ownerQy := input.ownerQy
    credentialId := input.credentialId
    identityId := input.identityId.filter (· ≠ "")
    deployedChains := [] }
  let merge (old : WalletAccount) : WalletAccount := { old with
    credentialId := keptCredential old.credentialId row.credentialId
    webauthnAttestation := row.webauthnAttestation.or old.webauthnAttestation
    identityId := orElse row.identityId old.identityId
    label := orElse row.label old.label }
  have hmerge : ∀ old, (merge old).address = old.address := fun _ => rfl
  have hlive : (upsertWalletAccount db ts input).1 =
      { db with accounts := db.accounts.upsert row merge hmerge } := by
    simp only [upsertWalletAccount, hnew, Option.bind_none, Option.map_none, Option.or_none]
    rfl
  have hreplay : replay applyWalletPersistEvent state (upsertWalletAccount db ts input).2 =
      if input.address = "" then state
      else { state with accounts := state.accounts.set snapshot } := by
    simp only [upsertWalletAccount, hnew, replay, List.foldl_cons, List.foldl_nil,
      applyWalletPersistEvent, applyAccountCreated, Option.getD_some, lowerCase_lowerCase,
      lowerCase_eq_empty, snapshot]
  have hmerged : ((db.accounts.find? row.address).map merge).getD row = row := by
    rw [hnew]
    rfl
  have hrecord : row.record full = snapshot.record deriveWalletSalt ↔
      (input.salt ≠ "" ∨ deriveWalletSalt input.ownerQx input.ownerQy = some "") ∧
        input.identityId ≠ some "" ∧ (full = true →
          input.webauthnAttestation = none ∧ ¬ Given (input.label.map Server.trim)) := by
    have hsalt : some input.salt = snapshot.restoredSalt deriveWalletSalt ↔
        input.salt ≠ "" ∨ deriveWalletSalt input.ownerQx input.ownerQy = some "" := by
      unfold AccountSnapshot.restoredSalt
      by_cases hempty : input.salt = "" <;> simp [snapshot, hempty, eq_comm]
    have hidentity : input.identityId = input.identityId.filter (· ≠ "") ↔
        input.identityId ≠ some "" := by
      cases input.identityId with
      | none => simp
      | some text => by_cases htext : text = "" <;> simp [Option.filter_some, htext]
    rw [← hsalt, ← hidentity]
    cases full <;> simp [WalletAccount.record, AccountSnapshot.record, row, snapshot, orElse_eq_none]
    tauto
  rw [hlive, hreplay]
  split
  · next hempty =>
    have hnames : ∀ a ∈ state.accounts.contents (AccountSnapshot.record deriveWalletSalt),
        a.address ≠ "" := by
      rintro a ⟨s, hmem, ⟨⟩⟩
      exact (hs.accounts s hmem).1
    apply iff_of_false
    · intro hagree
      refine upsert_ne (key_account full) hnames (congrArg (WalletAccount.record full) hmerged) ?_
        hagree.accounts
      exact fun hne => hne (lowerCase_eq_empty.mpr hempty)
    · exact fun hcarried => hcarried.address hempty
  · next hne =>
    refine h.accounts_iff.trans ?_
    refine (upsert_eq_set_iff (g := id) h.accounts (key_account full)
      (key_snapshot deriveWalletSalt) (fun _ => rfl) rfl
      (key_snapshot deriveWalletSalt snapshot)).trans ?_
    rw [hmerged]
    refine (and_iff_left fun _ _ hsame => hsame).trans (hrecord.trans ?_)
    apply Iff.intro
    · rintro ⟨hsalt, hidentity, hplain⟩
      exact ⟨hne, hsalt, hidentity, hplain⟩
    · intro hcarried
      exact ⟨hcarried.salt, hcarried.identityId, hcarried.plain⟩

theorem agree_existing_account (h : Agree deriveWalletSalt full db state) (ts : Time)
    (input : UpsertWalletAccount) {old : WalletAccount}
    (hold : db.accounts.find? (lowerCase input.address) = some old) :
    Agree deriveWalletSalt full (upsertWalletAccount db ts input).1
        (replay applyWalletPersistEvent state (upsertWalletAccount db ts input).2) ↔
      AccountCarried full input old := by
  let row : WalletAccount := {
    address := lowerCase input.address
    salt := input.salt
    ownerQx := input.ownerQx
    ownerQy := input.ownerQy
    credentialId := input.credentialId
    webauthnAttestation := input.webauthnAttestation
    identityId := input.identityId.or old.identityId
    label := orElse (input.label.map Server.trim) (orElse (old.label.map Server.trim) none)
    deployedChains := [] }
  let merge (old : WalletAccount) : WalletAccount := { old with
    credentialId := keptCredential old.credentialId row.credentialId
    webauthnAttestation := row.webauthnAttestation.or old.webauthnAttestation
    identityId := orElse row.identityId old.identityId
    label := orElse row.label old.label }
  let otherIdentity := Given input.identityId ∧ input.identityId ≠ old.identityId
  let otherCredential := Given input.credentialId ∧ input.credentialId ≠ old.credentialId
  have hmerge : ∀ old, (merge old).address = old.address := fun _ => rfl
  have hmodify : db.accounts.upsert row merge hmerge = db.accounts.modify row.address merge hmerge :=
    upsert_of_find? hold
  have hlive : (upsertWalletAccount db ts input).1 =
      { db with accounts := db.accounts.modify row.address merge hmerge } := by
    rw [← hmodify]
    simp only [upsertWalletAccount, hold, Option.bind_some]
    rfl
  obtain ⟨s, hs, hrecord⟩ := snapshot_of_account h hold
  obtain ⟨hcredential, hidentity, hchains, hplain⟩ := fields_of_record hrecord
  have hidentityOf : (merge old).identityId = input.identityId ∨
      (¬ otherIdentity ∧ (merge old).identityId = old.identityId) := by
    by_cases hgiven : Given input.identityId
    · exact .inl (orElse_or_of_given hgiven)
    · exact .inr ⟨fun hother => hgiven hother.1, orElse_or_of_not_given hgiven⟩
  have hrest : (full = true → (merge old).webauthnAttestation = old.webauthnAttestation ∧
        (merge old).label = old.label) ↔
      (full = true → input.webauthnAttestation = none ∧ ¬ Given (input.label.map Server.trim)) := by
    apply forall_congr'
    intro hfull
    obtain ⟨hattestation, hlabel⟩ := hplain hfull
    simp [merge, row, hattestation, hlabel, orElse_eq_none, given_orElse]
  have hcompare (credentialId identityId : Option String) :
      (merge old).record full = WalletAccount.record full { old with
        credentialId := credentialId, identityId := identityId } ↔
      keptCredential old.credentialId input.credentialId = credentialId ∧
        (merge old).identityId = identityId ∧
        (full = true →
          input.webauthnAttestation = none ∧ ¬ Given (input.label.map Server.trim)) := by
    rw [← hrest]
    exact record_eq_iff ..
  rw [hlive]
  by_cases hother : otherIdentity
  · -- the event of the identity, whatever the credential is
    have hreplay : replay applyWalletPersistEvent state (upsertWalletAccount db ts input).2 =
        { state with
          accounts := state.accounts.modify row.address
            (fun account => { account with
              identityId := input.identityId.or account.identityId }) fun _ => rfl } := by
      obtain ⟨⟨hsome, hne⟩, hchanged⟩ := hother
      simp only [upsertWalletAccount, hold, if_pos (And.intro hsome (And.intro hne hchanged)),
        replay, List.foldl_cons, List.foldl_nil, applyWalletPersistEvent,
        applyAccountIdentityUpdated, Option.getD_some, lowerCase_lowerCase, row]
    rw [hreplay]
    refine h.accounts_iff.trans ?_
    refine (modify_eq_modify_iff h.accounts (key_account full)
      (key_snapshot deriveWalletSalt)).trans ?_
    have hgiven : input.identityId.or s.identityId = input.identityId :=
      or_of_given hother.1 s.identityId
    have hafter : (merge old).identityId = input.identityId :=
      hidentityOf.resolve_right fun hnot => hnot.1 hother
    have hupdated := record_update hrecord s.credentialId input.identityId s.deployedChains
    rw [hold, hs, Option.map_some, Option.map_some, Option.bind_some, Option.bind_some, hgiven,
      hupdated, hcredential, hchains, hcompare, keptCredential_eq_old]
    apply Iff.intro
    · rintro ⟨hkept, -, hnoted⟩
      refine ⟨fun hnew hne => iff_of_true ?_ hother, hnoted⟩
      exact (hkept.resolve_left (not_not.mpr hnew)).resolve_right hne
    · intro hcarried
      refine ⟨?_, hafter, hcarried.plain⟩
      by_cases hnew : otherCredential
      · exact .inr (.inl ((hcarried.credentialId hnew.1 hnew.2).mpr hother))
      · rcases not_and_or.mp hnew with hnot | heq
        · exact .inl hnot
        · exact .inr (.inr (not_not.mp heq))
  · have hafter : (merge old).identityId = old.identityId := by
      rcases hidentityOf with heq | ⟨-, heq⟩
      · by_cases hgiven : Given input.identityId
        · have hsame : input.identityId = old.identityId := by
            by_contra hne
            exact hother ⟨hgiven, hne⟩
          exact heq.trans hsame
        · exact orElse_or_of_not_given hgiven
      · exact heq
    have hnot : ¬ (input.identityId ≠ none ∧ input.identityId ≠ some "" ∧
        input.identityId ≠ old.identityId) := fun hall => hother ⟨⟨hall.1, hall.2.1⟩, hall.2.2⟩
    by_cases hnew : otherCredential
    · have hreplay : replay applyWalletPersistEvent state (upsertWalletAccount db ts input).2 =
          { state with
            accounts := state.accounts.modify row.address
              (fun account => { account with
                credentialId := input.credentialId.or account.credentialId }) fun _ => rfl } := by
        obtain ⟨⟨hsome, hne⟩, hchanged⟩ := hnew
        simp only [upsertWalletAccount, hold, if_neg hnot,
          if_pos (And.intro hsome (And.intro hne hchanged)), replay, List.foldl_cons,
          List.foldl_nil, applyWalletPersistEvent, applyAccountCredentialUpdated,
          Option.getD_some, lowerCase_lowerCase, row]
      rw [hreplay]
      refine h.accounts_iff.trans ?_
      refine (modify_eq_modify_iff h.accounts (key_account full)
        (key_snapshot deriveWalletSalt)).trans ?_
      have hgiven : input.credentialId.or s.credentialId = input.credentialId :=
        or_of_given hnew.1 s.credentialId
      have hupdated := record_update hrecord input.credentialId s.identityId s.deployedChains
      rw [hold, hs, Option.map_some, Option.map_some, Option.bind_some, Option.bind_some, hgiven,
        hupdated, hidentity, hchains, hcompare, keptCredential_eq_new]
      apply Iff.intro
      · rintro ⟨hkept, -, hnoted⟩
        refine ⟨fun _ _ => iff_of_false ?_ hother, hnoted⟩
        exact (hkept.resolve_left (Ne.symm hnew.2)).2
      · intro hcarried
        refine ⟨.inr ⟨hnew.1, fun hgiven => ?_⟩, hafter, hcarried.plain⟩
        exact hother ((hcarried.credentialId hnew.1 hnew.2).mp hgiven)
    · have hnone : (upsertWalletAccount db ts input).2 = [] := by
        have hnot' : ¬ (input.credentialId ≠ none ∧ input.credentialId ≠ some "" ∧
            input.credentialId ≠ old.credentialId) :=
          fun hall => hnew ⟨⟨hall.1, hall.2.1⟩, hall.2.2⟩
        simp only [upsertWalletAccount, hold, if_neg hnot, if_neg hnot']
      rw [hnone]
      refine h.accounts_iff.trans ?_
      refine (modify_eq_iff h.accounts (key_account full)).trans ?_
      rw [hold, Option.map_some, Option.bind_some, Option.bind_some, eq_comm]
      refine (hcompare old.credentialId old.identityId).trans ?_
      rw [keptCredential_eq_old]
      apply Iff.intro
      · rintro ⟨-, -, hnoted⟩
        exact ⟨fun hgiven hne => absurd ⟨hgiven, hne⟩ hnew, hnoted⟩
      · intro hcarried
        refine ⟨?_, hafter, hcarried.plain⟩
        rcases not_and_or.mp hnew with hnot | heq
        · exact .inl hnot
        · exact .inr (.inr (not_not.mp heq))

theorem agree_upsertWalletAccount (h : Agree deriveWalletSalt full db state) (hs : Sound state)
    (ts : Time) (input : UpsertWalletAccount) :
    Agree deriveWalletSalt full (upsertWalletAccount db ts input).1
        (replay applyWalletPersistEvent state (upsertWalletAccount db ts input).2) ↔
      (db.accounts.find? (lowerCase input.address) = none →
        NewAccountCarried deriveWalletSalt full input) ∧
      ∀ old ∈ db.accounts.find? (lowerCase input.address), AccountCarried full input old := by
  cases hold : db.accounts.find? (lowerCase input.address) with
  | none => simp [agree_new_account h hs ts input hold]
  | some old => simp [agree_existing_account h ts input hold]

theorem agree_markWalletDeployed (h : Agree deriveWalletSalt full db state) (ts : Time)
    (address chainId : String) :
    Agree deriveWalletSalt full (markWalletDeployed db ts address chainId).1
        (replay applyWalletPersistEvent state (markWalletDeployed db ts address chainId).2) ↔
      (chainId = "" → ∀ account ∈ db.accounts.find? (lowerCase address),
        chainId ∈ account.deployedChains) := by
  unfold markWalletDeployed
  cases hold : db.accounts.find? (lowerCase address) with
  | none => exact iff_of_true h (by simp)
  | some old =>
    dsimp only
    split
    · next hmem =>
      refine iff_of_true h fun _ account haccount => ?_
      cases haccount
      exact hmem
    · next hnew =>
      obtain ⟨s, hs, hrecord⟩ := snapshot_of_account h hold
      obtain ⟨hcredential, hidentity, hchains, -⟩ := fields_of_record hrecord
      have hreplay : replay applyWalletPersistEvent state [⟨ts, .accountDeployed, {
          address := some (lowerCase address), chainId := some chainId }⟩] =
          { state with
            accounts := state.accounts.modify (lowerCase address)
              (fun account => { account with
                deployedChains := withChain chainId account.deployedChains })
              fun _ => rfl } := by
        simp only [replay, List.foldl_cons, List.foldl_nil, applyWalletPersistEvent,
          applyAccountDeployed, Option.getD_some, lowerCase_lowerCase]
      rw [hreplay]
      refine h.accounts_iff.trans ?_
      refine (modify_eq_modify_iff h.accounts (key_account full)
        (key_snapshot deriveWalletSalt)).trans ?_
      have hupdated := record_update hrecord s.credentialId s.identityId
        (withChain chainId s.deployedChains)
      rw [hold, hs, Option.map_some, Option.map_some, Option.bind_some, Option.bind_some, hupdated,
        hcredential, hidentity, hchains]
      by_cases hempty : chainId = ""
      · simp [WalletAccount.record, withChain, hempty, hempty ▸ hnew]
      · simp [WalletAccount.record, withChain, hempty, hnew]

theorem agree_setWalletAccountLabel (h : Agree deriveWalletSalt full db state)
    (address label : String) :
    Agree deriveWalletSalt full (setWalletAccountLabel db address label).1
        (replay applyWalletPersistEvent state (setWalletAccountLabel db address label).2) ↔
      (full = true → givenLabel label ≠ "" → db.accounts.find? (lowerCase address) = none) := by
  unfold setWalletAccountLabel
  dsimp only
  split
  · next hempty => exact iff_of_true h fun _ hne => absurd hempty hne
  · next hne =>
    refine h.accounts_iff.trans ?_
    refine (modify_eq_iff h.accounts (key_account full)).trans ?_
    cases hold : db.accounts.find? (lowerCase address) with
    | none => simp
    | some old =>
      obtain ⟨s, hs, hrecord⟩ := snapshot_of_account h hold
      obtain ⟨-, -, -, hplain⟩ := fields_of_record hrecord
      cases full with
      | false => simp [WalletAccount.record]
      | true =>
        have hlabel : old.label = none := (hplain rfl).2
        simp [WalletAccount.record, hlabel, hne]

end OnchainInvoice.WalletLog
