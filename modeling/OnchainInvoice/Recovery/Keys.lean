import OnchainInvoice.Recovery.LifeCycle

/-!
# The keys on record

A wallet's keys are in its account, its devices and the methods of its identity.  No route takes one
off the records but the deletion of a device.
-/

namespace OnchainInvoice.Recovery

open Lib.Revert Lib.Tables Server WalletLog

variable {env : Env} {s : RecoveryServer} {call : Call} {db db' : RecoveryDb}
  {a b c : WalletDb} {now ts : Time}

/-- Every key that is on record before is on record afterwards. -/
structure KeysStay (a b : WalletDb) : Prop where
  account : ∀ w x, a.accounts.find? w = some x → ∃ y, b.accounts.find? w = some y ∧
    y.ownerQx = x.ownerQx ∧ y.ownerQy = x.ownerQy ∧ y.identityId = x.identityId
  device : ∀ x ∈ a.devices.rows, ∃ y ∈ b.devices.rows, y.key = x.key
  method : ∀ x ∈ a.methods.rows, ∃ y ∈ b.methods.rows,
    y.identityId = x.identityId ∧ y.qx = x.qx ∧ y.qy = x.qy

theorem keysStay_of_eq (haccounts : b.accounts = a.accounts) (hdevices : b.devices = a.devices)
    (hmethods : b.methods = a.methods) : KeysStay a b where
  account _ x hx := ⟨x, haccounts ▸ hx, rfl, rfl, rfl⟩
  device x hx := ⟨x, hdevices ▸ hx, rfl⟩
  method x hx := ⟨x, hmethods ▸ hx, rfl, rfl, rfl⟩

theorem KeysStay.refl (a : WalletDb) : KeysStay a a := keysStay_of_eq rfl rfl rfl

theorem KeysStay.trans (h : KeysStay a b) (h' : KeysStay b c) : KeysStay a c where
  account w x hx := by
    obtain ⟨y, hy, hqx, hqy, hid⟩ := h.account w x hx
    obtain ⟨z, hz, hqx', hqy', hid'⟩ := h'.account w y hy
    exact ⟨z, hz, hqx'.trans hqx, hqy'.trans hqy, hid'.trans hid⟩
  device x hx := by
    obtain ⟨y, hy, hkey⟩ := h.device x hx
    obtain ⟨z, hz, hkey'⟩ := h'.device y hy
    exact ⟨z, hz, hkey'.trans hkey⟩
  method x hx := by
    obtain ⟨y, hy, hid, hqx, hqy⟩ := h.method x hx
    obtain ⟨z, hz, hid', hqx', hqy'⟩ := h'.method y hy
    exact ⟨z, hz, hid'.trans hid, hqx'.trans hqx, hqy'.trans hqy⟩

theorem KeysStay.registered {walletAddress qx qy : String} (h : KeysStay a b)
    (hregistered : Registered a walletAddress qx qy) : Registered b walletAddress qx qy := by
  rcases hregistered with ⟨x, hx, hqx, hqy⟩ | ⟨x, hx, hwallet, hqx, hqy⟩ |
    ⟨x, hx, method, hmethod, hof, hqx, hqy⟩
  · obtain ⟨y, hy, hqx', hqy', -⟩ := h.account _ x hx
    exact .inl ⟨y, hy, hqx'.trans hqx, hqy'.trans hqy⟩
  · obtain ⟨y, hy, hkey⟩ := h.device x hx
    simp only [WalletDevice.key, Prod.mk.injEq] at hkey
    obtain ⟨hwallet', -, hqx', hqy'⟩ := hkey
    exact .inr (.inl ⟨y, hy, hwallet'.trans hwallet, hqx'.trans hqx, hqy'.trans hqy⟩)
  · obtain ⟨y, hy, -, -, hid⟩ := h.account _ x hx
    obtain ⟨method', hmethod', hid', hqx', hqy'⟩ := h.method method hmethod
    exact .inr (.inr ⟨y, hy, method', hmethod', by rw [hid, hof, hid'], hqx'.trans hqx,
      hqy'.trans hqy⟩)

/-! ## Writes -/

/-- A row that is inserted or updated leaves a row for every row. -/
theorem exists_of_upsert {ρ κ : Type} {key : ρ → κ} [DecidableEq κ] {t : Table ρ κ key} {r : ρ}
    {merge : ρ → ρ} {hmerge : ∀ old, key (merge old) = key old} {x : ρ} (hx : x ∈ t.rows) :
    x ∈ (t.upsert r merge hmerge).rows ∨ merge x ∈ (t.upsert r merge hmerge).rows := by
  have hfound := Table.find?_of_mem hx
  have hafter : (t.upsert r merge hmerge).find? (key x) =
      if key x = key r then some (((t.find? (key x)).map merge).getD r) else t.find? (key x) :=
    Table.find?_upsert
  rw [hfound, Option.map_some, Option.getD_some] at hafter
  split at hafter
  · exact .inr (Table.mem_of_find? hafter)
  · exact .inl (Table.mem_of_find? hafter)

theorem keysStay_upsertDevice (ts : Time) (device : WalletDevice) :
    KeysStay a (upsertWalletDevice a ts device).1 where
  account _ x hx := ⟨x, hx, rfl, rfl, rfl⟩
  device x hx := by
    rcases exists_of_upsert hx with h | h
    · exact ⟨x, h, rfl⟩
    · exact ⟨_, h, rfl⟩
  method x hx := ⟨x, hx, rfl, rfl, rfl⟩

theorem keysStay_insertMethod (now ts : Time) (method : IdentityMethod) :
    KeysStay a (insertIdentityMethod a now ts method).1 where
  account _ x hx := ⟨x, hx, rfl, rfl, rfl⟩
  device x hx := ⟨x, hx, rfl⟩
  method x hx := by
    rcases exists_of_upsert hx with h | h
    · exact ⟨x, h, rfl, rfl, rfl⟩
    · exact ⟨_, h, rfl, rfl, rfl⟩

theorem orElse_self (x : Option String) : orElse x x = x := by
  unfold orElse
  rcases x with _ | x
  · rfl
  · by_cases hx : x = ""
    · rw [hx]
      rfl
    · rw [Option.filter_some, decide_eq_true hx, if_pos rfl, Option.some_or]

-- An account that is there keeps its owner and its identity where none is given.
theorem keysStay_upsertAccount (ts : Time) {row : UpsertWalletAccount} (hid : row.identityId = none) :
    KeysStay a (upsertWalletAccount a ts row).1 where
  account w x hx := by
    unfold upsertWalletAccount
    dsimp only
    rw [Table.find?_upsert, hx]
    split
    next hw =>
      dsimp only at hw
      subst hw
      refine ⟨_, rfl, rfl, rfl, ?_⟩
      rw [hx, hid]
      exact orElse_self x.identityId
    · exact ⟨x, rfl, rfl, rfl, rfl⟩
  device x hx := ⟨x, hx, rfl⟩
  method x hx := ⟨x, hx, rfl, rfl, rfl⟩

theorem keysStay_markDeployed (ts : Time) (address chainId : String) :
    KeysStay a (markWalletDeployed a ts address chainId).1 := by
  unfold markWalletDeployed
  split
  · exact .refl a
  · split
    · exact .refl a
    · refine ⟨fun w x hx => ?_, fun x hx => ⟨x, hx, rfl⟩, fun x hx => ⟨x, hx, rfl, rfl, rfl⟩⟩
      dsimp only
      rw [Table.find?_modify, hx]
      split
      · exact ⟨_, rfl, rfl, rfl, rfl⟩
      · exact ⟨x, rfl, rfl, rfl, rfl⟩

theorem keysStay_markEmail (walletAddress email : String) :
    KeysStay a (markWalletEmailVerified a now ts walletAddress email).1 := by
  unfold markWalletEmailVerified
  dsimp only
  split
  · exact keysStay_of_eq rfl rfl rfl
  · exact keysStay_of_eq rfl rfl rfl

/-! ## Routes -/

theorem keysStay_recovered {input : Input} {onChainOwners : List Coords} {c : RecoverChecked} :
    KeysStay db.wallets (recoveredWallets env db input onChainOwners c) := by
  unfold recoveredWallets
  dsimp only
  refine KeysStay.trans ?_ (keysStay_upsertDevice input.now _)
  split
  · exact (keysStay_upsertAccount input.now rfl).trans (keysStay_markDeployed input.now _ _)
  · exact keysStay_upsertAccount input.now rfl

theorem keysStay_created {address : String} {key : NewKey} {input : Input}
    {attestation : Option String} :
    KeysStay db.wallets (createdWallets env db address key input attestation) :=
  (keysStay_upsertAccount input.now rfl).trans (keysStay_upsertDevice input.now _)

theorem keysStay_indexRestored {request : Request} :
    KeysStay db.wallets (indexRestoredIdentityMethod env db request now).wallets := by
  unfold indexRestoredIdentityMethod
  split
  · exact .refl _
  · split
    · exact .refl _
    · exact keysStay_insertMethod now now _
    · split
      · exact .refl _
      · exact keysStay_insertMethod now now _

theorem keysStay_sync {jobId : String} {status : JobStatus} :
    KeysStay db.wallets (syncRequestFromJob env db jobId status now).wallets := by
  unfold syncRequestFromJob
  split
  · exact .refl _
  · split
    · exact .refl _
    · split
      · exact .refl _
      · exact keysStay_indexRestored
      · exact .refl _
      · exact .refl _

theorem upsertWalletIdentity_wallets {clientId email walletAddress : String} :
    (upsertWalletIdentity db clientId email walletAddress).wallets = db.wallets := by
  unfold upsertWalletIdentity
  dsimp only
  split <;> rfl

-- What may take keys off the records: the route that deletes a device, and what is not here.
def TakesKeys : Call → Prop
  | .deleteDevice .. | .elsewhere _ => True
  | _ => False

/-- No other step takes a key off the records. -/
theorem keysStay_next (htakes : ¬ TakesKeys call) :
    KeysStay s.db.wallets (next env s call).db.wallets := by
  have hchange := change env s call
  generalize (next env s call).db = db' at hchange ⊢
  cases hchange with
  | idle | challenged | clientChallenged | guarded | withdrawn | stopped | rejected
  | clientCancelled | signed | initiated => exact .refl _
  | codeTried =>
    obtain ⟨t, heq⟩ := consumeOtp_eq
    rw [heq]
    exact .refl _
  | codeSent hsent =>
    obtain ⟨t, rfl⟩ := createOtp_eq hsent
    exact .refl _
  | attached _ _ _ _ hleft =>
    rcases hleft with rfl | hsent
    · exact keysStay_of_eq rfl rfl rfl
    · obtain ⟨t, rfl⟩ := createOtp_eq hsent
      exact keysStay_of_eq rfl rfl rfl
  | emailVerified | requestVerified => exact keysStay_markEmail _ _
  | created _ _ _ hleft =>
    rcases hleft with rfl | hsent
    · exact .refl _
    · obtain ⟨t, rfl⟩ := createOtp_eq hsent
      exact .refl _
  | @approved _ answer => exact keysStay_upsertDevice answer.input.now _
  | @devicePosted _ now => exact keysStay_upsertDevice now _
  | @clientInitiated _ _ input => exact keysStay_upsertDevice input.now _
  | deviceDeleted | elsewhere => exact absurd trivial htakes
  | recovered => exact keysStay_recovered
  | clientCreated _ hproven =>
    obtain ⟨t, ht⟩ := provenKey_db env s.db _ _ .create _
    rw [hproven] at ht
    cases ht
    rw [upsertWalletIdentity_wallets]
    exact keysStay_created
  | claimed hclaim =>
    rw [(jobKind_claim hclaim).2.1]
    exact .refl _
  | tracked htrack =>
    rw [(jobKind_track htrack).2.1]
    exact .refl _
  | synced htrack =>
    rw [← (jobKind_track htrack).2.1]
    exact keysStay_sync

end OnchainInvoice.Recovery
