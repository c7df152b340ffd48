import OnchainInvoice.WebAuthn.Spellings

/-!
# Matching and looking up credential ids

The lookups try a list of spellings and then compare every row, so they find what the comparison
matches, as long as it matches the listed spellings.
-/

namespace OnchainInvoice.WebAuthn

open Lib.ByteTexts Lib.Tables Server WalletLog

variable {x : Bytes} {a : String} {S : Set Bytes} {db : WalletDb} {c : CredentialDb}

/-! ## The listed spellings -/

theorem urlSafe_encode (x : Bytes) (k : Nat) :
    urlSafe (encode false x ++ List.replicate k '=') = encode true x := by
  have hall : ∀ n : Fin 64, (if digit false n = '+' then '-' else if digit false n = '/' then '_'
      else digit false n) = digit true n := by decide
  have hmap : (encode false x).map (fun c => if c = '+' then '-' else if c = '/' then '_' else c) =
      encode true x := by
    unfold encode
    rw [List.map_map]
    exact List.map_congr_left fun n hn => hall ⟨n, lt_of_mem_sextets n hn⟩
  have hstop : (encode true x).reverse.dropWhile (· = '=') = (encode true x).reverse := by
    cases hreverse : (encode true x).reverse with
    | nil => rfl
    | cons c t =>
      have hmem : c ∈ encode true x := by
        rw [← List.mem_reverse, hreverse]
        exact List.mem_cons_self ..
      rcases List.mem_map.mp hmem with ⟨n, hn, rfl⟩
      rw [List.dropWhile_cons_of_neg]
      simpa using digit_ne (lt_of_mem_sextets n hn)
  have hpadding : ∀ t : Text, (List.replicate k '=' ++ t).dropWhile (· = '=') =
      t.dropWhile (· = '=') := by
    intro t
    induction k with
    | zero => rfl
    | succ k ih =>
      rw [List.replicate_succ, List.cons_append, List.dropWhile_cons_of_pos (by decide), ih]
  unfold urlSafe
  rw [List.map_append, hmap, List.map_replicate]
  dsimp only
  rw [List.reverse_append, List.reverse_replicate]
  show ((List.replicate k '=' ++ _).dropWhile _).reverse = _
  rw [hpadding, hstop, List.reverse_reverse]

theorem spells_of_mem_variants (ha : Spells x a) (hx : Readable x) :
    ∀ v ∈ credentialIdLookupVariants a, Spells x v := by
  unfold credentialIdLookupVariants
  rw [ha.bytes hx]
  dsimp only
  rw [if_neg (by rw [List.isEmpty_iff]; exact hx.1), ha.trim]
  intro v hv
  simp only [List.mem_eraseDups, List.mem_cons, List.not_mem_nil, or_false] at hv
  rcases hv with rfl | rfl | rfl | rfl
  · exact ha
  · exact .base64 false true
  · unfold padding
    rw [urlSafe_encode]
    simpa using Spells.base64 (x := x) true false
  · exact .hex (hex_hex x)

-- Every listed spelling matches.
def VariantsMatch (a : String) : Prop :=
  ∀ v ∈ credentialIdLookupVariants a, credentialIdsMatch (some v) (some a) = true

theorem variantsMatch (ha : Spells x a) (hx : Readable x) : VariantsMatch a := fun v hv =>
  ((spells_of_mem_variants ha hx v hv).matches_iff_eq ha hx hx).mpr rfl

theorem hasCredential_of_matches {stored : Option String}
    (h : credentialIdsMatch stored (some a) = true) : hasCredential stored = true := by
  cases stored with
  | none => cases h
  | some b =>
    apply decide_eq_true
    rintro rfl
    unfold credentialIdsMatch at h
    dsimp only at h
    rw [if_pos (.inl (by decide))] at h
    cases h

/-! ## What is found -/

-- A row that matches, or nothing when no row does.
def MethodFound (db : WalletDb) (a : String) : Prop :=
  (∃ m ∈ db.methods.rows, credentialIdsMatch m.credentialId (some a) = true ∧
      getIdentityMethodByCredentialId db a = some m) ∨
    (∀ m ∈ db.methods.rows, credentialIdsMatch m.credentialId (some a) = false) ∧
      getIdentityMethodByCredentialId db a = none

-- A row of an account or of a device, and the account that it leads to.
structure CredentialRow where
  credentialId : Option String
  account : Option WalletAccount

def credentialRows (c : CredentialDb) : List CredentialRow :=
  (c.db.accounts.rows.map fun account => ⟨account.credentialId, some account⟩) ++
    c.db.devices.rows.map fun device =>
      ⟨device.credentialId, getWalletAccount c device.walletAddress⟩

-- The account of a row that matches, or when no row does a wallet of the method that is found.
def AccountFound (c : CredentialDb) (a : String) : Prop :=
  (∃ row ∈ credentialRows c, credentialIdsMatch row.credentialId (some a) = true ∧
      getWalletAccountByCredentialId c a = row.account) ∨
    (∀ row ∈ credentialRows c, credentialIdsMatch row.credentialId (some a) = false) ∧
      getWalletAccountByCredentialId c a =
        (getIdentityMethodByCredentialId c.db a).bind fun method =>
          (listWalletAccountsByIdentityId c method.identityId).head?

theorem methodFound (hv : VariantsMatch a) : MethodFound db a := by
  unfold MethodFound getIdentityMethodByCredentialId
  dsimp only
  cases hexact : (credentialIdLookupVariants a).findSome? fun id =>
      db.methods.rows.find? fun method => method.credentialId = some id with
  | some m =>
    rcases List.exists_of_findSome?_eq_some hexact with ⟨v, hmem, hfind⟩
    have hfound := List.find?_some hfind
    have hid := of_decide_eq_true hfound
    exact .inl ⟨m, List.mem_of_find?_eq_some hfind, hid ▸ hv v hmem, rfl⟩
  | none =>
    dsimp only
    cases hfind : (db.methods.rows.filter fun method => hasCredential method.credentialId).find?
        fun method => credentialIdsMatch method.credentialId (some a) with
    | some m =>
      have hmem := (List.mem_filter.mp (List.mem_of_find?_eq_some hfind)).1
      have hmatch := List.find?_some hfind
      exact .inl ⟨m, hmem, hmatch, rfl⟩
    | none =>
      refine .inr ⟨fun m hm => ?_, rfl⟩
      by_contra hmatch
      rw [Bool.not_eq_false] at hmatch
      exact List.find?_eq_none.mp hfind m
        (List.mem_filter.mpr ⟨hm, hasCredential_of_matches hmatch⟩) hmatch

theorem mem_credentialRows_account {account : WalletAccount} (h : account ∈ c.db.accounts.rows) :
    ⟨account.credentialId, some account⟩ ∈ credentialRows c :=
  List.mem_append_left _ (List.mem_map.mpr ⟨account, h, rfl⟩)

theorem mem_credentialRows_device {device : WalletDevice} (h : device ∈ c.db.devices.rows) :
    ⟨device.credentialId, getWalletAccount c device.walletAddress⟩ ∈ credentialRows c :=
  List.mem_append_right _ (List.mem_map.mpr ⟨device, h, rfl⟩)

theorem accountFound (hv : VariantsMatch a) : AccountFound c a := by
  unfold AccountFound getWalletAccountByCredentialId
  dsimp only
  cases hbyAccount : (credentialIdLookupVariants a).findSome? fun id =>
      c.db.accounts.rows.find? fun account => account.credentialId = some id with
  | some account =>
    rcases List.exists_of_findSome?_eq_some hbyAccount with ⟨v, hmem, hfind⟩
    have hfound := List.find?_some hfind
    have hid := of_decide_eq_true hfound
    exact .inl ⟨_, mem_credentialRows_account (List.mem_of_find?_eq_some hfind),
      hid ▸ hv v hmem, rfl⟩
  | none =>
  dsimp only
  cases hbyDevice : (credentialIdLookupVariants a).findSome? fun id =>
      (devicesByCredentialId c id).head? with
  | some device =>
    rcases List.exists_of_findSome?_eq_some hbyDevice with ⟨v, hmem, hhead⟩
    have hdevice := List.mem_of_mem_head? hhead
    unfold devicesByCredentialId at hdevice
    rw [List.mem_mergeSort, List.mem_filter, decide_eq_true_iff] at hdevice
    exact .inl ⟨_, mem_credentialRows_device hdevice.1, hdevice.2 ▸ hv v hmem, rfl⟩
  | none =>
  dsimp only
  cases haccountRow : (c.db.accounts.rows.filter fun account =>
      hasCredential account.credentialId).find?
        fun account => credentialIdsMatch account.credentialId (some a) with
  | some account =>
    have hmem := (List.mem_filter.mp (List.mem_of_find?_eq_some haccountRow)).1
    have hmatch := List.find?_some haccountRow
    exact .inl ⟨_, mem_credentialRows_account hmem, hmatch, rfl⟩
  | none =>
  dsimp only
  cases hdeviceRow : (c.db.devices.rows.filter fun device =>
      hasCredential device.credentialId).find?
        fun device => credentialIdsMatch device.credentialId (some a) with
  | some device =>
    have hmem := (List.mem_filter.mp (List.mem_of_find?_eq_some hdeviceRow)).1
    have hmatch := List.find?_some hdeviceRow
    exact .inl ⟨_, mem_credentialRows_device hmem, hmatch, rfl⟩
  | none =>
  refine .inr ⟨fun row hrow => ?_, ?_⟩
  · by_contra hmatch
    rw [Bool.not_eq_false] at hmatch
    rcases List.mem_append.mp hrow with hrow | hrow
    · rcases List.mem_map.mp hrow with ⟨account, hmem, rfl⟩
      exact List.find?_eq_none.mp haccountRow account
        (List.mem_filter.mpr ⟨hmem, hasCredential_of_matches hmatch⟩) hmatch
    · rcases List.mem_map.mp hrow with ⟨device, hmem, rfl⟩
      exact List.find?_eq_none.mp hdeviceRow device
        (List.mem_filter.mpr ⟨hmem, hasCredential_of_matches hmatch⟩) hmatch
  · cases getIdentityMethodByCredentialId c.db a <;> rfl

/-! ## Credentials in use -/

-- The comparison, on the spellings of the credentials in use, and the lookups in any database.
structure Exact (S : Set Bytes) : Prop where
  comparison : ∀ x ∈ S, ∀ y ∈ S, ∀ a b, Spells x a → Spells y b →
    (credentialIdsMatch (some a) (some b) = true ↔ x = y)
  equivalence : Equivalence fun a b : {a : String // ∃ x ∈ S, Spells x a} =>
    credentialIdsMatch (some a.1) (some b.1) = true
  lookups : ∀ x ∈ S, ∀ a, Spells x a → (∀ db, MethodFound db a) ∧ ∀ c, AccountFound c a

/-- The comparison tells the credentials in use apart and the lookups follow it just when all of them
are readable. -/
theorem credentials_exact_iff (S : Set Bytes) : Exact S ↔ ∀ x ∈ S, Readable x := by
  apply Iff.intro
  · intro h x hx
    apply readable_of_matches
    intro a b ha hb
    exact (h.comparison x hx x hx a b ha hb).mpr rfl
  · intro h
    have hcomparison : ∀ x ∈ S, ∀ y ∈ S, ∀ a b, Spells x a → Spells y b →
        (credentialIdsMatch (some a) (some b) = true ↔ x = y) :=
      fun x hx y hy a b ha hb => ha.matches_iff_eq hb (h x hx) (h y hy)
    constructor
    case comparison => exact hcomparison
    case equivalence =>
      constructor
      · rintro ⟨a, x, hx, ha⟩
        exact (hcomparison x hx x hx a a ha ha).mpr rfl
      · rintro ⟨a, x, hx, ha⟩ ⟨b, y, hy, hb⟩ hab
        have heq := (hcomparison x hx y hy a b ha hb).mp hab
        exact (hcomparison y hy x hx b a hb ha).mpr heq.symm
      · rintro ⟨a, x, hx, ha⟩ ⟨b, y, hy, hb⟩ ⟨d, z, hz, hd⟩ hab hbd
        have heq := (hcomparison x hx y hy a b ha hb).mp hab
        have heq' := (hcomparison y hy z hz b d hb hd).mp hbd
        exact (hcomparison x hx z hz a d ha hd).mpr (heq.trans heq')
    case lookups =>
      intro x hx a ha
      have hv := variantsMatch ha (h x hx)
      exact ⟨fun _ => methodFound hv, fun _ => accountFound hv⟩

-- The base64 text of these bytes is `0xab`, which is read as the single byte `ab`.
theorem hex_spelling_lost :
    ¬∀ x y : Bytes, ∀ a b, Spells x a → Spells y b →
      (credentialIdsMatch (some a) (some b) = true ↔ x = y) := by
  intro h
  have htext : String.ofList (encode false [0xd3, 0x16, 0x9b] ++ []) = "0xab" := by decide
  have hbase64 : Spells [0xd3, 0x16, 0x9b] "0xab" := htext ▸ .base64 false false
  have hhex : Spells [0xd3, 0x16, 0x9b] "0xd3169b" := .hex (hex_hex [0xd3, 0x16, 0x9b])
  have hmatch := (h _ _ _ _ hbase64 hhex).mpr rfl
  revert hmatch
  decide

end OnchainInvoice.WebAuthn
