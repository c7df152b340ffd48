import OnchainInvoice.Persist.WalletViews
import OnchainInvoice.Recovery.LifeCycle

/-!
# Wallet records found again

`recoverWalletAccount` with the reads that it asks the chain for, each of which may fail.  A wallet
that is deployed and whose owners cannot be read counts as one that is not deployed.
-/

namespace OnchainInvoice.Recovery

open Lib.Revert Lib.Tables Server WalletLog

/-! ## The chain -/

structure ChainMethod where
  qx : String
  qy : String
  present : Bool

-- What the wallet's contract and its store answer; `none` where the call reverts.
structure Contract where
  identityId : Option String
  store : Option String
  methodIdsOf : String → String → Option (List String)
  getMethod : String → String → Option ChainMethod
  ownerCount : Option Nat
  ownerAt : Nat → Option Coords

-- The wallet on the chain that its owners are looked up on.
structure OnChainWallet where
  code : String
  contract : Contract

inductive Read
  | getCode | identityId | store | methodIdsOf
  | getMethod (methodId : String)
  | ownerCount
  | ownerAt (i : Nat)

variable (chain : OnChainWallet) (fails : Read → Bool)

-- The node answers what the contract does, unless it fails to.
def answered {α : Type} (read : Read) (answer : Option α) : Option α :=
  if fails read then none else answer

/-! ## The owners that are read -/

-- The owners so far, and whether every method could be read.
def readMethods (store : String) : List String → List Coords → List Coords × Bool
  | [], owners => (owners, true)
  | methodId :: methodIds, owners =>
    match answered fails (.getMethod methodId) (chain.contract.getMethod store methodId) with
    | none => (owners, false)
    | some method => readMethods store methodIds
      (if method.present then pushOwnerCandidate owners (method.qx, method.qy) else owners)

def ZeroHash : String := ZERO_PUBKEY

def identityMethods : List Coords × Bool :=
  match (answered fails .identityId chain.contract.identityId).filter fun identityId =>
    identityId ≠ "" ∧ identityId ≠ ZeroHash with
  | none => ([], false)
  | some identityId =>
    match answered fails .store chain.contract.store with
    | none => ([], false)
    | some store =>
      match answered fails .methodIdsOf (chain.contract.methodIdsOf store identityId) with
      | none => ([], false)
      | some methodIds => readMethods chain fails store methodIds []

-- The loop over the owners ends at the first that cannot be read.
def readOwners : List Nat → List Coords → List Coords
  | [], owners => owners
  | i :: rest, owners =>
    match answered fails (.ownerAt i) (chain.contract.ownerAt i) with
    | none => owners
    | some owner => readOwners rest (pushOwnerCandidate owners owner)

-- `none` if it throws; without a node there is nothing to read.
def readWalletOwnersOnChain (node : Option (Read → Bool)) : Option (List Coords) :=
  match node with
  | none => some []
  | some fails =>
    match answered fails .getCode (some chain.code) with
    | none => none
    | some code =>
      if code = "0x" then some []
      else
        match identityMethods chain fails with
        | (owners, true) => some owners
        | (owners, false) =>
          match answered fails .ownerCount chain.contract.ownerCount with
          | none => some owners
          | some count => some (readOwners chain fails (List.range count) owners)

def recoverRoute (env : Env) (db : RecoveryDb) (input : Input) (node : Option (Read → Bool)) : Reply :=
  match readWalletOwnersOnChain chain node with
  | none => refuse db 500 "Internal server error"
  | some onChainOwners => recoverWalletAccount env db input onChainOwners

/-! ## Whom a record may be restored to -/

def OnChainWallet.deployed : Prop := chain.code ≠ "0x"

def HasMethod (c : Contract) (key : Coords) : Prop :=
  ∃ identityId store methodIds methodId method, c.identityId = some identityId ∧
    identityId ≠ "" ∧ identityId ≠ ZeroHash ∧ c.store = some store ∧
    c.methodIdsOf store identityId = some methodIds ∧ methodId ∈ methodIds ∧
    c.getMethod store methodId = some method ∧ method.present ∧
    normalizeHex32 (some method.qx) = some key.1 ∧ normalizeHex32 (some method.qy) = some key.2

def HasOwner (c : Contract) (key : Coords) : Prop :=
  ∃ count i owner, c.ownerCount = some count ∧ i < count ∧ c.ownerAt i = some owner ∧
    normalizeHex32 (some owner.1) = some key.1 ∧ normalizeHex32 (some owner.2) = some key.2

/-- The key is an owner or a method of the wallet. -/
def Current (key : Coords) : Prop := HasMethod chain.contract key ∨ HasOwner chain.contract key

/-- The wallet's address is derived from the key. -/
def Derives (env : Env) (walletAddress : String) (key : Coords) : Prop :=
  ∃ factoryAddress implementationAddress, env.factoryAddress = some factoryAddress ∧
    env.implementationAddress = some implementationAddress ∧
    lowerCase (env.predictWalletAddress factoryAddress implementationAddress
      (env.deriveWalletSalt key.1 key.2)) = lowerCase walletAddress

/-- The assertion verifies under the key, over a challenge that is there and neither used nor
expired. -/
def SignsRecord (env : Env) (db : RecoveryDb) (input : Input) (key : Coords) : Prop :=
  ∃ challengeId challenge db' a, str (input.body "challengeId") = some challengeId ∧
    consumeHostedRecoveryChallenge db input.now challengeId .record = some (challenge, db') ∧
    input.assertion = some a ∧
    Verifies env a ⟨challenge, env.rpId, if "*" ∈ env.corsOrigins then [] else env.corsOrigins,
      key.1, key.2⟩

/-- The route goes on to restore the wallet's record to the key. -/
def Restores (env : Env) (db : RecoveryDb) (input : Input) (node : Option (Read → Bool))
    (walletAddress : String) (key : Coords) : Prop :=
  ∃ onChainOwners c, readWalletOwnersOnChain chain node = some onChainOwners ∧
    checkRecoverAccount env db input onChainOwners = .ok c ∧ c.walletAddress = walletAddress ∧
    c.owner = key

/-- Every account is still there with its owner, and is as it was unless it is the one at
`address`. -/
def KeepsOwners (address : String) (t t' : Table WalletAccount String WalletAccount.address) : Prop :=
  ∀ k account, t.find? k = some account → ∃ account', t'.find? k = some account' ∧
    account'.ownerQx = account.ownerQx ∧ account'.ownerQy = account.ownerQy ∧
    (k ≠ address → account' = account)

/-- The record after the key was restored: an account that is new has it as its owner, its device is
there, and nothing else has changed its owner. -/
structure RestoredTo (env : Env) (db db' : RecoveryDb) (input : Input) (walletAddress : String)
    (key : Coords) : Prop where
  account : db.wallets.accounts.find? (lowerCase walletAddress) = none →
    ∃ account, db'.wallets.accounts.find? (lowerCase walletAddress) = some account ∧
      account.ownerQx = key.1 ∧ account.ownerQy = key.2
  kept : KeepsOwners (lowerCase walletAddress) db.wallets.accounts db'.wallets.accounts
  device : ∃ device, db'.wallets.devices.find?
    (lowerCase walletAddress, (str (input.body "chainId")).getD env.chainId, key.1, key.2) =
      some device
  others : ∀ k, k ≠ (lowerCase walletAddress, (str (input.body "chainId")).getD env.chainId, key.1,
    key.2) → db'.wallets.devices.find? k = db.wallets.devices.find? k

/-- A record is restored to a key that signs and is a current one of the wallet, or the one that
its address derives from before it is deployed; otherwise its rows are left. -/
structure OnlyToOwner (env : Env) (db : RecoveryDb) (input : Input) (node : Option (Read → Bool)) :
    Prop where
  owner : ∀ walletAddress key, Restores chain env db input node walletAddress key →
    RestoredTo env db (recoverRoute chain env db input node).2 input walletAddress key ∧
    SignsRecord env db input key ∧ (chain.deployed → Current chain key) ∧
    (¬ chain.deployed → Derives env walletAddress key)
  otherwise : (¬ ∃ walletAddress key, Restores chain env db input node walletAddress key) →
    (recoverRoute chain env db input node).2.wallets = db.wallets

/-! ## When it is -/

/-- The body names the wallet and a credential. -/
def Names (env : Env) (input : Input) (walletAddress : String) : Prop :=
  ((str (input.body "walletAddress")).map lowerCase).filter (fun w => isAddress env w) =
    some walletAddress ∧ str (input.body "credentialId") ≠ none

/-- Where the wallet is deployed but none of its owners could be read, the first of the keys of the
body and of the account that signs and that the address derives from is a current one. -/
def ReadsSettle (env : Env) (db : RecoveryDb) (input : Input) (node : Option (Read → Bool)) : Prop :=
  chain.deployed → readWalletOwnersOnChain chain node = some [] →
    ∀ walletAddress pre key post, Names env input walletAddress →
      recoverCandidates db walletAddress input.body [] = pre ++ key :: post →
      SignsRecord env db input key → Derives env walletAddress key →
      (∀ k ∈ pre, ¬ (SignsRecord env db input k ∧ Derives env walletAddress k)) →
      Current chain key

/-! ## What is read -/

section Reads

variable {chain fails} {key : Coords} {owners : List Coords}

theorem normalizeHex32_lower {v : Option String} {q : String} (h : normalizeHex32 v = some q) :
    lowerCase q = q := by
  unfold normalizeHex32 at h
  rw [Option.filter_eq_some_iff, Option.map_eq_some_iff] at h
  obtain ⟨⟨w, -, hq⟩, -⟩ := h
  rw [← hq, lowerCase_lowerCase]

-- `key` is what is kept of the coordinates.
def Normal (coords key : Coords) : Prop :=
  normalizeHex32 (some coords.1) = some key.1 ∧ normalizeHex32 (some coords.2) = some key.2

theorem mem_pushOwnerCandidate {candidate : Coords}
    (h : key ∈ pushOwnerCandidate owners candidate) : key ∈ owners ∨ Normal candidate key := by
  unfold pushOwnerCandidate at h
  split at h
  · next hqx hqy =>
    split at h
    · exact .inl h
    · rcases List.mem_append.mp h with hold | hnew
      · exact .inl hold
      · rw [List.mem_singleton.mp hnew]
        exact .inr ⟨hqx, hqy⟩
  · exact .inl h

theorem mem_foldl_pushOwnerCandidate {candidates : List Coords}
    (h : key ∈ candidates.foldl pushOwnerCandidate owners) :
    key ∈ owners ∨ ∃ candidate ∈ candidates, Normal candidate key := by
  induction candidates generalizing owners with
  | nil => exact .inl h
  | cons candidate rest ih =>
    rw [List.foldl_cons] at h
    rcases ih h with hpushed | ⟨c, hc, hnormal⟩
    · rcases mem_pushOwnerCandidate hpushed with hold | hnormal
      · exact .inl hold
      · exact .inr ⟨candidate, List.mem_cons_self, hnormal⟩
    · exact .inr ⟨c, List.mem_cons_of_mem _ hc, hnormal⟩

theorem answered_eq_some {α : Type} {read : Read} {answer : Option α} {a : α}
    (h : answered fails read answer = some a) : answer = some a := by
  unfold answered at h
  split at h
  · cases h
  · exact h

theorem mem_readMethods {store : String} {methodIds : List String}
    (h : key ∈ (readMethods chain fails store methodIds owners).1) :
    key ∈ owners ∨ ∃ methodId ∈ methodIds, ∃ method,
      chain.contract.getMethod store methodId = some method ∧ method.present ∧
      Normal (method.qx, method.qy) key := by
  induction methodIds generalizing owners with
  | nil => exact .inl h
  | cons methodId rest ih =>
    unfold readMethods at h
    split at h
    · exact .inl h
    next method hanswered =>
      rcases ih h with hpushed | ⟨m, hm, hmethod⟩
      · split at hpushed
        · next hpresent =>
          rcases mem_pushOwnerCandidate hpushed with hold | hnormal
          · exact .inl hold
          · exact .inr ⟨methodId, List.mem_cons_self, method, answered_eq_some hanswered, hpresent,
              hnormal⟩
        · exact .inl hpushed
      · exact .inr ⟨m, List.mem_cons_of_mem _ hm, hmethod⟩

theorem mem_identityMethods (h : key ∈ (identityMethods chain fails).1) :
    HasMethod chain.contract key ∧ ∃ coords, Normal coords key := by
  unfold identityMethods at h
  split at h
  · cases h
  next identityId hidentity =>
    split at h
    · cases h
    next store hstore =>
      split at h
      · cases h
      next methodIds hmethods =>
        obtain ⟨hid, hnonzero⟩ := Option.filter_eq_some_iff.mp hidentity
        rw [decide_eq_true_eq] at hnonzero
        rcases mem_readMethods h with hnone | ⟨methodId, hmem, method, hmethod, hpresent, hnormal⟩
        · cases hnone
        · exact ⟨⟨identityId, store, methodIds, methodId, method, answered_eq_some hid, hnonzero.1,
            hnonzero.2, answered_eq_some hstore, answered_eq_some hmethods, hmem, hmethod, hpresent,
            hnormal.1, hnormal.2⟩, _, hnormal⟩

theorem mem_readOwners {is : List Nat} (h : key ∈ readOwners chain fails is owners) :
    key ∈ owners ∨ ∃ i ∈ is, ∃ owner, chain.contract.ownerAt i = some owner ∧ Normal owner key := by
  induction is generalizing owners with
  | nil => exact .inl h
  | cons i rest ih =>
    unfold readOwners at h
    split at h
    · exact .inl h
    next owner hanswered =>
      rcases ih h with hpushed | ⟨j, hj, howner⟩
      · rcases mem_pushOwnerCandidate hpushed with hold | hnormal
        · exact .inl hold
        · exact .inr ⟨i, List.mem_cons_self, owner, answered_eq_some hanswered, hnormal⟩
      · exact .inr ⟨j, List.mem_cons_of_mem _ hj, howner⟩

/-- Whatever fails, the owners that are read are owners or methods of a deployed wallet. -/
theorem mem_readWalletOwnersOnChain {node : Option (Read → Bool)}
    (h : readWalletOwnersOnChain chain node = some owners) (hkey : key ∈ owners) :
    chain.deployed ∧ Current chain key ∧ ∃ coords, Normal coords key := by
  unfold readWalletOwnersOnChain at h
  split at h
  · cases h
    cases hkey
  · split at h
    · cases h
    next fails _ code hcode =>
      cases answered_eq_some hcode
      split at h
      · cases h
        cases hkey
      next hdeployed =>
        have hidentity : ∀ read done, identityMethods chain fails = (read, done) → key ∈ read →
            Current chain key ∧ ∃ coords, Normal coords key := by
          intro read done hread hmem
          obtain ⟨hmethod, hnormal⟩ := mem_identityMethods (by rw [hread]; exact hmem)
          exact ⟨.inl hmethod, hnormal⟩
        refine ⟨hdeployed, ?_⟩
        split at h
        · next hread =>
          cases h
          exact hidentity _ _ hread hkey
        next read hread =>
          split at h
          · cases h
            exact hidentity _ _ hread hkey
          next count hcount =>
            cases h
            rcases mem_readOwners hkey with hold | ⟨i, hi, owner, howner, hnormal⟩
            · exact hidentity _ _ hread hold
            · exact ⟨.inr ⟨count, i, owner, answered_eq_some hcount, List.mem_range.mp hi, howner,
                hnormal.1, hnormal.2⟩, owner, hnormal⟩

end Reads

/-! ## What is checked -/

section Checks

variable {chain} {env : Env} {db : RecoveryDb} {input : Input} {node : Option (Read → Bool)}
  {onChainOwners : List Coords} {c : RecoverChecked} {walletAddress : String} {key : Coords}

-- What the route calls with every candidate.
def verifyOwner (env : Env) (a : Assertion) (challenge : String) (key : Coords) : Bool :=
  (verifyWebAuthnAssertion env a ⟨challenge, env.rpId,
    if "*" ∈ env.corsOrigins then [] else env.corsOrigins, key.1, key.2⟩).isOk

theorem isOk_iff {ε : Type} {x : Except ε Unit} : x.isOk = true ↔ x = .ok () := by
  cases x with
  | error e => simp [Except.isOk, Except.toBool]
  | ok u => simp [Except.isOk, Except.toBool]

theorem checkRecover_eq_ok : checkRecoverAccount env db input onChainOwners = .ok c ↔
    ∃ a db' factoryAddress implementationAddress,
      ((str (input.body "walletAddress")).map lowerCase).filter (fun w => isAddress env w) =
        some c.walletAddress ∧
      str (input.body "credentialId") = some c.credentialId ∧
      str (input.body "challengeId") = some c.challengeId ∧ input.assertion = some a ∧
      consumeHostedRecoveryChallenge db input.now c.challengeId .record =
        some (c.challenge, db') ∧
      env.factoryAddress = some factoryAddress ∧
      env.implementationAddress = some implementationAddress ∧
      matchRecoveredWalletOwner env c.walletAddress factoryAddress implementationAddress
        (recoverCandidates db c.walletAddress input.body onChainOwners) onChainOwners
        (verifyOwner env a c.challenge) = some c.owner := by
  unfold checkRecoverAccount
  simp only [bind_eq_ok, revertIf_eq_ok, orRevert_eq_ok, pure_eq_ok, decide_eq_false_iff_not]
  apply Iff.intro
  · rintro ⟨w, hw, credentialId, hcredential, challengeId, hchallengeId, a, ha, ch, hconsumed, u,
      hcandidates, f, hf, i, hi, owner, howner, rfl⟩
    exact ⟨a, ch.2, f, i, hw, hcredential, hchallengeId, ha, hconsumed, hf, hi, howner⟩
  · rintro ⟨a, db', f, i, hw, hcredential, hchallengeId, ha, hconsumed, hf, hi, howner⟩
    refine ⟨c.walletAddress, hw, c.credentialId, hcredential, c.challengeId, hchallengeId, a, ha,
      (c.challenge, db'), hconsumed, (), fun hempty => ?_, f, hf, i, hi, c.owner, howner, rfl⟩
    rw [hempty] at howner
    cases howner

theorem verifyOwner_iff {a : Assertion} {challengeId challenge : String} {db' : RecoveryDb}
    (hchallengeId : str (input.body "challengeId") = some challengeId)
    (hconsumed : consumeHostedRecoveryChallenge db input.now challengeId .record =
      some (challenge, db')) (ha : input.assertion = some a) :
    verifyOwner env a challenge key = true ↔ SignsRecord env db input key := by
  unfold verifyOwner
  rw [isOk_iff]
  apply Iff.intro
  · intro hverifies
    exact ⟨challengeId, challenge, db', a, hchallengeId, hconsumed, ha, hverifies⟩
  · rintro ⟨challengeId', challenge', db'', a', hid, hconsumed', ha', hverifies⟩
    cases hchallengeId.symm.trans hid
    cases hconsumed.symm.trans hconsumed'
    cases ha.symm.trans ha'
    exact hverifies

theorem derives_iff {factoryAddress implementationAddress : String}
    (hf : env.factoryAddress = some factoryAddress)
    (hi : env.implementationAddress = some implementationAddress) :
    lowerCase (env.predictWalletAddress factoryAddress implementationAddress
      (env.deriveWalletSalt key.1 key.2)) = lowerCase walletAddress ↔
    Derives env walletAddress key := by
  apply Iff.intro
  · intro h
    exact ⟨_, _, hf, hi, h⟩
  · rintro ⟨f, i, hf', hi', h⟩
    cases hf.symm.trans hf'
    cases hi.symm.trans hi'
    exact h

/-- Beside owners that were read, the key is one of them. -/
theorem current_of_checked (hread : readWalletOwnersOnChain chain node = some onChainOwners)
    (hcheck : checkRecoverAccount env db input onChainOwners = .ok c) (hsome : onChainOwners ≠ []) :
    Current chain c.owner := by
  obtain ⟨a, db', f, i, -, -, -, -, -, -, -, hmatch⟩ := checkRecover_eq_ok.mp hcheck
  have hmem := List.mem_of_find?_eq_some hmatch
  have hpassed := List.find?_some hmatch
  simp only [if_pos hsome, decide_eq_true_eq] at hpassed
  obtain ⟨owner, howner, hsame⟩ := List.any_eq_true.mp hpassed.2
  obtain ⟨-, hcurrent, coords, hnormal⟩ := mem_readWalletOwnersOnChain hread howner
  rcases mem_foldl_pushOwnerCandidate hmem with hnone | ⟨candidate, -, hkey⟩
  · cases hnone
  · simp only [sameRecoverOwner, decide_eq_true_eq] at hsame
    rw [normalizeHex32_lower hnormal.1, normalizeHex32_lower hnormal.2, normalizeHex32_lower hkey.1,
      normalizeHex32_lower hkey.2] at hsame
    rwa [← Prod.ext hsame.1 hsame.2]

/-- Without owners, the key is the first of the body's and the account's that signs and that the
address derives from. -/
theorem checked_nil_iff : (∃ c, checkRecoverAccount env db input [] = .ok c ∧
      c.walletAddress = walletAddress ∧ c.owner = key) ↔
    Names env input walletAddress ∧ ∃ pre post,
      recoverCandidates db walletAddress input.body [] = pre ++ key :: post ∧
      SignsRecord env db input key ∧ Derives env walletAddress key ∧
      ∀ k ∈ pre, ¬ (SignsRecord env db input k ∧ Derives env walletAddress k) := by
  apply Iff.intro
  · rintro ⟨c, hcheck, rfl, rfl⟩
    obtain ⟨a, db', f, i, hw, hcredential, hchallengeId, ha, hconsumed, hf, hi, hmatch⟩ :=
      checkRecover_eq_ok.mp hcheck
    refine ⟨⟨hw, by simp [hcredential]⟩, ?_⟩
    obtain ⟨hpassed, pre, post, hcandidates, hpre⟩ := List.find?_eq_some_iff_append.mp hmatch
    simp only [ne_eq, not_true_eq_false, if_false, decide_eq_true_eq,
      verifyOwner_iff hchallengeId hconsumed ha, derives_iff hf hi] at hpassed
    refine ⟨pre, post, hcandidates, hpassed.1, hpassed.2, fun k hk => ?_⟩
    simpa only [ne_eq, not_true_eq_false, if_false, verifyOwner_iff hchallengeId hconsumed ha,
      derives_iff hf hi, Bool.not_eq_true', decide_eq_false_iff_not, decide_eq_true_eq] using
      hpre k hk
  · rintro ⟨⟨hw, hcredential⟩, pre, post, hcandidates, hsigns, hderives, hpre⟩
    obtain ⟨credentialId, hcredentialId⟩ := Option.ne_none_iff_exists'.mp hcredential
    have hsigns' := hsigns
    have hderives' := hderives
    obtain ⟨challengeId, challenge, db', a, hchallengeId, hconsumed, ha, -⟩ := hsigns'
    obtain ⟨f, i, hf, hi, -⟩ := hderives'
    refine ⟨⟨walletAddress, credentialId, challengeId, challenge, key⟩, checkRecover_eq_ok.mpr
      ⟨a, db', f, i, hw, hcredentialId, hchallengeId, ha, hconsumed, hf, hi, ?_⟩, rfl, rfl⟩
    refine List.find?_eq_some_iff_append.mpr ⟨?_, pre, post, hcandidates, fun k hk => ?_⟩
    · simp only [ne_eq, not_true_eq_false, if_false, decide_eq_true_eq,
        verifyOwner_iff hchallengeId hconsumed ha, derives_iff hf hi]
      exact ⟨hsigns, hderives⟩
    · simpa only [ne_eq, not_true_eq_false, if_false, verifyOwner_iff hchallengeId hconsumed ha,
        derives_iff hf hi, Bool.not_eq_true', decide_eq_false_iff_not, decide_eq_true_eq] using
        hpre k hk

/-- The key that the route restores has signed. -/
theorem signs_of_checked (hcheck : checkRecoverAccount env db input onChainOwners = .ok c) :
    SignsRecord env db input c.owner := by
  obtain ⟨a, db', f, i, -, -, hchallengeId, ha, hconsumed, -, -, hmatch⟩ :=
    checkRecover_eq_ok.mp hcheck
  have hpassed := List.find?_some hmatch
  rw [decide_eq_true_eq] at hpassed
  exact (verifyOwner_iff hchallengeId hconsumed ha).mp hpassed.1

end Checks

/-! ## What is restored -/

section Rows

variable {chain} {env : Env} {db : RecoveryDb} {input : Input} {node : Option (Read → Bool)}
  {onChainOwners : List Coords} {c : RecoverChecked} {wallets : WalletDb} {ts : Time}

theorem KeepsOwners.trans {address : String} {t t' t'' : Table WalletAccount String WalletAccount.address}
    (h : KeepsOwners address t t') (h' : KeepsOwners address t' t'') : KeepsOwners address t t'' := by
  intro k account haccount
  obtain ⟨account', haccount', hqx, hqy, hsame⟩ := h k account haccount
  obtain ⟨account'', haccount'', hqx', hqy', hsame'⟩ := h' k account' haccount'
  exact ⟨account'', haccount'', hqx'.trans hqx, hqy'.trans hqy,
    fun hne => (hsame' hne).trans (hsame hne)⟩

theorem keepsOwners_upsert (row : UpsertWalletAccount) :
    KeepsOwners (lowerCase row.address) wallets.accounts
      (upsertWalletAccount wallets ts row).1.accounts := by
  intro k account haccount
  unfold upsertWalletAccount
  dsimp only
  rw [Table.find?_upsert, haccount]
  split
  · next hk => exact ⟨_, rfl, rfl, rfl, fun hne => absurd hk hne⟩
  · exact ⟨account, rfl, rfl, rfl, fun _ => rfl⟩

theorem keepsOwners_markDeployed (address chainId : String) :
    KeepsOwners (lowerCase address) wallets.accounts
      (markWalletDeployed wallets ts address chainId).1.accounts := by
  intro k account haccount
  have hsame : ∃ account', wallets.accounts.find? k = some account' ∧
      account'.ownerQx = account.ownerQx ∧ account'.ownerQy = account.ownerQy ∧
      (k ≠ lowerCase address → account' = account) := ⟨account, haccount, rfl, rfl, fun _ => rfl⟩
  unfold markWalletDeployed
  split
  · exact hsame
  · split
    · exact hsame
    · dsimp only
      rw [Table.find?_modify, haccount]
      split
      · next hk => exact ⟨_, rfl, rfl, rfl, fun hne => absurd hk hne⟩
      · exact ⟨account, rfl, rfl, rfl, fun _ => rfl⟩

theorem markDeployed_devices (address chainId : String) :
    (markWalletDeployed wallets ts address chainId).1.devices = wallets.devices := by
  unfold markWalletDeployed
  split
  · rfl
  · split <;> rfl

-- The wallets before the device is written.
theorem recoveredWallets_eq : ∃ wallets₁ salt device,
    recoveredWallets env db input onChainOwners c = (upsertWalletDevice wallets₁ input.now device).1 ∧
    device.walletAddress = c.walletAddress ∧
    device.chainId = (str (input.body "chainId")).getD env.chainId ∧
    device.ownerQx = c.owner.1 ∧ device.ownerQy = c.owner.2 ∧
    wallets₁.devices = db.wallets.devices ∧
    KeepsOwners (lowerCase c.walletAddress) (upsertWalletAccount db.wallets input.now
      ⟨c.walletAddress, salt, c.owner.1, c.owner.2, some c.credentialId, none, none, none⟩).1.accounts
      wallets₁.accounts := by
  unfold recoveredWallets
  dsimp only
  refine ⟨_, (((getWalletAccount db c.walletAddress).map WalletAccount.salt).filter (· ≠ "")).getD
    (env.deriveWalletSalt c.owner.1 c.owner.2), _, rfl, rfl, rfl, rfl, rfl, ?_, ?_⟩
  · split
    · exact markDeployed_devices _ _
    · rfl
  · split
    · exact keepsOwners_markDeployed _ _
    · exact fun _ account haccount => ⟨account, haccount, rfl, rfl, fun _ => rfl⟩

theorem restoredTo_of_checked {db₁ : RecoveryDb} (hwallets : db₁.wallets = db.wallets) :
    RestoredTo env db { db₁ with wallets := recoveredWallets env db₁ input onChainOwners c } input
      c.walletAddress c.owner := by
  obtain ⟨wallets₁, salt, device, heq, haddress, hchain, hqx, hqy, hdevices, hkept⟩ :=
    @recoveredWallets_eq env db₁ input onChainOwners c
  rw [hwallets] at hkept hdevices
  rw [heq]
  have hold : KeepsOwners (lowerCase c.walletAddress) db.wallets.accounts wallets₁.accounts :=
    KeepsOwners.trans (keepsOwners_upsert ⟨c.walletAddress, salt, c.owner.1, c.owner.2,
      some c.credentialId, none, none, none⟩) hkept
  refine ⟨fun hnone => ?_, hold, ?_, fun k hne => ?_⟩
  · have hnew : ∃ account, (upsertWalletAccount db.wallets input.now
        ⟨c.walletAddress, salt, c.owner.1, c.owner.2, some c.credentialId, none, none, none⟩).1.accounts.find?
          (lowerCase c.walletAddress) = some account ∧
        account.ownerQx = c.owner.1 ∧ account.ownerQy = c.owner.2 := by
      unfold upsertWalletAccount
      dsimp only
      rw [Table.find?_upsert, if_pos rfl, hnone]
      exact ⟨_, rfl, rfl, rfl⟩
    obtain ⟨account, haccount, hx, hy⟩ := hnew
    obtain ⟨account', haccount', hx', hy', -⟩ := hkept _ _ haccount
    exact ⟨account', haccount', hx'.trans hx, hy'.trans hy⟩
  · rw [← haddress, ← hchain, ← hqx, ← hqy]
    exact ⟨_, Table.find?_upsert.trans (if_pos rfl)⟩
  · rw [← haddress, ← hchain, ← hqx, ← hqy] at hne
    rw [← hdevices]
    exact Table.find?_upsert.trans (if_neg hne)

theorem recoverWalletAccount_wallets :
    (recoverWalletAccount env db input onChainOwners).2.wallets = db.wallets ∨
    ∃ c, checkRecoverAccount env db input onChainOwners = .ok c := by
  unfold recoverWalletAccount
  split
  · exact .inl rfl
  next c hcheck => exact .inr ⟨c, hcheck⟩

theorem restoredTo_of_restores {walletAddress : String} {key : Coords}
    (h : Restores chain env db input node walletAddress key) :
    RestoredTo env db (recoverRoute chain env db input node).2 input walletAddress key := by
  obtain ⟨onChainOwners, c, hread, hcheck, rfl, rfl⟩ := h
  obtain ⟨a, db₁, f, i, -, -, -, -, hconsumed, -⟩ := checkRecover_eq_ok.mp hcheck
  unfold recoverRoute
  simp only [hread]
  unfold recoverWalletAccount
  simp only [hcheck, hconsumed]
  obtain ⟨t, rfl⟩ := consumeHosted_eq hconsumed
  exact restoredTo_of_checked rfl

end Rows

/-! ## Every request -/

/-- A record is restored to owners only iff reads that give no owner of a deployed wallet settle
nothing. -/
theorem only_to_owner_iff (chain : OnChainWallet) (env : Env) (db : RecoveryDb) (input : Input)
    (node : Option (Read → Bool)) :
    OnlyToOwner chain env db input node ↔ ReadsSettle chain env db input node := by
  apply Iff.intro
  · intro h hdeployed hread walletAddress pre key post hnames hcandidates hsigns hderives hpre
    obtain ⟨c, hcheck, hwallet, hkey⟩ :=
      checked_nil_iff.mpr ⟨hnames, pre, post, hcandidates, hsigns, hderives, hpre⟩
    exact (h.owner walletAddress key ⟨[], c, hread, hcheck, hwallet, hkey⟩).2.2.1 hdeployed
  · intro h
    refine ⟨fun walletAddress key hrestores => ?_, fun hnone => ?_⟩
    · refine ⟨restoredTo_of_restores hrestores, ?_⟩
      obtain ⟨onChainOwners, c, hread, hcheck, rfl, rfl⟩ := hrestores
      refine ⟨signs_of_checked hcheck, fun hdeployed => ?_, fun hundeployed => ?_⟩
      · by_cases hsome : onChainOwners = []
        · subst hsome
          obtain ⟨hnames, pre, post, hcandidates, hsigns, hderives, hpre⟩ :=
            checked_nil_iff.mp ⟨c, hcheck, rfl, rfl⟩
          exact h hdeployed hread _ pre _ post hnames hcandidates hsigns hderives hpre
        · exact current_of_checked hread hcheck hsome
      · cases onChainOwners with
        | nil =>
          obtain ⟨-, pre, post, -, -, hderives, -⟩ := checked_nil_iff.mp ⟨c, hcheck, rfl, rfl⟩
          exact hderives
        | cons owner rest =>
          exact absurd (mem_readWalletOwnersOnChain hread List.mem_cons_self).1 hundeployed
    · unfold recoverRoute
      split
      · rfl
      next onChainOwners hread =>
        rcases @recoverWalletAccount_wallets env db input onChainOwners with hsame | ⟨c, hcheck⟩
        · exact hsame
        · exact absurd ⟨_, _, onChainOwners, c, hread, hcheck, rfl, rfl⟩ hnone

-- The wallet's address derives from one key.
def factoryEnv : Env := { toyEnv with
  factoryAddress := some "0xf"
  implementationAddress := some "0xi"
  predictWalletAddress := fun _ _ salt => if salt = hex32 '1' then "0xw" else "0xother" }

-- Another key has replaced it.
def replacedOwner : OnChainWallet where
  code := "0x60"
  contract := {
    identityId := none
    store := none
    methodIdsOf := fun _ _ => none
    getMethod := fun _ _ => none
    ownerCount := some 1
    ownerAt := fun _ => some (hex32 '5', hex32 '6') }

-- The node fails to answer how many owners there are.
def losesCount : Read → Bool
  | .ownerCount => true
  | _ => false

def recordChallenge : RecoveryDb :=
  (next factoryEnv .empty (.recoveryChallenge (toyInput [("purpose", "record")] "challenge" "c"
    none))).db

def replacedKeyRequest : Input :=
  toyInput [("walletAddress", "0xw"), ("credentialId", "cred"), ("challengeId", "challenge"),
    ("ownerQx", hex32 '1'), ("ownerQy", hex32 '2')] "" ""
    (some ⟨some "webauthn.get", some "c", some "https://shop", hex32 '1'⟩)

theorem restored_to_replaced_key :
    ¬ OnlyToOwner replacedOwner factoryEnv recordChallenge replacedKeyRequest (some losesCount) := by
  intro h
  have hchecked : (checkRecoverAccount factoryEnv recordChallenge replacedKeyRequest []).toOption.map
      (fun c => (c.walletAddress, c.owner)) = some ("0xw", hex32 '1', hex32 '2') := by
    decide +kernel
  obtain ⟨c, hc, heq⟩ := Option.map_eq_some_iff.mp hchecked
  have hcheck : checkRecoverAccount factoryEnv recordChallenge replacedKeyRequest [] = .ok c := by
    cases hr : checkRecoverAccount factoryEnv recordChallenge replacedKeyRequest [] with
    | error e =>
      rw [hr] at hc
      cases hc
    | ok c' =>
      rw [hr] at hc
      cases hc
      rfl
  have hcurrent := (h.owner c.walletAddress c.owner
    ⟨[], c, by decide +kernel, hcheck, rfl, rfl⟩).2.2.1 (show replacedOwner.code ≠ "0x" by decide)
  rcases hcurrent with ⟨identityId, store, methodIds, methodId, method, hnone, -⟩ |
    ⟨count, i, owner, -, -, howner, hqx, -⟩
  · cases hnone
  · cases howner
    rw [(Prod.mk.inj heq).2] at hqx
    revert hqx
    decide +kernel

end OnchainInvoice.Recovery
