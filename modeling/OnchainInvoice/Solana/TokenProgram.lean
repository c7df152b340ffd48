import OnchainInvoice.Solana.CommerceInvoice

/-!
# The programs that it calls

What the settlement of an invoice relies on in the system program and in the token program, and a
runtime that keeps to it.
-/

namespace OnchainInvoice.CommerceInvoice

open Evm Function

/-! ## What the other programs do -/

section Runtime

variable (rt : Runtime)

def balance (chain : Chain) (key : Pubkey) : Nat :=
  (rt.unpack (chain key).data).elim 0 fun account => account.amount.toNat

def mintAndOwner (chain : Chain) (key : Pubkey) : Option (Pubkey × Pubkey) :=
  (rt.unpack (chain key).data).map fun account => (account.mint, account.owner)

def HasMint (chain : Chain) (key mint : Pubkey) : Prop :=
  ∃ owner, mintAndOwner rt chain key = some (mint, owner)

/-- A transfer of the token program: both accounts are token accounts of one mint, and only their
amounts change. -/
structure Transferred (chain : Chain) (source destination : Pubkey) (amount : Uint64)
    (chain' : Chain) : Prop where
  owned : (chain source).owner = rt.tokenProgram ∧ (chain destination).owner = rt.tokenProgram
  mint : ∃ mint, HasMint rt chain source mint ∧ HasMint rt chain destination mint
  others : ∀ key, key ≠ source → key ≠ destination → chain' key = chain key
  kept : ∀ key, (chain' key).owner = (chain key).owner ∧
    mintAndOwner rt chain' key = mintAndOwner rt chain key
  debit : source ≠ destination → balance rt chain' source + amount.toNat = balance rt chain source
  credit : source ≠ destination →
    balance rt chain' destination = balance rt chain destination + amount.toNat

-- The token program clears an account of its own.
structure Closed (chain : Chain) (key : Pubkey) (chain' : Chain) : Prop where
  closed : rt.unpack (chain' key).data = none
  cleared : ∀ byte ∈ (chain' key).data, byte = 0
  others : ∀ other, other ≠ key → chain' other = chain other

/-- What is documented of the system program and of the token program. -/
structure Documented (programId : Pubkey) : Prop where
  apart : programId ≠ rt.tokenProgram
  created : ∀ payer key lamports space owner infos seeds chain chain',
    rt.invokeSigned (.createAccount payer key lamports space owner) infos seeds chain =
      some chain' →
    chain' key = ⟨owner, List.replicate space 0⟩ ∧ ∀ other, other ≠ key → chain' other = chain other
  transferred : ∀ source destination authority amount infos seeds chain chain',
    rt.invokeSigned (.transfer source destination authority amount) infos seeds chain =
      some chain' → Transferred rt chain source destination amount chain'
  closed : ∀ key destination authority infos seeds chain chain',
    rt.invokeSigned (.closeAccount key destination authority) infos seeds chain = some chain' →
      Closed rt chain key chain'

end Runtime

/-! ## Keys at the head of an account -/

@[simp] theorem array32_append (key : U8x32) (data : Bytes) :
    array32 (key.val ++ data) = some (key, data) := by
  have hlength := key.property
  unfold array32
  rw [dif_pos (by simp only [List.length_append]; omega)]
  simp only [Option.some.injEq, Prod.mk.injEq]
  exact ⟨Subtype.ext (List.take_left' hlength), List.drop_left' hlength⟩

theorem array32_eq_some {data rest : Bytes} {key : U8x32} (h : array32 data = some (key, rest)) :
    data = key.val ++ rest := by
  unfold array32 at h
  split at h
  · simp only [Option.some.injEq, Prod.mk.injEq] at h
    rw [← h.1, ← h.2, List.take_append_drop]
  · contradiction

/-! ## Token accounts

The 165 bytes of an account of the token program: its mint, its owner, its amount, and then fields
among which only the state is looked at. -/

def u64Bytes (n : Uint64) : Bytes := (beBytes 8 n.toNat).reverse

def Initialized (fields : Bytes) : Prop :=
  fields.length = 93 ∧ (fields[36]? = some 1 ∨ fields[36]? = some 2)

instance (fields : Bytes) : Decidable (Initialized fields) := inferInstanceAs (Decidable (_ ∧ _))

def unpack (data : Bytes) : Option TokenAccount := do
  let (mint, data) ← array32 data
  let (owner, data) ← array32 data
  if Initialized (data.drop 8) then
    return ⟨mint, owner, BitVec.ofNat 64 (beNat (data.take 8).reverse)⟩
  else none

def pack (account : TokenAccount) (fields : Bytes) : Bytes :=
  account.mint.val ++ (account.owner.val ++ (u64Bytes account.amount ++ fields))

def fieldsOf (data : Bytes) : Bytes := data.drop 72

theorem length_u64Bytes (n : Uint64) : (u64Bytes n).length = 8 := by
  unfold u64Bytes
  rw [List.length_reverse, length_beBytes]

theorem unpack_pack {fields : Bytes} (account : TokenAccount) (h : Initialized fields) :
    unpack (pack account fields) = some account := by
  have hamount := account.amount.isLt
  have hread : beNat (u64Bytes account.amount).reverse = account.amount.toNat := by
    unfold u64Bytes
    rw [List.reverse_reverse, beNat_beBytes (by omega)]
  unfold unpack pack
  simp only [array32_append, Option.bind_eq_bind, Option.bind_some,
    List.drop_left' (length_u64Bytes account.amount),
    List.take_left' (length_u64Bytes account.amount), if_pos h, hread, BitVec.ofNat_toNat,
    BitVec.setWidth_eq]
  rfl

theorem initialized_of_unpack {data : Bytes} {account : TokenAccount}
    (h : unpack data = some account) : Initialized (fieldsOf data) := by
  unfold unpack at h
  simp only [Option.bind_eq_bind, Option.bind_eq_some_iff, Prod.exists] at h
  rcases h with ⟨mint, data₁, h₁, owner, data₂, h₂, h⟩
  split at h
  · rename_i hinitialized
    have hfields : fieldsOf data = data₂.drop 8 := by
      unfold fieldsOf
      rw [show 72 = 32 + (32 + 8) from rfl, ← List.drop_drop, array32_eq_some h₁,
        List.drop_left' mint.property, ← List.drop_drop, array32_eq_some h₂,
        List.drop_left' owner.property]
    rwa [hfields]
  · contradiction

-- The other fields are packed as they were.
def setAmount (data : Bytes) (account : TokenAccount) (amount : Uint64) : Bytes :=
  pack { account with amount := amount } (fieldsOf data)

theorem unpack_setAmount {data : Bytes} {account : TokenAccount} (amount : Uint64)
    (h : unpack data = some account) :
    unpack (setAmount data account amount) = some { account with amount := amount } :=
  unpack_pack _ (initialized_of_unpack h)

/-! ## The calls -/

section Ledger

variable (tokenProgram systemProgram : Pubkey)

def createAccount (key : Pubkey) (space : Nat) (owner : Pubkey) (chain : Chain) : Option Chain :=
  if chain key = ⟨systemProgram, []⟩ then
    some (update chain key ⟨owner, List.replicate space 0⟩)
  else none

def tokenAccount (chain : Chain) (key : Pubkey) : Option TokenAccount :=
  if (chain key).owner = tokenProgram then unpack (chain key).data else none

def setTokens (key : Pubkey) (account : TokenAccount) (amount : Uint64) (chain : Chain) : Chain :=
  update chain key ⟨tokenProgram, setAmount (chain key).data account amount⟩

def transfer (source destination authority : Pubkey) (amount : Uint64) (chain : Chain) :
    Option Chain := do
  let payer ← tokenAccount tokenProgram chain source
  let payee ← tokenAccount tokenProgram chain destination
  if payer.owner ≠ authority ∨ payer.mint ≠ payee.mint ∨ payer.amount < amount then none
  else if source = destination then some chain
  else if 2 ^ 64 ≤ payee.amount.toNat + amount.toNat then none
  else some (setTokens tokenProgram destination payee (payee.amount + amount)
    (setTokens tokenProgram source payer (payer.amount - amount) chain))

def closeAccount (key destination authority : Pubkey) (chain : Chain) : Option Chain := do
  let account ← tokenAccount tokenProgram chain key
  if account.owner ≠ authority ∨ account.amount ≠ 0 ∨ key = destination then none
  else some (update chain key ⟨systemProgram, []⟩)

end Ledger

/-- A runtime with given program addresses.  Who signs is not looked at: the seeds always give the
address that has to sign. -/
def runtime (tokenProgram systemProgram : Pubkey)
    (findProgramAddress : List Bytes → Pubkey → Pubkey × UInt8)
    (getAssociatedTokenAddress : Pubkey → Pubkey → Pubkey) : Runtime where
  tokenProgram := tokenProgram
  findProgramAddress := findProgramAddress
  getAssociatedTokenAddress := getAssociatedTokenAddress
  unpack := unpack
  -- Two years of rent, at 3480 lamports a byte and a year.
  minimumBalance := fun space => (128 + space) * 3480 * 2
  invokeSigned := fun instruction _ _ chain =>
    match instruction with
    | .createAccount _ account _ space owner =>
      CommerceInvoice.createAccount systemProgram account space owner chain
    | .transfer source destination authority amount =>
      CommerceInvoice.transfer tokenProgram source destination authority amount chain
    | .closeAccount account destination authority =>
      CommerceInvoice.closeAccount tokenProgram systemProgram account destination authority chain

theorem tokenAccount_eq_some {tokenProgram key : Pubkey} {chain : Chain} {account : TokenAccount} :
    tokenAccount tokenProgram chain key = some account ↔
      (chain key).owner = tokenProgram ∧ unpack (chain key).data = some account := by
  unfold tokenAccount
  split
  · rename_i howner
    exact ⟨fun h => ⟨howner, h⟩, And.right⟩
  · rename_i howner
    exact ⟨nofun, fun h => absurd h.1 howner⟩

section Ledger

variable {tokenProgram systemProgram : Pubkey} {chain chain' : Chain}
variable {source destination authority : Pubkey} {amount : Uint64}

theorem setTokens_self (key : Pubkey) (account : TokenAccount) (amount : Uint64) (chain : Chain) :
    setTokens tokenProgram key account amount chain key =
      ⟨tokenProgram, setAmount (chain key).data account amount⟩ :=
  update_self ..

theorem setTokens_of_ne {key other : Pubkey} (account : TokenAccount) (amount : Uint64)
    (chain : Chain) (h : other ≠ key) :
    setTokens tokenProgram key account amount chain other = chain other :=
  update_of_ne h ..

/-- What a change of one token account does to what is read of it. -/
theorem unpack_setTokens {key : Pubkey} {account : TokenAccount} (amount : Uint64)
    (h : unpack (chain key).data = some account) :
    unpack (setTokens tokenProgram key account amount chain key).data =
      some { account with amount := amount } := by
  rw [setTokens_self]
  exact unpack_setAmount amount h

theorem kept_setTokens {rt : Runtime} {key : Pubkey} {account : TokenAccount} (amount : Uint64)
    (hunpack : rt.unpack = unpack)
    (h : tokenAccount tokenProgram chain key = some account) (other : Pubkey) :
    (setTokens tokenProgram key account amount chain other).owner = (chain other).owner ∧
      mintAndOwner rt (setTokens tokenProgram key account amount chain) other =
        mintAndOwner rt chain other := by
  rcases tokenAccount_eq_some.mp h with ⟨howner, hread⟩
  unfold mintAndOwner
  by_cases hother : other = key
  · subst hother
    rw [hunpack, unpack_setTokens amount hread, hread, setTokens_self, howner]
    exact ⟨rfl, rfl⟩
  · rw [setTokens_of_ne account amount chain hother]
    exact ⟨rfl, rfl⟩

theorem transferred_of_transfer {rt : Runtime} (hprogram : rt.tokenProgram = tokenProgram)
    (hunpack : rt.unpack = unpack)
    (h : transfer tokenProgram source destination authority amount chain = some chain') :
    Transferred rt chain source destination amount chain' := by
  unfold transfer at h
  simp only [Option.bind_eq_bind, Option.bind_eq_some_iff] at h
  rcases h with ⟨payer, hpayer, payee, hpayee, h⟩
  rcases tokenAccount_eq_some.mp hpayer with ⟨hsourceOwner, hsource⟩
  rcases tokenAccount_eq_some.mp hpayee with ⟨hdestinationOwner, hdestination⟩
  split at h
  · contradiction
  · rename_i hchecks
    have hmint : payer.mint = payee.mint := by
      by_contra hmint
      exact hchecks (.inr (.inl hmint))
    have hamount : amount ≤ payer.amount := by
      rw [BitVec.le_def]
      apply Nat.le_of_not_lt
      intro hlt
      exact hchecks (.inr (.inr (BitVec.lt_def.mpr hlt)))
    have hmints : ∃ mint, HasMint rt chain source mint ∧ HasMint rt chain destination mint := by
      refine ⟨payer.mint, ⟨payer.owner, ?_⟩, payee.owner, ?_⟩
      · unfold mintAndOwner
        rw [hunpack, hsource, Option.map_some]
      · unfold mintAndOwner
        rw [hunpack, hdestination, Option.map_some, hmint]
    have howned : (chain source).owner = rt.tokenProgram ∧
        (chain destination).owner = rt.tokenProgram := by
      rw [hprogram]
      exact ⟨hsourceOwner, hdestinationOwner⟩
    split at h
    · rename_i hself
      cases h
      exact ⟨howned, hmints, fun _ _ _ => rfl, fun _ => ⟨rfl, rfl⟩, fun hne => absurd hself hne,
        fun hne => absurd hself hne⟩
    · rename_i hne
      split at h
      · contradiction
      · rename_i hfit
        cases h
        have hread : tokenAccount tokenProgram
            (setTokens tokenProgram source payer (payer.amount - amount) chain) destination =
              some payee := by
          unfold tokenAccount
          rw [setTokens_of_ne _ _ _ (Ne.symm hne)]
          exact hpayee
        refine ⟨howned, hmints, ?_, ?_, ?_, ?_⟩
        · intro key hkey hkey'
          rw [setTokens_of_ne _ _ _ hkey', setTokens_of_ne _ _ _ hkey]
        · intro key
          rcases kept_setTokens (payee.amount + amount) hunpack hread key with ⟨howner₂, hkept₂⟩
          rcases kept_setTokens (payer.amount - amount) hunpack hpayer key with ⟨howner₁, hkept₁⟩
          exact ⟨howner₂.trans howner₁, hkept₂.trans hkept₁⟩
        · intro _
          unfold balance
          rw [setTokens_of_ne _ _ _ hne, hunpack, unpack_setTokens _ hsource, hsource]
          simp only [Option.elim_some, BitVec.toNat_sub_of_le hamount]
          exact Nat.sub_add_cancel (BitVec.le_def.mp hamount)
        · intro _
          unfold balance
          rw [hunpack, unpack_setTokens _ (tokenAccount_eq_some.mp hread).2, hdestination]
          simp only [Option.elim_some, BitVec.toNat_add]
          exact Nat.mod_eq_of_lt (Nat.lt_of_not_le hfit)

theorem documented_runtime {programId : Pubkey}
    {findProgramAddress : List Bytes → Pubkey → Pubkey × UInt8}
    {getAssociatedTokenAddress : Pubkey → Pubkey → Pubkey} (h : programId ≠ tokenProgram) :
    Documented (runtime tokenProgram systemProgram findProgramAddress getAssociatedTokenAddress)
      programId := by
  apply Documented.mk
  · exact h
  · intro _ key _ space owner _ _ chain chain' hcall
    change createAccount systemProgram key space owner chain = some chain' at hcall
    unfold createAccount at hcall
    split at hcall
    · cases hcall
      exact ⟨update_self .., fun other hother => update_of_ne hother ..⟩
    · contradiction
  · intro source destination authority amount _ _ chain chain' hcall
    exact transferred_of_transfer rfl rfl hcall
  · intro key destination authority _ _ chain chain' hcall
    change closeAccount tokenProgram systemProgram key destination authority chain =
      some chain' at hcall
    unfold closeAccount at hcall
    simp only [Option.bind_eq_bind, Option.bind_eq_some_iff] at hcall
    rcases hcall with ⟨account, -, hcall⟩
    split at hcall
    · contradiction
    · cases hcall
      apply Closed.mk
      · rw [update_self]
        rfl
      · rw [update_self]
        exact fun byte hbyte => absurd hbyte List.not_mem_nil
      · exact fun other hother => update_of_ne hother ..

end Ledger

end OnchainInvoice.CommerceInvoice
