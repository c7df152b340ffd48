import OnchainInvoice.Solana.TokenProgram

/-!
# Settlements

An instruction that settles an invoice pays out exactly what the invoice's token account holds, the
fee to the recipient that the configuration names and the rest to the merchant that the address of
the invoice names.
-/

namespace OnchainInvoice.CommerceInvoice

open Evm Lib.Revert Lib.Runs

/-- Other programs leave the data of the program's accounts alone, and an account that comes to be
the program's has no data yet. -/
def Event.Respects (programId : Pubkey) : Event → Prop
  | .instruction _ _ => True
  | .outside change => ∀ chain key, (change chain key).owner = programId →
    chain key = change chain key ∨ ∀ byte ∈ (change chain key).data, byte = 0

/-! ## Fees -/

-- No product leaves 128 bits, and no quotient 64.
def ExactFees : Prop :=
  ∀ (amount : Uint64) (feeBps : Uint16), feeBps.toNat ≤ 10000 → ∃ fee,
    feeOf amount feeBps = .ok fee ∧ fee.toNat = amount.toNat * feeBps.toNat / 10000 ∧ fee ≤ amount

theorem fee_le (amount : Nat) {bps : Nat} (hbps : bps ≤ 10000) : amount * bps / 10000 ≤ amount := by
  apply Nat.div_le_of_le_mul
  rw [Nat.mul_comm 10000]
  exact Nat.mul_le_mul_left _ hbps

theorem exactFees : ExactFees := by
  intro amount feeBps hbps
  have hamount := amount.isLt
  have hle := fee_le amount.toNat hbps
  have hproduct : amount.toNat * feeBps.toNat < 2 ^ 128 := by
    calc amount.toNat * feeBps.toNat
      _ ≤ amount.toNat * 10000 := Nat.mul_le_mul_left _ hbps
      _ < 2 ^ 128 := by omega
  have hwide : (amount.setWidth 128).toNat * (feeBps.setWidth 128).toNat =
      amount.toNat * feeBps.toNat := by
    rw [BitVec.toNat_setWidth_of_le (by decide), BitVec.toNat_setWidth_of_le (by decide)]
  have hok : checkedMul ProgramError.invalidArgument (amount.setWidth 128) (feeBps.setWidth 128) =
      .ok (amount.setWidth 128 * feeBps.setWidth 128) := by
    unfold checkedMul
    rw [if_pos (by rwa [hwide])]
  have hfee : ((amount.setWidth 128 * feeBps.setWidth 128 / 10000#128).setWidth 64).toNat =
      amount.toNat * feeBps.toNat / 10000 := by
    rw [BitVec.toNat_setWidth, BitVec.toNat_udiv, BitVec.toNat_mul, hwide,
      Nat.mod_eq_of_lt hproduct]
    exact Nat.mod_eq_of_lt (Nat.lt_of_le_of_lt hle hamount)
  refine ⟨_, bind_eq_ok.mpr ⟨_, hok, rfl⟩, hfee, ?_⟩
  rw [BitVec.le_def, hfee]
  exact hle

theorem toNat_saturatingSub {amount fee : Uint64} (h : fee ≤ amount) :
    (saturatingSub amount fee).toNat + fee.toNat = amount.toNat := by
  unfold saturatingSub
  rw [if_pos h, BitVec.toNat_sub_of_le h]
  exact Nat.sub_add_cancel (BitVec.le_def.mp h)

/-! ## What is read of the configuration -/

@[simp] theorem u16_append (n : Uint16) (data : Bytes) :
    u16 (u16Bytes n ++ data) = some (n, data) := by
  have hn := n.isLt
  have hbytes : n.toNat % 256 + 256 * (n.toNat / 256 % 256) = n.toNat := by omega
  simp only [u16Bytes, u16, List.cons_append, List.nil_append, UInt8.toNat_ofNat', hbytes,
    Nat.reducePow, BitVec.ofNat_toNat, BitVec.setWidth_eq]

theorem Config.deserialize_serialize (config : Config) (data : Bytes) :
    Config.deserialize (config.serialize ++ data) = some config := by
  unfold Config.deserialize Config.serialize
  simp only [List.append_assoc, array32_append, u16_append, Option.bind_eq_bind, Option.bind_some,
    List.cons_append, List.nil_append, u8]
  rfl

-- A configuration that is read before one is written charges nothing.
theorem Config.feeBps_of_zeros {data : Bytes} {config : Config} (hzeros : ∀ byte ∈ data, byte = 0)
    (h : Config.deserialize data = some config) : config.feeBps = 0 := by
  unfold Config.deserialize at h
  simp only [Option.bind_eq_bind, Option.bind_eq_some_iff, Prod.exists] at h
  rcases h with ⟨authority, data₁, h₁, feeRecipient, data₂, h₂, feeBps, data₃, h₃, bump, data₄, -,
    hconfig⟩
  have hrest : ∀ byte ∈ data₂, byte = 0 := by
    intro byte hbyte
    apply hzeros byte
    rw [array32_eq_some h₁, array32_eq_some h₂]
    exact List.mem_append_right _ (List.mem_append_right _ hbyte)
  cases hconfig
  rcases data₂ with _ | ⟨low, _ | ⟨high, rest⟩⟩
  · contradiction
  · contradiction
  · simp only [u16, Option.some.injEq, Prod.mk.injEq] at h₃
    rw [← h₃.1, hrest low (by simp), hrest high (by simp)]
    rfl

/-! ## Payments -/

variable {rt : Runtime} {programId : Pubkey} {chain chain' : Chain}

theorem HasMint.unique {key mint mint' : Pubkey} (h : HasMint rt chain key mint)
    (h' : HasMint rt chain key mint') : mint = mint' := by
  rcases h with ⟨owner, h⟩
  rcases h' with ⟨owner', h'⟩
  rw [h] at h'
  cases h'
  rfl

-- A share that has been paid, whether or not it is zero.
structure Paid (rt : Runtime) (chain : Chain) (source destination : Pubkey) (amount : Uint64)
    (chain' : Chain) : Prop where
  foreign : ∀ key, (chain' key).owner ≠ rt.tokenProgram → chain' key = chain key
  kept : ∀ key, mintAndOwner rt chain' key = mintAndOwner rt chain key
  credit : ∀ key, key ≠ source →
    balance rt chain' key = balance rt chain key + if key = destination then amount.toNat else 0
  mint : 0 < amount → ∃ mint, HasMint rt chain source mint ∧ HasMint rt chain destination mint

theorem paid_zero (source destination : Pubkey) : Paid rt chain source destination 0 chain := by
  apply Paid.mk
  · intro key _
    rfl
  · intro key
    rfl
  · intro key _
    simp
  · intro h
    exact absurd h (by decide)

theorem Transferred.paid {source destination : Pubkey} {amount : Uint64}
    (h : Transferred rt chain source destination amount chain') :
    Paid rt chain source destination amount chain' := by
  apply Paid.mk
  · intro key hkey
    rw [(h.kept key).1] at hkey
    apply h.others
    · intro heq
      exact hkey (heq ▸ h.owned.1)
    · intro heq
      exact hkey (heq ▸ h.owned.2)
  · exact fun key => (h.kept key).2
  · intro key hsource
    split
    · rename_i hdestination
      subst hdestination
      exact h.credit (Ne.symm hsource)
    · rename_i hdestination
      unfold balance
      rw [h.others key hsource hdestination, Nat.add_zero]
  · exact fun _ => h.mint

theorem paid_of_pay {a : SettleAccounts} {destination : AccountInfo} {expectedInvoice : Pubkey}
    {signerSeeds : List Bytes} {amount : Uint64} (hdoc : Documented rt programId)
    (h : pay rt a destination expectedInvoice signerSeeds amount chain = .ok chain') :
    Paid rt chain a.invoiceAta.key destination.key amount chain' := by
  unfold pay at h
  split at h
  · simp only [bind_eq_ok, invokeSigned, orRevert_eq_ok] at h
    rcases h with ⟨-, -, hinvoke⟩
    exact (hdoc.transferred _ _ _ _ _ _ _ _ hinvoke).paid
  · rename_i hamount
    have hzero : amount = 0 := by
      apply BitVec.eq_of_toNat_eq
      rw [BitVec.lt_def] at hamount
      exact Nat.eq_zero_of_not_pos hamount
    rw [pure_eq_ok] at h
    subst h hzero
    exact paid_zero _ _

/-! ## The rate that is stored -/

-- No configuration that the program holds charges more than everything.
def RateBounded (programId : Pubkey) (chain : Chain) : Prop :=
  ∀ key config, (chain key).owner = programId →
    Config.deserialize (chain key).data = some config → config.feeBps.toNat ≤ 10000

theorem rate_of_zeros {key : Pubkey} {config : Config}
    (hzeros : ∀ byte ∈ (chain key).data, byte = 0)
    (h : Config.deserialize (chain key).data = some config) : config.feeBps.toNat ≤ 10000 := by
  rw [Config.feeBps_of_zeros hzeros h]
  decide

theorem RateBounded.initialize_ {accounts : List AccountInfo} {feeBps : Uint16}
    {authority feeRecipient : Pubkey} (hdoc : Documented rt programId)
    (hbounded : RateBounded programId chain)
    (h : initialize_ rt programId accounts feeBps authority feeRecipient chain = .ok chain') :
    RateBounded programId chain' := by
  unfold CommerceInvoice.initialize_ at h
  simp only [bind_eq_ok, revertIf_eq_ok, decide_eq_false_iff_not, writeConfig, invokeSigned,
    orRevert_eq_ok, pure_eq_ok, Prod.exists] at h
  rcases h with ⟨-, hbps, payer, -, -, configInfo, -, -, systemProgram, -, -, -, -, -, -, -, -,
    created, hcreate, -, -, rfl⟩
  rcases hdoc.created _ _ _ _ _ _ _ _ _ hcreate with ⟨hnew, hothers⟩
  intro key config howner hread
  by_cases hkey : key = configInfo.key
  · subst hkey
    rw [Function.update_self] at hread
    rw [Config.deserialize_serialize] at hread
    cases hread
    rw [BitVec.lt_def] at hbps
    exact Nat.le_of_not_lt hbps
  · rw [Function.update_of_ne hkey, hothers key hkey] at howner hread
    exact hbounded key config howner hread

/-! ## What a settlement does -/

-- The checks of the instruction, and the three calls that it makes.
structure Settled (rt : Runtime) (programId : Pubkey) (invoiceId : U8x32) (a : SettleAccounts)
    (config : Config) (ata : TokenAccount) (fee : Uint64) (chain chain' : Chain) : Prop where
  authority : a.authority.isSigner = true ∧ a.authority.key = config.authority
  stored : a.configInfo.key = (configPda rt programId).1 ∧
    (chain a.configInfo.key).owner = programId ∧
    Config.deserialize (chain a.configInfo.key).data = some config
  invoiceAta : a.invoiceAta.key = rt.getAssociatedTokenAddress
    (invoicePda rt programId invoiceId a.merchant.key a.mint.key).1 a.mint.key
  merchantAta : a.merchantAta.key = rt.getAssociatedTokenAddress a.merchant.key a.mint.key
  feeAta : a.feeAta.key = rt.getAssociatedTokenAddress config.feeRecipient a.mint.key
  unpacked : rt.unpack (chain a.invoiceAta.key).data = some ata
  holder : ata.mint = a.mint.key ∧
    ata.owner = (invoicePda rt programId invoiceId a.merchant.key a.mint.key).1
  charged : feeOf ata.amount config.feeBps = .ok fee
  calls : ∃ chain₁ chain₂,
    Paid rt chain a.invoiceAta.key a.merchantAta.key (saturatingSub ata.amount fee) chain₁ ∧
    Paid rt chain₁ a.invoiceAta.key a.feeAta.key fee chain₂ ∧
    Closed rt chain₂ a.invoiceAta.key chain'

theorem settled_of_settle {accounts : List AccountInfo} {invoiceId : U8x32}
    (hdoc : Documented rt programId)
    (h : settle rt programId accounts invoiceId chain = .ok chain') :
    ∃ a config ata fee, settleAccounts accounts = .ok a ∧
      Settled rt programId invoiceId a config ata fee chain chain' := by
  unfold settle at h
  simp only [bind_eq_ok, revertIf_eq_ok, orRevert_eq_ok, invokeSigned, Bool.not_eq_eq_eq_not,
    Bool.not_false, bne_eq_false_iff_eq, Bool.or_eq_false_iff] at h
  rcases h with ⟨a, haccounts, -, hsigner, config, hconfig, -, ⟨hpda, howner⟩, -, hauthority, -, -,
    -, hinvoiceAta, -, hmerchantAta, -, hfeeAta, ata, hata, -, ⟨hmint, hataOwner⟩, -, -, fee, hfee,
    chain₁, hpay₁, chain₂, hpay₂, -, -, hclose⟩
  refine ⟨a, config, ata, fee, haccounts, ⟨hsigner, hauthority⟩, ⟨hpda, howner, hconfig⟩,
    hinvoiceAta, hmerchantAta, hfeeAta, hata, ⟨hmint, hataOwner⟩, hfee, chain₁, chain₂, ?_, ?_, ?_⟩
  · exact paid_of_pay hdoc hpay₁
  · exact paid_of_pay hdoc hpay₂
  · exact hdoc.closed _ _ _ _ _ _ _ hclose

theorem Settled.rateBounded {invoiceId : U8x32} {a : SettleAccounts} {config : Config}
    {ata : TokenAccount} {fee : Uint64} (hdoc : Documented rt programId)
    (hsettled : Settled rt programId invoiceId a config ata fee chain chain')
    (hbounded : RateBounded programId chain) : RateBounded programId chain' := by
  intro key stored howner hread
  rcases hsettled.calls with ⟨chain₁, chain₂, hpaid₁, hpaid₂, hclosed⟩
  by_cases hkey : key = a.invoiceAta.key
  · subst hkey
    exact rate_of_zeros hclosed.cleared hread
  · -- The two payments leave the accounts of other programs alone.
    have hforeign : programId ≠ rt.tokenProgram := hdoc.apart
    rw [hclosed.others key hkey] at howner hread
    have h₂ : chain₂ key = chain₁ key := hpaid₂.foreign key (howner ▸ hforeign)
    rw [h₂] at howner hread
    have h₁ : chain₁ key = chain key := hpaid₁.foreign key (howner ▸ hforeign)
    rw [h₁] at howner hread
    exact hbounded key stored howner hread

theorem RateBounded.step {event : Event} (hdoc : Documented rt programId)
    (hrespects : event.Respects programId) (hbounded : RateBounded programId chain)
    (h : step rt programId chain event = .ok chain') : RateBounded programId chain' := by
  cases event with
  | instruction accounts data =>
    change processInstruction rt programId accounts data chain = .ok chain' at h
    unfold processInstruction at h
    simp only [bind_eq_ok, orRevert_eq_ok] at h
    rcases h with ⟨ix, -, h⟩
    cases ix with
    | initialize_ feeBps authority feeRecipient => exact hbounded.initialize_ hdoc h
    | settle invoiceId =>
      rcases settled_of_settle hdoc h with ⟨a, config, ata, fee, -, hsettled⟩
      exact hsettled.rateBounded hdoc hbounded
  | outside change =>
    cases h
    intro key config howner hread
    rcases hrespects chain key howner with hsame | hzeros
    · rw [← hsame] at howner hread
      exact hbounded key config howner hread
    · exact rate_of_zeros hzeros hread

theorem rateBounded_of_run {events : List Event} (hdoc : Documented rt programId)
    (hstart : ∀ key, (chain key).owner = programId → ∀ byte ∈ (chain key).data, byte = 0)
    (hevents : ∀ event ∈ events, event.Respects programId) :
    RateBounded programId (run (step rt programId) chain events) := by
  apply run_invariant_of_mem
  · intro chain₁ event chain₂ hevent hbounded hstep
    exact hbounded.step hdoc (hevents event hevent) hstep
  · intro key config howner hread
    exact rate_of_zeros (hstart key howner) hread

/-- A settlement empties the token account of the invoice and closes it.  What it held is split
into the fee, at a rate that `initialize` admits, and the rest, and these two are all that is paid
out. -/
structure Settlement (rt : Runtime) (programId : Pubkey) (invoiceId : U8x32) (a : SettleAccounts)
    (config : Config) (amount fee toMerchant : Uint64) (chain chain' : Chain) : Prop where
  stored : a.configInfo.key = (configPda rt programId).1 ∧
    (chain a.configInfo.key).owner = programId ∧
    Config.deserialize (chain a.configInfo.key).data = some config
  authority : a.authority.isSigner = true ∧ a.authority.key = config.authority
  invoiceAta : a.invoiceAta.key = rt.getAssociatedTokenAddress
    (invoicePda rt programId invoiceId a.merchant.key a.mint.key).1 a.mint.key
  holder : mintAndOwner rt chain a.invoiceAta.key =
    some (a.mint.key, (invoicePda rt programId invoiceId a.merchant.key a.mint.key).1)
  merchantAta : a.merchantAta.key = rt.getAssociatedTokenAddress a.merchant.key a.mint.key
  feeAta : a.feeAta.key = rt.getAssociatedTokenAddress config.feeRecipient a.mint.key
  merchantMint : 0 < toMerchant → HasMint rt chain a.merchantAta.key a.mint.key
  feeMint : 0 < fee → HasMint rt chain a.feeAta.key a.mint.key
  whole : balance rt chain a.invoiceAta.key = amount.toNat
  rate : config.feeBps.toNat ≤ 10000
  charged : fee.toNat = amount.toNat * config.feeBps.toNat / 10000 ∧ fee ≤ amount
  shares : toMerchant.toNat + fee.toNat = amount.toNat
  closed : rt.unpack (chain' a.invoiceAta.key).data = none
  paid : ∀ key, key ≠ a.invoiceAta.key → balance rt chain' key = balance rt chain key +
    (if key = a.merchantAta.key then toMerchant.toNat else 0) +
    (if key = a.feeAta.key then fee.toNat else 0)

theorem Settled.settlement {invoiceId : U8x32} {a : SettleAccounts} {config : Config}
    {ata : TokenAccount} {fee : Uint64} (hbounded : RateBounded programId chain)
    (h : Settled rt programId invoiceId a config ata fee chain chain') :
    Settlement rt programId invoiceId a config ata.amount fee (saturatingSub ata.amount fee)
      chain chain' := by
  have hrate : config.feeBps.toNat ≤ 10000 :=
    hbounded a.configInfo.key config h.stored.2.1 h.stored.2.2
  have hfee : fee.toNat = ata.amount.toNat * config.feeBps.toNat / 10000 ∧ fee ≤ ata.amount := by
    rcases exactFees ata.amount config.feeBps hrate with ⟨fee', hok, hexact⟩
    rw [h.charged] at hok
    cases hok
    exact hexact
  have hholder : mintAndOwner rt chain a.invoiceAta.key =
      some (a.mint.key, (invoicePda rt programId invoiceId a.merchant.key a.mint.key).1) := by
    unfold mintAndOwner
    rw [h.unpacked, Option.map_some, h.holder.1, h.holder.2]
  have hinvoiceMint : HasMint rt chain a.invoiceAta.key a.mint.key := ⟨_, hholder⟩
  rcases h.calls with ⟨chain₁, chain₂, hpaid₁, hpaid₂, hclosed⟩
  refine ⟨h.stored, h.authority, h.invoiceAta, hholder, h.merchantAta, h.feeAta, ?_, ?_, ?_, hrate,
    hfee, toNat_saturatingSub hfee.2, hclosed.closed, ?_⟩
  · intro hpositive
    rcases hpaid₁.mint hpositive with ⟨mint, hsource, hdestination⟩
    rwa [hsource.unique hinvoiceMint] at hdestination
  · intro hpositive
    rcases hpaid₂.mint hpositive with ⟨mint, hsource, hdestination⟩
    unfold HasMint at hsource hdestination
    rw [hpaid₁.kept] at hsource hdestination
    have hmint : mint = a.mint.key := HasMint.unique hsource hinvoiceMint
    exact hmint ▸ hdestination
  · unfold balance
    rw [h.unpacked, Option.elim_some]
  · intro key hkey
    have hclose : balance rt chain' key = balance rt chain₂ key := by
      unfold balance
      rw [hclosed.others key hkey]
    rw [hclose, hpaid₂.credit key hkey, hpaid₁.credit key hkey]

/-! ## Whose the destinations are -/

def holder (rt : Runtime) (chain : Chain) (key : Pubkey) : Option Pubkey :=
  (mintAndOwner rt chain key).map Prod.snd

/-- Whichever destination gets a share is a token account of the mint and of its wallet. -/
structure Belong (rt : Runtime) (a : SettleAccounts) (config : Config) (fee toMerchant : Uint64)
    (chain : Chain) : Prop where
  merchant : 0 < toMerchant →
    mintAndOwner rt chain a.merchantAta.key = some (a.mint.key, a.merchant.key)
  feeRecipient : 0 < fee →
    mintAndOwner rt chain a.feeAta.key = some (a.mint.key, config.feeRecipient)

-- The associated token accounts that there are at first are their wallets'.
def OwnAtFirst (rt : Runtime) (chain : Chain) : Prop :=
  ∀ wallet mint other,
    holder rt chain (rt.getAssociatedTokenAddress wallet mint) = some other → other = wallet

-- In the run the associated token account of the wallet came into other hands, and is there still.
def HandedOver (rt : Runtime) (programId : Pubkey) (chain : Chain) (events : List Event)
    (wallet mint : Pubkey) : Prop :=
  ∃ pre event post chain' other, events = pre ++ event :: post ∧
    step rt programId (run (step rt programId) chain pre) event = .ok chain' ∧ other ≠ wallet ∧
    holder rt (run (step rt programId) chain pre)
      (rt.getAssociatedTokenAddress wallet mint) ≠ some other ∧
    ∀ mid, mid <+: post → holder rt (run (step rt programId) chain' mid)
      (rt.getAssociatedTokenAddress wallet mint) = some other

theorem holder_iff {events : List Event} {wallet mint : Pubkey} (hfirst : OwnAtFirst rt chain)
    (hmint : HasMint rt (run (step rt programId) chain events)
      (rt.getAssociatedTokenAddress wallet mint) mint) :
    mintAndOwner rt (run (step rt programId) chain events)
        (rt.getAssociatedTokenAddress wallet mint) = some (mint, wallet) ↔
      ¬HandedOver rt programId chain events wallet mint := by
  rcases hmint with ⟨other, hother⟩
  have hholder : holder rt (run (step rt programId) chain events)
      (rt.getAssociatedTokenAddress wallet mint) = some other := by
    unfold holder
    rw [hother, Option.map_some]
  rw [hother]
  apply Iff.intro
  · rintro heq ⟨pre, event, post, chain', other', rfl, hok, hne, -, hkept⟩
    have hlast := hkept post List.prefix_rfl
    rw [run_append, run_cons, commit_of_ok hok, hlast] at hholder
    cases hholder
    cases heq
    exact hne rfl
  · intro hnot
    by_contra hne
    have hother' : other ≠ wallet := by
      rintro rfl
      exact hne rfl
    -- the account was not this owner's at first
    have hbefore : ¬holder rt chain (rt.getAssociatedTokenAddress wallet mint) = some other :=
      fun hsame => hother' (hfirst wallet mint other hsame)
    rcases exists_rise
        (P := fun chain => holder rt chain (rt.getAssociatedTokenAddress wallet mint) = some other)
        hbefore hholder with ⟨pre, event, chain', post, hevents, hrise, hok, -, hkept⟩
    exact hnot ⟨pre, event, post, chain', other, hevents, hok, hother', hrise, hkept⟩

/-- Whatever instructions the program has had before, and whatever has happened beside it, an
accepted settlement pays out exactly what the invoice holds, and to accounts of the merchant and of
the fee recipient just when theirs have not come into other hands. -/
theorem settlement_of_run {events : List Event} {accounts : List AccountInfo} {data : Bytes}
    {invoiceId : U8x32} (hdoc : Documented rt programId)
    (hstart : ∀ key, (chain key).owner = programId → ∀ byte ∈ (chain key).data, byte = 0)
    (hfirst : OwnAtFirst rt chain) (hevents : ∀ event ∈ events, event.Respects programId)
    (hdata : CommerceInstruction.tryFromSlice data = some (.settle invoiceId))
    (hok : processInstruction rt programId accounts data
      (run (step rt programId) chain events) = .ok chain') :
    ExactFees ∧ ∃ a config amount fee toMerchant, settleAccounts accounts = .ok a ∧
      Settlement rt programId invoiceId a config amount fee toMerchant
        (run (step rt programId) chain events) chain' ∧
      (Belong rt a config fee toMerchant (run (step rt programId) chain events) ↔
        (0 < toMerchant → ¬HandedOver rt programId chain events a.merchant.key a.mint.key) ∧
          (0 < fee → ¬HandedOver rt programId chain events config.feeRecipient a.mint.key)) := by
  have hbounded := rateBounded_of_run hdoc hstart hevents
  have hsettle : settle rt programId accounts invoiceId (run (step rt programId) chain events) =
      .ok chain' := by
    unfold processInstruction at hok
    rw [hdata] at hok
    exact hok
  rcases settled_of_settle hdoc hsettle with ⟨a, config, ata, fee, haccounts, hsettled⟩
  have hsettlement := hsettled.settlement hbounded
  refine ⟨exactFees, a, config, ata.amount, fee, _, haccounts, hsettlement, ?_⟩
  have hmerchant : 0 < saturatingSub ata.amount fee →
      (mintAndOwner rt (run (step rt programId) chain events) a.merchantAta.key =
          some (a.mint.key, a.merchant.key) ↔
        ¬HandedOver rt programId chain events a.merchant.key a.mint.key) := by
    intro hshare
    have hmint := hsettlement.merchantMint hshare
    rw [hsettlement.merchantAta] at hmint ⊢
    exact holder_iff hfirst hmint
  have hrecipient : 0 < fee →
      (mintAndOwner rt (run (step rt programId) chain events) a.feeAta.key =
          some (a.mint.key, config.feeRecipient) ↔
        ¬HandedOver rt programId chain events config.feeRecipient a.mint.key) := by
    intro hshare
    have hmint := hsettlement.feeMint hshare
    rw [hsettlement.feeAta] at hmint ⊢
    exact holder_iff hfirst hmint
  apply Iff.intro
  · intro h
    exact ⟨fun hshare => (hmerchant hshare).mp (h.merchant hshare),
      fun hshare => (hrecipient hshare).mp (h.feeRecipient hshare)⟩
  · intro h
    exact ⟨fun hshare => (hmerchant hshare).mpr (h.1 hshare),
      fun hshare => (hrecipient hshare).mpr (h.2 hshare)⟩

/-! ## A run -/

-- Any hash will do for the addresses; the system program is the zero key.
def addressOf (bytes : Bytes) : Pubkey :=
  ⟨beBytes 32 (beNat bytes % (2 ^ 255 - 19)), length_beBytes ..⟩

def sampleRuntime : Runtime :=
  runtime (addressOf [6]) (addressOf [])
    (fun seeds programId => (addressOf (seeds.flatten ++ programId.val), 255))
    (fun wallet mint => addressOf (6 :: wallet.val ++ mint.val))

def sampleProgram : Pubkey := addressOf [7]
def sampleSweeper : Pubkey := addressOf [8]
def sampleFeeRecipient : Pubkey := addressOf [9]
def sampleMerchant : Pubkey := addressOf [10]
def sampleMint : Pubkey := addressOf [11]
def sampleInvoiceId : U8x32 := addressOf [12]

def sampleInvoice : Pubkey :=
  (invoicePda sampleRuntime sampleProgram sampleInvoiceId sampleMerchant sampleMint).1

def sampleAta (wallet : Pubkey) : Pubkey :=
  sampleRuntime.getAssociatedTokenAddress wallet sampleMint

def sampleTokens (wallet : Pubkey) (amount : Uint64) : Account :=
  ⟨sampleRuntime.tokenProgram, pack ⟨sampleMint, wallet, amount⟩
    (List.replicate 36 0 ++ 1 :: List.replicate 56 0)⟩

-- The token accounts of the invoice, of the merchant and of the fee recipient.
def sampleChain : Chain := fun key =>
  if key = sampleAta sampleInvoice then sampleTokens sampleInvoice 1001
  else if key = sampleAta sampleMerchant then sampleTokens sampleMerchant 5
  else if key = sampleAta sampleFeeRecipient then sampleTokens sampleFeeRecipient 0
  else ⟨addressOf [], []⟩

def emptyChain : Chain := fun _ => ⟨addressOf [], []⟩

def sampleEvents : List Event :=
  [.outside fun _ => sampleChain,
    .instruction
      [⟨sampleSweeper, true⟩, ⟨(configPda sampleRuntime sampleProgram).1, false⟩,
        ⟨addressOf [], false⟩]
      (0 :: (u16Bytes 250 ++ (sampleSweeper.val ++ sampleFeeRecipient.val)))]

def sampleAccounts : List AccountInfo :=
  [⟨sampleSweeper, true⟩, ⟨(configPda sampleRuntime sampleProgram).1, false⟩,
    ⟨sampleMerchant, false⟩, ⟨sampleInvoice, false⟩, ⟨sampleAta sampleInvoice, false⟩,
    ⟨sampleAta sampleMerchant, false⟩, ⟨sampleAta sampleFeeRecipient, false⟩, ⟨sampleMint, false⟩,
    ⟨sampleRuntime.tokenProgram, false⟩, ⟨sampleSweeper, false⟩]

theorem sampleChain_owner (key : Pubkey) : (sampleChain key).owner ≠ sampleProgram := by
  unfold sampleChain
  split
  · decide +kernel
  · split
    · decide +kernel
    · split <;> decide +kernel

-- An invoice of 1001 is settled at 250 basis points.
theorem settlement_of_sampleRun : ∃ chain',
    processInstruction sampleRuntime sampleProgram sampleAccounts (1 :: sampleInvoiceId.val)
      (run (step sampleRuntime sampleProgram) emptyChain sampleEvents) = .ok chain' ∧
    ExactFees ∧ ∃ a config amount fee toMerchant, settleAccounts sampleAccounts = .ok a ∧
      Settlement sampleRuntime sampleProgram sampleInvoiceId a config amount fee toMerchant
        (run (step sampleRuntime sampleProgram) emptyChain sampleEvents) chain' ∧
      (Belong sampleRuntime a config fee toMerchant
          (run (step sampleRuntime sampleProgram) emptyChain sampleEvents) ↔
        (0 < toMerchant → ¬HandedOver sampleRuntime sampleProgram emptyChain sampleEvents
            a.merchant.key a.mint.key) ∧
          (0 < fee → ¬HandedOver sampleRuntime sampleProgram emptyChain sampleEvents
            config.feeRecipient a.mint.key)) := by
  have hsucceeds : Succeeds (step sampleRuntime sampleProgram)
      (run (step sampleRuntime sampleProgram) emptyChain sampleEvents)
      (.instruction sampleAccounts (1 :: sampleInvoiceId.val)) := by decide +kernel
  rcases hsucceeds with ⟨chain', hok⟩
  refine ⟨chain', hok, settlement_of_run (documented_runtime (by decide +kernel)) ?_ ?_ ?_
    (by decide +kernel) hok⟩
  · intro key howner
    exact absurd howner (by unfold emptyChain; decide +kernel)
  · rintro wallet mint other hheld
    cases hheld
  · intro event hevent
    rcases List.mem_cons.mp hevent with rfl | hevent
    · exact fun _ key howner => absurd howner (sampleChain_owner key)
    · rw [List.mem_singleton.mp hevent]
      exact trivial

-- The merchant's associated token account comes into the hands of somebody else.
def handedOver : Event :=
  .outside fun chain => Function.update chain (sampleAta sampleMerchant) (sampleTokens sampleSweeper 5)

/-- A settlement is accepted that pays into an account that is not the merchant's any more. -/
theorem handed_over_account_paid : ∃ chain',
    processInstruction sampleRuntime sampleProgram sampleAccounts (1 :: sampleInvoiceId.val)
      (run (step sampleRuntime sampleProgram) emptyChain (sampleEvents ++ [handedOver])) =
        .ok chain' ∧
    balance sampleRuntime chain' (sampleAta sampleMerchant) = 5 + 976 ∧
    mintAndOwner sampleRuntime
        (run (step sampleRuntime sampleProgram) emptyChain (sampleEvents ++ [handedOver]))
        (sampleAta sampleMerchant) = some (sampleMint, sampleSweeper) ∧
    ∀ config fee, ∀ a, settleAccounts sampleAccounts = .ok a →
      ¬Belong sampleRuntime a config fee 976
        (run (step sampleRuntime sampleProgram) emptyChain (sampleEvents ++ [handedOver])) := by
  have hpaid : ((processInstruction sampleRuntime sampleProgram sampleAccounts
      (1 :: sampleInvoiceId.val)
      (run (step sampleRuntime sampleProgram) emptyChain (sampleEvents ++ [handedOver]))).map
        fun chain => balance sampleRuntime chain (sampleAta sampleMerchant)) = .ok 981 := by
    decide +kernel
  have hholder : mintAndOwner sampleRuntime
      (run (step sampleRuntime sampleProgram) emptyChain (sampleEvents ++ [handedOver]))
      (sampleAta sampleMerchant) = some (sampleMint, sampleSweeper) := by
    decide +kernel
  cases hok : processInstruction sampleRuntime sampleProgram sampleAccounts
      (1 :: sampleInvoiceId.val)
      (run (step sampleRuntime sampleProgram) emptyChain (sampleEvents ++ [handedOver])) with
  | error e =>
    rw [hok] at hpaid
    cases hpaid
  | ok chain' =>
    rw [hok] at hpaid
    refine ⟨chain', rfl, Except.ok.inj hpaid, hholder, ?_⟩
    rintro config fee a ha hbelong
    cases ha
    have hmerchant := hbelong.merchant (by decide)
    rw [hholder] at hmerchant
    revert hmerchant
    decide +kernel

end OnchainInvoice.CommerceInvoice
