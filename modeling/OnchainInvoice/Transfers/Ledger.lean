import OnchainInvoice.Persist.WalletViews
import OnchainInvoice.Transfers.WalletTransfers

/-!
# One row for each transfer

The entries of a ledger are the pairs of a wallet and a transfer that it took part in.  Drafts are
matched to rows by their keys alone, so the ledger is exact as long as drafts share a key just when
they are about one entry.
-/

namespace OnchainInvoice.Transfers

open Server WalletLog

/-! ## Entries -/

-- A token transfer of the chain; texts in lower case.
structure Transfer where
  chainId : String
  txHash : String
  logIndex : Nat
  tokenAddress : String
  sender : String
  recipient : String
  amount : String
deriving DecidableEq

structure Entry where
  wallet : String
  transfer : Transfer
deriving DecidableEq

-- The wallet's own side; a transfer of a wallet to itself has both.
def Entry.side (entry : Entry) (direction : Direction) (counterparty : String) : Prop :=
  match direction with
  | .incoming => entry.wallet = entry.transfer.recipient ∧ counterparty = entry.transfer.sender
  | .outgoing => entry.wallet = entry.transfer.sender ∧ counterparty = entry.transfer.recipient

-- The row tells the entry, the direction included; its log index may be made up.
structure TransferDraft.Tells (row : TransferDraft) (entry : Entry) : Prop where
  wallet : row.walletAddress = entry.wallet
  chain : row.chainId = entry.transfer.chainId
  tx : row.txHash = entry.transfer.txHash
  token : row.tokenAddress = entry.transfer.tokenAddress
  amount : row.amount = entry.transfer.amount
  side : entry.side row.direction row.counterparty

-- A draft that one of the sources makes of a transfer.
structure Observation where
  draft : TransferDraft
  entry : Entry
  tells : draft.lower.Tells entry

/-! ## What the sources tell -/

section Sources

variable {ethers : Ethers} {draft : TransferDraft}

-- The checksum of an address is in its letters' case.
structure Ethers.Checksums (ethers : Ethers) : Prop where
  text : ∀ text address, ethers.getAddress text = some address → startsWith text "0x" = true →
    lowerCase address = lowerCase text
  recipient : ∀ data xfer, ethers.decodeErc20TransferCall data = some xfer →
    startsWith xfer.recipient "0x" = true

def ExplorerTokentx.transfer (row : ExplorerTokentx) (chainId : String) : Transfer :=
  ⟨chainId, lowerCase (row.hash.getD ""), row.log, row.token, lowerCase (row.sender.getD ""),
    lowerCase (row.recipient.getD ""), row.value.getD "0"⟩

/-- The draft of an explorer row tells the row's transfer, and is not the wallet's fee. -/
theorem draftFromExplorer_tells {ctx : ExplorerContext} {row : ExplorerTokentx}
    (hethers : ethers.Checksums) (hwallet : lowerCase ctx.wallet = ctx.wallet)
    (hsender : startsWith (lowerCase (row.sender.getD "")) "0x" = true)
    (hrecipient : startsWith (lowerCase (row.recipient.getD "")) "0x" = true)
    (h : draftFromExplorer ethers ctx row = some draft) :
    draft.lower.Tells ⟨ctx.wallet, row.transfer ctx.chainId⟩ ∧
      ¬((row.transfer ctx.chainId).sender = ctx.wallet ∧
        ctx.isFee (row.transfer ctx.chainId).recipient row.token = true) := by
  simp only [draftFromExplorer, Option.bind_eq_bind, Option.bind_eq_some_iff,
    Option.guard_eq_some', Option.pure_def, Option.some.injEq, exists_const] at h
  obtain ⟨hbefore, token, -, hside, hfee, tokenAddress, htoken, counterparty, hcounterparty,
    rfl⟩ := h
  have htoken' : lowerCase tokenAddress = lowerCase row.token :=
    hethers.text _ _ htoken (Bool.and_eq_true_iff.mp hbefore).2
  have hx : startsWith (if lowerCase (row.recipient.getD "") = ctx.wallet then
      lowerCase (row.sender.getD "") else lowerCase (row.recipient.getD "")) "0x" = true := by
    split
    · exact hsender
    · exact hrecipient
  have hother := hethers.text _ _ hcounterparty hx
  apply And.intro
  · apply TransferDraft.Tells.mk <;>
      dsimp only [TransferDraft.lower, ExplorerTokentx.transfer, ExplorerTokentx.token]
    · exact hwallet
    · rw [lowerCase_lowerCase]
    · rw [lowerCase_lowerCase, htoken', ExplorerTokentx.token, lowerCase_lowerCase]
    · rw [lowerCase_lowerCase, hother]
      by_cases hin : lowerCase (row.recipient.getD "") = ctx.wallet
      · rw [if_pos hin, if_pos hin, lowerCase_lowerCase]
        exact ⟨hin.symm, rfl⟩
      · rw [if_neg hin, if_neg hin, lowerCase_lowerCase]
        have hout : lowerCase (row.sender.getD "") = ctx.wallet := by simpa [hin] using hside
        exact ⟨hout.symm, rfl⟩
  · rw [not_and_or]
    simpa [ExplorerTokentx.transfer] using hfee

variable {executed : Executed}

-- The wallet and the tokens are written with their `0x`.
structure Executed.Prefixed (executed : Executed) : Prop where
  wallet : startsWith executed.walletAddress "0x" = true
  tokens : ∀ token ∈ executed.stables, startsWith token.address "0x" = true

-- `logIndex` is where the transfer's log really is.
def Executed.transfer (executed : Executed) (target : String) (xfer : Erc20Transfer)
    (logIndex : Nat) : Transfer :=
  ⟨executed.chainId, lowerCase executed.txHash, logIndex, lowerCase target,
    lowerCase executed.walletAddress, lowerCase xfer.recipient, toString xfer.amount⟩

/-- A draft tells the transfer that a call decodes to, and no fee of the bundler. -/
def TransferDraft.OfCall (draft : TransferDraft) (ethers : Ethers) (executed : Executed)
    (target data : String) : Prop :=
  ∃ xfer, ethers.decodeErc20TransferCall data = some xfer ∧
    isBundlerFeeTransfer target xfer.recipient executed.feeTokenAddress
      executed.bundlerBeneficiary = false ∧
    ∀ logIndex, draft.lower.Tells
      ⟨lowerCase executed.walletAddress, executed.transfer target xfer logIndex⟩

theorem draftOut_ofCall {target data : String} {token : WalletStableToken} {xfer : Erc20Transfer}
    {logIndex : Nat} {source : TransferSource} {userOpHash proposalId : Option String}
    (hethers : ethers.Checksums) (hbefore : executed.Prefixed)
    (hcall : outgoingTransfer ethers executed target data = some (token, xfer))
    (h : draftOut ethers executed token xfer logIndex source userOpHash proposalId = some draft) :
    draft.OfCall ethers executed target data := by
  simp only [outgoingTransfer, Option.bind_eq_bind, Option.bind_eq_some_iff] at hcall
  obtain ⟨token', htoken', xfer', hxfer, hcall⟩ := hcall
  split at hcall
  · exact absurd hcall (by simp)
  rename_i hfee
  simp only [Option.pure_def, Option.some.injEq, Prod.mk.injEq] at hcall
  obtain ⟨rfl, rfl⟩ := hcall
  simp only [draftOut, Option.bind_eq_bind, Option.bind_eq_some_iff, Option.pure_def,
    Option.some.injEq] at h
  obtain ⟨wallet, hwallet, tokenAddress, htoken, counterparty, hcounterparty, rfl⟩ := h
  have haddress : lowerCase token'.address = lowerCase target := by
    simpa using List.find?_some htoken'
  have htx := hbefore.tokens _ (List.mem_reverse.mp (List.mem_of_find?_eq_some htoken'))
  have hwallet' := hethers.text _ _ hwallet hbefore.wallet
  have htoken'' := hethers.text _ _ htoken htx
  have hother := hethers.text _ _ hcounterparty (hethers.recipient _ _ hxfer)
  refine ⟨xfer', hxfer, by simpa using hfee, fun logIndex => ?_⟩
  apply TransferDraft.Tells.mk <;> dsimp only [TransferDraft.lower, Executed.transfer]
  · rw [lowerCase_lowerCase, hwallet']
  · rw [lowerCase_lowerCase]
  · rw [lowerCase_lowerCase, htoken'', haddress]
  · rw [lowerCase_lowerCase, hother]
    exact ⟨rfl, rfl⟩

theorem draftsOfCalls_ofCall {userOpHash : String} {logIndex : Nat} {calls : List BatchCall}
    {drafts : List TransferDraft} (hethers : ethers.Checksums)
    (hbefore : executed.Prefixed)
    (h : draftsOfCalls ethers executed userOpHash logIndex calls = some drafts)
    (hdraft : draft ∈ drafts) :
    ∃ call ∈ calls, draft.OfCall ethers executed call.target call.data := by
  induction calls generalizing logIndex drafts with
  | nil =>
    obtain rfl : [] = drafts := Option.some.inj h
    exact absurd hdraft List.not_mem_nil
  | cons call calls ih =>
    unfold draftsOfCalls at h
    split at h
    · obtain ⟨call', hcall', hof⟩ := ih h hdraft
      exact ⟨call', List.mem_cons_of_mem _ hcall', hof⟩
    · rename_i token xfer hcall
      simp only [Option.bind_eq_bind, Option.bind_eq_some_iff, Option.pure_def,
        Option.some.injEq] at h
      obtain ⟨first, hfirst, rest, hrest, rfl⟩ := h
      rcases List.mem_cons.mp hdraft with rfl | hdraft
      · exact ⟨call, List.mem_cons_self, draftOut_ofCall hethers hbefore hcall hfirst⟩
      · obtain ⟨call', hcall', hof⟩ := ih hrest hdraft
        exact ⟨call', List.mem_cons_of_mem _ hcall', hof⟩

theorem outgoingTransferFromProposal_ofCall {proposalId target data : String}
    (hethers : ethers.Checksums) (hbefore : executed.Prefixed)
    (h : outgoingTransferFromProposal ethers executed proposalId target data = some (some draft)) :
    draft.OfCall ethers executed target data := by
  unfold outgoingTransferFromProposal at h
  split at h
  · exact absurd h (by simp)
  · rename_i token xfer hcall
    obtain ⟨draft', hdraft', heq⟩ := Option.map_eq_some_iff.mp h
    obtain rfl := Option.some.inj heq
    exact draftOut_ofCall hethers hbefore hcall hdraft'

end Sources

/-! ## Runs -/

-- An upsert that throws leaves the table as it was.
def deliver (rows : WalletTransfers) (draft : TransferDraft) : WalletTransfers :=
  (upsertWalletTransfer rows draft).getD rows

def ledgerOf (run : List Observation) : WalletTransfers :=
  run.foldl (fun rows o => deliver rows o.draft) []

-- The rows are the observed entries, one for one.
structure Exact (run : List Observation) (rows : WalletTransfers) (entries : List Entry) : Prop where
  nodup : entries.Nodup
  observed : ∀ entry, entry ∈ entries ↔ ∃ o ∈ run, o.entry = entry
  tells : List.Forall₂ TransferDraft.Tells rows entries

-- Whatever the order of the deliveries, and however often they are repeated.
def LedgerExact (observations : List Observation) : Prop :=
  ∀ run, (∀ o ∈ run, o ∈ observations) →
    (∃ entries, Exact run (ledgerOf run) entries) ∧
      ∀ o ∈ run, deliver (ledgerOf run) o.draft = ledgerOf run

def TransferDraft.Meets (a b : TransferDraft) : Prop := a.semantic = b.semantic ∨ a.logKey = b.logKey

instance (a b : TransferDraft) : Decidable (a.Meets b) := inferInstanceAs (Decidable (_ ∨ _))

-- Two drafts share the columns of one of the two queries just when they are about one entry.
def Distinguished (observations : List Observation) : Prop :=
  ∀ a ∈ observations, ∀ b ∈ observations, a.entry = b.entry ↔ a.draft.lower.Meets b.draft.lower

/-! ## The table's queries -/

section Queries

variable {found : TransferDraft → Bool} (update : TransferDraft → TransferDraft)
  {row draft : TransferDraft} {before after rows : WalletTransfers}

theorem updateFirst_eq_none (h : ∀ row ∈ rows, found row = false) :
    updateFirst found update rows = none := by
  induction rows with
  | nil => rfl
  | cons row rows ih =>
    have hrest := ih fun other hother => h other (List.mem_cons_of_mem _ hother)
    simp [updateFirst, h row List.mem_cons_self, hrest]

theorem updateFirst_middle (after : WalletTransfers) (h : ∀ other ∈ before, found other = false)
    (hrow : found row = true) :
    updateFirst found update (before ++ row :: after) = some (before ++ update row :: after) := by
  induction before with
  | nil => simp [updateFirst, hrow]
  | cons other before ih =>
    have hrest := ih fun other hother => h other (List.mem_cons_of_mem _ hother)
    simp [updateFirst, h other List.mem_cons_self, hrest]

/-- A draft that meets no row becomes one. -/
theorem upsert_new (h : ∀ row ∈ rows, ¬row.Meets draft.lower) :
    upsertWalletTransfer rows draft = some (rows ++ [draft.lower]) := by
  have hsemantic := updateFirst_eq_none draft.lower.merge
    fun row hrow => decide_eq_false fun heq => h row hrow (.inl heq)
  have hlog := updateFirst_eq_none draft.lower.merge
    fun row hrow => decide_eq_false fun heq => h row hrow (.inr heq)
  simp only [upsertWalletTransfer, hsemantic, hlog, Option.or_none]

/-- A draft that meets one row alone is merged into it. -/
theorem upsert_meeting (hbefore : ∀ other ∈ before, ¬other.Meets draft.lower)
    (hrow : row.Meets draft.lower) (hafter : ∀ other ∈ after, ¬other.Meets draft.lower)
    (hunique : ((before ++ draft.lower.merge row :: after).map TransferDraft.logKey).Nodup) :
    upsertWalletTransfer (before ++ row :: after) draft =
      some (before ++ draft.lower.merge row :: after) := by
  by_cases hsemantic : row.semantic = draft.lower.semantic
  · have hfirst := updateFirst_middle draft.lower.merge after
      (fun other hother => decide_eq_false fun heq => hbefore other hother (.inl heq))
      (decide_eq_true hsemantic)
    simp only [upsertWalletTransfer, hfirst, Option.some_or, if_pos hunique]
  · have hlog := hrow.resolve_left hsemantic
    have hnone : updateFirst (fun row => row.semantic = draft.lower.semantic) draft.lower.merge
        (before ++ row :: after) = none := by
      apply updateFirst_eq_none
      intro other hother
      apply decide_eq_false
      rcases List.mem_append.mp hother with hother | hother
      · exact fun heq => hbefore other hother (.inl heq)
      · rcases List.mem_cons.mp hother with rfl | hother
        · exact hsemantic
        · exact fun heq => hafter other hother (.inl heq)
    have hfirst := updateFirst_middle draft.lower.merge after
      (fun other hother => decide_eq_false fun heq => hbefore other hother (.inr heq))
      (decide_eq_true hlog)
    simp only [upsertWalletTransfer, hnone, hfirst, Option.none_or, if_pos hunique]

end Queries

/-! ## Merging -/

section Merging

variable {a b row : TransferDraft} {entry : Entry}

theorem merge_tells (h : row.Tells entry) : (a.merge row).Tells entry :=
  ⟨h.wallet, h.chain, h.tx, h.token, h.amount, h.side⟩

theorem merge_logKey (hchain : a.chainId = row.chainId) (htx : a.txHash = row.txHash) :
    (a.merge row).logKey = a.logKey ∨ (a.merge row).logKey = row.logKey := by
  by_cases h : row.logIndex < a.logIndex
  · left
    simp only [TransferDraft.logKey, TransferDraft.merge, if_pos h, hchain, htx]
  · right
    simp only [TransferDraft.logKey, TransferDraft.merge, if_neg h]

-- What a draft would still change in the row.
theorem merge_eq_self : a.merge row = row ↔
    a.logIndex ≤ row.logIndex ∧ a.blockNumber ≤ row.blockNumber ∧
      (row.managed = true ∨ a.source = row.source) ∧
      row.userOpHash.or a.userOpHash = row.userOpHash ∧
      row.proposalId.or a.proposalId = row.proposalId := by
  cases row
  simp only [TransferDraft.merge, TransferDraft.mk.injEq, true_and, and_true]
  grind

theorem or_or_of_or {α : Type} {x y z : Option α} (h : x.or z = x) : (x.or y).or z = x.or y := by
  cases x with
  | none =>
    rw [Option.none_or] at h ⊢
    rw [h, Option.or_none]
  | some x => rfl

theorem managed_merge (h : row.managed = true) : (a.merge row).managed = true := by
  have hsource : (a.merge row).source = row.source := if_pos h
  unfold TransferDraft.managed
  rw [hsource]
  exact h

theorem merge_stays (h : b.merge row = row) : b.merge (a.merge row) = a.merge row := by
  obtain ⟨hlog, hblock, hsource, huserOp, hproposal⟩ := merge_eq_self.mp h
  refine merge_eq_self.mpr ⟨?_, ?_, ?_, or_or_of_or huserOp, or_or_of_or hproposal⟩
  · dsimp only [TransferDraft.merge]
    split <;> omega
  · dsimp only [TransferDraft.merge]
    split <;> omega
  · by_cases hmanaged : row.managed = true
    · exact .inl (managed_merge hmanaged)
    · -- the row and `b` come from the explorer, and `a` may not
      have hb : b.source = row.source := hsource.resolve_left hmanaged
      cases ha : a.source <;> cases hrow : row.source <;>
        simp_all [TransferDraft.managed, TransferDraft.merge]

/-- What a merge takes over it keeps when the draft comes again. -/
theorem merge_merge : a.merge (a.merge row) = a.merge row := by
  refine merge_eq_self.mpr ⟨?_, ?_, ?_, ?_, ?_⟩
  · dsimp only [TransferDraft.merge]
    split <;> omega
  · dsimp only [TransferDraft.merge]
    split <;> omega
  · by_cases hmanaged : row.managed = true
    · exact .inl (managed_merge hmanaged)
    · right
      simp only [TransferDraft.merge, if_neg hmanaged]
  · exact (Option.or_assoc ..).trans (congrArg _ (Option.or_self ..))
  · exact (Option.or_assoc ..).trans (congrArg _ (Option.or_self ..))

end Merging

/-! ## Rows and the entries they are of -/

-- Each row with its entry; a row's keys are those of drafts of the entry.
structure Tracks (run : List Observation) (tagged : List (TransferDraft × Entry)) : Prop where
  nodup : (tagged.map Prod.snd).Nodup
  observed : ∀ entry, entry ∈ tagged.map Prod.snd ↔ ∃ o ∈ run, o.entry = entry
  tells : ∀ p ∈ tagged, p.1.Tells p.2
  semantic : ∀ p ∈ tagged, ∃ o ∈ run, o.entry = p.2 ∧ p.1.semantic = o.draft.lower.semantic
  logKey : ∀ p ∈ tagged, ∃ o ∈ run, o.entry = p.2 ∧ p.1.logKey = o.draft.lower.logKey
  merged : ∀ p ∈ tagged, ∀ o ∈ run, o.entry = p.2 → o.draft.lower.merge p.1 = p.1

section Tracking

variable {observations run : List Observation} {tagged : List (TransferDraft × Entry)}
  {o : Observation}

theorem Tracks.exact (h : Tracks run tagged) :
    Exact run (tagged.map Prod.fst) (tagged.map Prod.snd) where
  nodup := h.nodup
  observed := h.observed
  tells := by
    rw [List.forall₂_map_left_iff, List.forall₂_map_right_iff, List.forall₂_same]
    exact h.tells

/-- Rows of different entries have different log keys. -/
theorem Tracks.nodup_logKey (h : Tracks run tagged) (hdist : Distinguished run) :
    ((tagged.map Prod.fst).map TransferDraft.logKey).Nodup := by
  rw [List.map_map]
  have hpairs := List.pairwise_map.mp h.nodup
  refine List.pairwise_map.mpr (hpairs.imp_of_mem ?_)
  intro p q hp hq hne heq
  obtain ⟨a, ha, hap, hakey⟩ := h.logKey p hp
  obtain ⟨b, hb, hbq, hbkey⟩ := h.logKey q hq
  have hmeets : a.draft.lower.Meets b.draft.lower := .inr (hakey ▸ hbkey ▸ heq)
  exact hne (hap ▸ hbq ▸ (hdist a ha b hb).mpr hmeets)

/-- A row meets the drafts of its own entry and no others. -/
theorem Tracks.meets_iff (h : Tracks run tagged) (hdist : Distinguished observations)
    (hrun : ∀ o ∈ run, o ∈ observations) (ho : o ∈ observations)
    {p : TransferDraft × Entry} (hp : p ∈ tagged) :
    p.1.Meets o.draft.lower ↔ p.2 = o.entry := by
  obtain ⟨a, ha, hap, hsemantic⟩ := h.semantic p hp
  obtain ⟨b, hb, hbp, hlog⟩ := h.logKey p hp
  have hao := hdist a (hrun a ha) o ho
  have hbo := hdist b (hrun b hb) o ho
  have hab := hdist a (hrun a ha) b (hrun b hb)
  simp only [TransferDraft.Meets, hap, hbp, true_iff] at hao hbo hab ⊢
  rw [hsemantic, hlog]
  apply Iff.intro
  · rintro (heq | heq)
    · exact hao.mpr (.inl heq)
    · exact hbo.mpr (.inr heq)
  · intro hentry
    -- `a` gave the row its content, `b` its log index
    have ha' := hao.mp hentry
    have hb' := hbo.mp hentry
    grind

theorem Tracks.empty : Tracks [] [] where
  nodup := List.nodup_nil
  observed entry := by simp
  tells p hp := absurd hp List.not_mem_nil
  semantic p hp := absurd hp List.not_mem_nil
  logKey p hp := absurd hp List.not_mem_nil
  merged p hp := absurd hp List.not_mem_nil

theorem Distinguished.mono (h : Distinguished observations)
    (hrun : ∀ o ∈ run, o ∈ observations) : Distinguished run :=
  fun a ha b hb => h a (hrun a ha) b (hrun b hb)

/-- The row of an entry stands alone in the table. -/
theorem Tracks.split (h : Tracks run tagged) {entry : Entry} (hentry : entry ∈ tagged.map Prod.snd) :
    ∃ before p after, tagged = before ++ p :: after ∧ p.2 = entry ∧
      (∀ q ∈ before, q.2 ≠ entry) ∧ ∀ q ∈ after, q.2 ≠ entry := by
  obtain ⟨p, hp, rfl⟩ := List.mem_map.mp hentry
  obtain ⟨before, after, rfl⟩ := List.mem_iff_append.mp hp
  refine ⟨before, p, after, rfl, rfl, ?_, ?_⟩
  · intro q hq heq
    have hnodup := h.nodup
    rw [List.map_append, List.map_cons] at hnodup
    exact (List.nodup_append.mp hnodup).2.2 q.2 (List.mem_map_of_mem hq) p.2
      List.mem_cons_self heq
  · intro q hq heq
    have hnodup := h.nodup
    rw [List.map_append, List.map_cons] at hnodup
    have hafter := (List.nodup_append.mp hnodup).2.1
    exact (List.nodup_cons.mp hafter).1 (heq ▸ List.mem_map_of_mem hq)

-- The other rows stay as they are, and the row of the entry takes in the draft.
theorem Tracks.merge {before after : List (TransferDraft × Entry)} {p : TransferDraft × Entry}
    (h : Tracks run (before ++ p :: after)) (hp : p.2 = o.entry)
    (hbefore : ∀ q ∈ before, q.2 ≠ o.entry) (hafter : ∀ q ∈ after, q.2 ≠ o.entry) :
    Tracks (run ++ [o]) (before ++ (o.draft.lower.merge p.1, p.2) :: after) := by
  have hmem : p ∈ before ++ p :: after := List.mem_append_right _ List.mem_cons_self
  have hrows : ∀ q ∈ before ++ (o.draft.lower.merge p.1, p.2) :: after,
      q = (o.draft.lower.merge p.1, p.2) ∨ q ∈ before ++ p :: after ∧ q.2 ≠ o.entry := by
    intro q hq
    rcases List.mem_append.mp hq with hq | hq
    · exact .inr ⟨List.mem_append_left _ hq, hbefore q hq⟩
    · rcases List.mem_cons.mp hq with rfl | hq
      · exact .inl rfl
      · exact .inr ⟨List.mem_append_right _ (List.mem_cons_of_mem _ hq), hafter q hq⟩
  have hsnd : (before ++ (o.draft.lower.merge p.1, p.2) :: after).map Prod.snd =
      (before ++ p :: after).map Prod.snd := by
    simp only [List.map_append, List.map_cons]
  have hp1 := h.tells p hmem
  refine ⟨?_, ?_, ?_, ?_, ?_, ?_⟩
  · rw [hsnd]
    exact h.nodup
  · intro entry
    rw [hsnd, h.observed]
    obtain ⟨a, ha, hap⟩ := (h.observed p.2).mp (List.mem_map_of_mem hmem)
    grind
  · intro q hq
    rcases hrows q hq with rfl | ⟨hq, -⟩
    · exact merge_tells hp1
    · exact h.tells q hq
  · intro q hq
    rcases hrows q hq with rfl | ⟨hq, -⟩
    · obtain ⟨a, ha, hentry, hsemantic⟩ := h.semantic p hmem
      exact ⟨a, List.mem_append_left _ ha, hentry, hsemantic⟩
    · obtain ⟨a, ha, hentry, hsemantic⟩ := h.semantic q hq
      exact ⟨a, List.mem_append_left _ ha, hentry, hsemantic⟩
  · intro q hq
    rcases hrows q hq with rfl | ⟨hq, -⟩
    · have ho := o.tells
      have hchain : o.draft.lower.chainId = p.1.chainId := by rw [ho.chain, hp1.chain, hp]
      have htx : o.draft.lower.txHash = p.1.txHash := by rw [ho.tx, hp1.tx, hp]
      rcases merge_logKey hchain htx with hkey | hkey
      · exact ⟨o, List.mem_append_right _ (List.mem_singleton_self _), hp.symm, hkey⟩
      · obtain ⟨a, ha, hentry, hlog⟩ := h.logKey p hmem
        exact ⟨a, List.mem_append_left _ ha, hentry, hkey.trans hlog⟩
    · obtain ⟨a, ha, hentry, hlog⟩ := h.logKey q hq
      exact ⟨a, List.mem_append_left _ ha, hentry, hlog⟩
  · intro q hq a ha hentry
    rcases List.mem_append.mp ha with ha | ha
    · rcases hrows q hq with rfl | ⟨hq, -⟩
      · exact merge_stays (h.merged p hmem a ha hentry)
      · exact h.merged q hq a ha hentry
    · rw [List.mem_singleton] at ha
      subst ha
      rcases hrows q hq with rfl | ⟨-, hne⟩
      · exact merge_merge
      · exact absurd hentry.symm hne

theorem Tracks.add (h : Tracks run tagged) (hnew : o.entry ∉ tagged.map Prod.snd) :
    Tracks (run ++ [o]) (tagged ++ [(o.draft.lower, o.entry)]) := by
  have hself : o ∈ run ++ [o] := List.mem_append_right _ (List.mem_singleton_self _)
  have hrows : ∀ q ∈ tagged ++ [(o.draft.lower, o.entry)],
      q = (o.draft.lower, o.entry) ∨ q ∈ tagged := by
    intro q hq
    rcases List.mem_append.mp hq with hq | hq
    · exact .inr hq
    · exact .inl (List.mem_singleton.mp hq)
  refine ⟨?_, ?_, ?_, ?_, ?_, ?_⟩
  · rw [List.map_append]
    exact List.nodup_append'.mpr ⟨h.nodup, List.nodup_singleton _, by simpa using hnew⟩
  · intro entry
    rw [List.map_append, List.mem_append, h.observed]
    simp only [List.map_cons, List.map_nil, List.mem_singleton, List.mem_append]
    grind
  · intro q hq
    rcases hrows q hq with rfl | hq
    · exact o.tells
    · exact h.tells q hq
  · intro q hq
    rcases hrows q hq with rfl | hq
    · exact ⟨o, hself, rfl, rfl⟩
    · obtain ⟨a, ha, hentry, hsemantic⟩ := h.semantic q hq
      exact ⟨a, List.mem_append_left _ ha, hentry, hsemantic⟩
  · intro q hq
    rcases hrows q hq with rfl | hq
    · exact ⟨o, hself, rfl, rfl⟩
    · obtain ⟨a, ha, hentry, hlog⟩ := h.logKey q hq
      exact ⟨a, List.mem_append_left _ ha, hentry, hlog⟩
  · intro q hq a ha hentry
    rcases hrows q hq with rfl | hold
    · -- no draft of the entry came before
      rcases List.mem_append.mp ha with ha | ha
      · exact absurd ((h.observed _).mpr ⟨a, ha, hentry⟩) hnew
      · rw [List.mem_singleton] at ha
        subst ha
        exact merge_eq_self.mpr
          ⟨Nat.le_refl _, Nat.le_refl _, .inr rfl, Option.or_self .., Option.or_self ..⟩
    · rcases List.mem_append.mp ha with ha | ha
      · exact h.merged q hold a ha hentry
      · rw [List.mem_singleton] at ha
        subst ha
        exact absurd (List.mem_map.mpr ⟨q, hold, hentry.symm⟩) hnew

/-- A draft of an entry that has a row goes into that row. -/
theorem Tracks.upsert_known {before after : List (TransferDraft × Entry)}
    {p : TransferDraft × Entry} (h : Tracks run (before ++ p :: after))
    (hdist : Distinguished observations) (hrun : ∀ o ∈ run, o ∈ observations)
    (ho : o ∈ observations) (hp : p.2 = o.entry)
    (hbefore : ∀ q ∈ before, q.2 ≠ o.entry) (hafter : ∀ q ∈ after, q.2 ≠ o.entry)
    (hunique : (((before ++ (o.draft.lower.merge p.1, p.2) :: after).map Prod.fst).map
      TransferDraft.logKey).Nodup) :
    upsertWalletTransfer ((before ++ p :: after).map Prod.fst) o.draft =
      some ((before ++ (o.draft.lower.merge p.1, p.2) :: after).map Prod.fst) := by
  have hmeets := fun q hq => h.meets_iff hdist hrun ho (p := q) hq
  rw [List.map_append, List.map_cons] at hunique ⊢
  rw [List.map_append, List.map_cons]
  refine upsert_meeting ?_ ((hmeets p (List.mem_append_right _ List.mem_cons_self)).mpr hp) ?_ hunique
  · intro other hother
    obtain ⟨q, hq, rfl⟩ := List.mem_map.mp hother
    exact fun hq' => hbefore q hq ((hmeets q (List.mem_append_left _ hq)).mp hq')
  · intro other hother
    obtain ⟨q, hq, rfl⟩ := List.mem_map.mp hother
    exact fun hq' => hafter q hq
      ((hmeets q (List.mem_append_right _ (List.mem_cons_of_mem _ hq))).mp hq')

/-- One more delivery, which breaks no index. -/
theorem Tracks.next (h : Tracks run tagged) (hdist : Distinguished observations)
    (hrun : ∀ o ∈ run, o ∈ observations) (ho : o ∈ observations) :
    ∃ tagged', Tracks (run ++ [o]) tagged' ∧
      upsertWalletTransfer (tagged.map Prod.fst) o.draft = some (tagged'.map Prod.fst) := by
  by_cases hentry : o.entry ∈ tagged.map Prod.snd
  · obtain ⟨before, p, after, rfl, hp, hbefore, hafter⟩ := h.split hentry
    have hmerged := h.merge hp hbefore hafter
    have hrun' : ∀ a ∈ run ++ [o], a ∈ observations := by
      intro a ha
      rcases List.mem_append.mp ha with ha | ha
      · exact hrun a ha
      · exact List.mem_singleton.mp ha ▸ ho
    have hunique := hmerged.nodup_logKey (hdist.mono hrun')
    exact ⟨_, hmerged, h.upsert_known hdist hrun ho hp hbefore hafter hunique⟩
  · refine ⟨_, h.add hentry, ?_⟩
    rw [upsert_new, List.map_append, List.map_cons, List.map_nil]
    intro other hother hmeets
    obtain ⟨q, hq, rfl⟩ := List.mem_map.mp hother
    exact hentry ((h.meets_iff hdist hrun ho hq).mp hmeets ▸ List.mem_map_of_mem hq)

/-- A draft that has been delivered finds nothing to change. -/
theorem Tracks.again (h : Tracks run tagged) (hdist : Distinguished run) (ho : o ∈ run) :
    deliver (tagged.map Prod.fst) o.draft = tagged.map Prod.fst := by
  obtain ⟨before, p, after, rfl, hp, hbefore, hafter⟩ :=
    h.split ((h.observed _).mpr ⟨o, ho, rfl⟩)
  have hsame := h.merged p (List.mem_append_right _ List.mem_cons_self) o ho hp.symm
  have hknown := h.upsert_known hdist (fun _ ha => ha) ho hp hbefore hafter
  rw [hsame] at hknown
  unfold deliver
  rw [hknown (h.nodup_logKey hdist), Option.getD_some]

theorem ledgerOf_concat : ledgerOf (run ++ [o]) = deliver (ledgerOf run) o.draft :=
  List.foldl_concat ..

/-- A run, delivery by delivery. -/
theorem tracks_ledgerOf (hdist : Distinguished observations) (run : List Observation)
    (hrun : ∀ o ∈ run, o ∈ observations) :
    ∃ tagged, Tracks run tagged ∧ ledgerOf run = tagged.map Prod.fst := by
  induction run using List.reverseRecOn with
  | nil => exact ⟨[], Tracks.empty, rfl⟩
  | append_singleton run o ih =>
    have hrun' := fun a ha => hrun a (List.mem_append_left _ ha)
    obtain ⟨tagged, htracks, hledger⟩ := ih hrun'
    obtain ⟨tagged', htracks', hupsert⟩ := htracks.next hdist hrun'
      (hrun o (List.mem_append_right _ (List.mem_singleton_self _)))
    refine ⟨tagged', htracks', ?_⟩
    rw [ledgerOf_concat, hledger, deliver, hupsert, Option.getD_some]

end Tracking

/-! ## Exact ledgers -/

theorem deliver_first (o : Observation) : ledgerOf [o] = [o.draft.lower] := by
  show (upsertWalletTransfer [] o.draft).getD [] = _
  rw [upsert_new (fun _ h => absurd h List.not_mem_nil)]
  rfl

/-- Two drafts give one row if they meet and two if they do not. -/
theorem length_ledgerOf_two (a b : Observation) :
    (ledgerOf [a, b]).length = if a.draft.lower.Meets b.draft.lower then 1 else 2 := by
  have htwo : ledgerOf [a, b] = deliver [a.draft.lower] b.draft := by
    rw [← deliver_first a]
    exact @ledgerOf_concat [a] b
  rw [htwo]
  unfold deliver
  split
  · rename_i hmeets
    have hmerge : upsertWalletTransfer ([] ++ [a.draft.lower]) b.draft =
        some ([] ++ [b.draft.lower.merge a.draft.lower]) :=
      upsert_meeting (fun _ h => absurd h List.not_mem_nil) hmeets
        (fun _ h => absurd h List.not_mem_nil) (List.nodup_singleton _)
    rw [List.nil_append] at hmerge
    rw [hmerge]
    rfl
  · rename_i hmeets
    rw [upsert_new (fun row hrow => List.mem_singleton.mp hrow ▸ hmeets)]
    rfl

theorem distinguished_of_exact {observations : List Observation}
    (hexact : LedgerExact observations) : Distinguished observations := by
  intro a ha b hb
  obtain ⟨⟨entries, hentries⟩, -⟩ := hexact [a, b] (by simp [ha, hb])
  have hlength := hentries.tells.length_eq
  rw [length_ledgerOf_two] at hlength
  have hmem : ∀ entry, entry ∈ entries ↔ a.entry = entry ∨ b.entry = entry := by
    intro entry
    simp [hentries.observed]
  apply Iff.intro
  · intro heq
    by_contra hmeets
    rw [if_neg hmeets] at hlength
    obtain ⟨e, e', rfl⟩ := List.length_eq_two.mp hlength.symm
    have he := (hmem e).mp (by simp)
    have he' := (hmem e').mp (by simp)
    have hne : e ≠ e' := by simpa using hentries.nodup
    exact hne (by rcases he with rfl | rfl <;> rcases he' with rfl | rfl <;> simp [heq])
  · intro hmeets
    rw [if_pos hmeets] at hlength
    obtain ⟨e, rfl⟩ := List.length_eq_one_iff.mp hlength.symm
    have hae : a.entry = e := by simpa using (hmem a.entry).mpr (.inl rfl)
    have hbe : b.entry = e := by simpa using (hmem b.entry).mpr (.inr rfl)
    rw [hae, hbe]

theorem exact_of_distinguished {observations : List Observation}
    (hdist : Distinguished observations) : LedgerExact observations := by
  intro run hrun
  obtain ⟨tagged, htracks, hledger⟩ := tracks_ledgerOf hdist run hrun
  rw [hledger]
  exact ⟨⟨_, htracks.exact⟩, fun o ho => htracks.again (hdist.mono hrun) ho⟩

/-- Every ledger made of the observations is exact, for every order and number of deliveries, just
when their drafts share keys as they share entries. -/
theorem ledger_exact_iff (observations : List Observation) :
    LedgerExact observations ↔ Distinguished observations := by
  apply Iff.intro
  · exact distinguished_of_exact
  · exact exact_of_distinguished

/-! ## Ledgers of the three sources -/

-- A row of the explorer, an included operation or an executed proposal.
inductive Source
  | explorer (ctx : ExplorerContext) (row : ExplorerTokentx)
  | userOp (executed : Executed) (userOpHash callData : String)
  | proposal (executed : Executed) (proposalId target data : String)

section Sources

variable (ethers : Ethers)

-- A source that throws has no drafts.
def Source.drafts : Source → List TransferDraft
  | .explorer ctx row => (draftFromExplorer ethers ctx row).toList
  | .userOp executed userOpHash callData =>
    (outgoingTransfersFromUserOp ethers executed userOpHash callData).getD []
  | .proposal executed proposalId target data =>
    (outgoingTransferFromProposal ethers executed proposalId target data).join.toList

-- The wallet, the tokens and the two sides are written with their `0x`.
def Source.Prefixed : Source → Prop
  | .explorer ctx row => lowerCase ctx.wallet = ctx.wallet ∧
      startsWith (lowerCase (row.sender.getD "")) "0x" = true ∧
      startsWith (lowerCase (row.recipient.getD "")) "0x" = true
  | .userOp executed _ _ => executed.Prefixed
  | .proposal executed _ _ _ => executed.Prefixed

def Executed.Makes (executed : Executed) (target data : String) (logIndex : Nat)
    (entry : Entry) : Prop :=
  ∃ xfer, ethers.decodeErc20TransferCall data = some xfer ∧
    isBundlerFeeTransfer target xfer.recipient executed.feeTokenAddress
      executed.bundlerBeneficiary = false ∧
    entry = ⟨lowerCase executed.walletAddress, executed.transfer target xfer logIndex⟩

-- The entry is of the row or of a call, and not of the bundler's fee.  No draft of a call tells where
-- its log is.
def Source.Makes (logIndex : Nat) (entry : Entry) : Source → Prop
  | .explorer ctx row => entry = ⟨ctx.wallet, row.transfer ctx.chainId⟩ ∧
      ¬(entry.transfer.sender = ctx.wallet ∧ ctx.isFee entry.transfer.recipient row.token = true)
  | .userOp executed _ callData => ∃ call ∈ ethers.decodeExecuteCalls callData,
      executed.Makes ethers call.target call.data logIndex entry
  | .proposal executed _ target data => executed.Makes ethers target data logIndex entry

variable {ethers} {draft : TransferDraft} {source : Source}

theorem TransferDraft.OfCall.makes {executed : Executed} {target data : String}
    (h : draft.OfCall ethers executed target data) (logIndex : Nat) :
    ∃ entry, executed.Makes ethers target data logIndex entry ∧ draft.lower.Tells entry := by
  obtain ⟨xfer, hxfer, hfee, htells⟩ := h
  exact ⟨_, ⟨xfer, hxfer, hfee, rfl⟩, htells logIndex⟩

/-- Every draft of a source is an observation of an entry that the source makes. -/
theorem exists_observation (hethers : ethers.Checksums) (hprefixed : source.Prefixed)
    (h : draft ∈ source.drafts ethers) (logIndex : Nat) :
    ∃ o : Observation, o.draft = draft ∧ source.Makes ethers logIndex o.entry := by
  cases source with
  | explorer ctx row =>
    obtain ⟨hwallet, hsender, hrecipient⟩ := hprefixed
    obtain ⟨htells, hfee⟩ :=
      draftFromExplorer_tells hethers hwallet hsender hrecipient (Option.mem_toList.mp h)
    exact ⟨⟨draft, _, htells⟩, rfl, rfl, hfee⟩
  | userOp executed userOpHash callData =>
    cases hdrafts : outgoingTransfersFromUserOp ethers executed userOpHash callData with
    | none =>
      rw [Source.drafts, hdrafts] at h
      exact absurd h List.not_mem_nil
    | some drafts =>
      rw [Source.drafts, hdrafts] at h
      obtain ⟨call, hcall, hof⟩ := draftsOfCalls_ofCall hethers hprefixed hdrafts h
      obtain ⟨entry, hmakes, htells⟩ := hof.makes logIndex
      exact ⟨⟨draft, entry, htells⟩, rfl, call, hcall, hmakes⟩
  | proposal executed proposalId target data =>
    have hdraft := Option.join_eq_some_iff.mp (Option.mem_toList.mp h)
    obtain ⟨entry, hmakes, htells⟩ :=
      (outgoingTransferFromProposal_ofCall hethers hprefixed hdraft).makes logIndex
    exact ⟨⟨draft, entry, htells⟩, rfl, hmakes⟩

theorem exists_observations (hethers : ethers.Checksums) (logOf : TransferDraft → Nat)
    (drafts : List (Source × TransferDraft))
    (h : ∀ p ∈ drafts, p.1.Prefixed ∧ p.2 ∈ p.1.drafts ethers) :
    ∃ observations : List Observation,
      List.Forall₂ (fun o p => o.draft = p.2 ∧ p.1.Makes ethers (logOf p.2) o.entry) observations
        drafts := by
  induction drafts with
  | nil => exact ⟨[], .nil⟩
  | cons p drafts ih =>
    obtain ⟨rest, hrest⟩ := ih fun q hq => h q (List.mem_cons_of_mem _ hq)
    obtain ⟨hprefixed, hdraft⟩ := h p List.mem_cons_self
    obtain ⟨o, ho⟩ := exists_observation hethers hprefixed hdraft (logOf p.2)
    exact ⟨o :: rest, .cons ho hrest⟩

/-- Wherever the logs of the calls are, the drafts that sources make keep an exact ledger just when
they share keys as they share entries. -/
theorem ledger_of_sources_exact_iff (hethers : ethers.Checksums) (logOf : TransferDraft → Nat)
    (drafts : List (Source × TransferDraft))
    (h : ∀ p ∈ drafts, p.1.Prefixed ∧ p.2 ∈ p.1.drafts ethers) :
    ∃ observations : List Observation,
      List.Forall₂ (fun o p => o.draft = p.2 ∧ p.1.Makes ethers (logOf p.2) o.entry) observations
        drafts ∧
      (LedgerExact observations ↔ Distinguished observations) := by
  obtain ⟨observations, hof⟩ := exists_observations hethers logOf drafts h
  exact ⟨observations, hof, distinguished_of_exact, exact_of_distinguished⟩

end Sources

-- Addresses of digits alone have no other checksum.
def plainEthers : Ethers := ⟨some, fun _ => [], fun _ => none⟩

def payer : String := "0x1111111111111111111111111111111111111111"

def payee : String := "0x2222222222222222222222222222222222222222"

def stable : WalletStableToken := ⟨"USDC", "0x3333333333333333333333333333333333333333", 6⟩

def payment : Transfer := ⟨"8453", "0x77", 5, stable.address, payer, payee, "1000000"⟩

def paymentRow : ExplorerTokentx :=
  ⟨some 900, some 0, some "0x77", some payer, some payee, some stable.address, some "1000000", some 5⟩

def hostedContext (wallet : String) : ExplorerContext := ⟨wallet, "8453", [stable], none, none, 0⟩

def explorerDraft (wallet counterparty : String) (direction : Direction) : TransferDraft :=
  ⟨wallet, "8453", direction, stable.address, "USDC", 6, "1000000", counterparty, "0x77", 5, 900,
    .explorer, none, none, 0⟩

def payerSees : Observation where
  draft := explorerDraft payer payee .outgoing
  entry := ⟨payer, payment⟩
  tells := ⟨by decide, by decide, by decide, by decide, by decide, ⟨by decide, by decide⟩⟩

def payeeSees : Observation where
  draft := explorerDraft payee payer .incoming
  entry := ⟨payee, payment⟩
  tells := ⟨by decide, by decide, by decide, by decide, by decide, ⟨by decide, by decide⟩⟩

/-- A payment from one hosted wallet to another, seen by both: the payee has no row. -/
theorem payee_row_lost :
    draftFromExplorer plainEthers (hostedContext payer) paymentRow = some payerSees.draft ∧
      draftFromExplorer plainEthers (hostedContext payee) paymentRow = some payeeSees.draft ∧
      (ledgerOf [payerSees, payeeSees]).map TransferDraft.walletAddress = [payer] ∧
      ¬LedgerExact [payerSees, payeeSees] := by
  refine ⟨by decide, by decide, by decide, ?_⟩
  intro hexact
  have hdist := distinguished_of_exact hexact payerSees List.mem_cons_self payeeSees
    (List.mem_cons_of_mem _ List.mem_cons_self)
  exact absurd (hdist.mpr (by decide)) (by decide)

end OnchainInvoice.Transfers
