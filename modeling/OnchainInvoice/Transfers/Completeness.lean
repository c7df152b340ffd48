import OnchainInvoice.Transfers.Ledger
import OnchainInvoice.Transfers.TransferSync

/-!
# What the calls bring in

The calls read the explorer's list in batches of three pages from the cursor's block on, so which rows
they ever reach is a matter of `Lib.Paging`; a call that ends early leaves the cursor before every row
that it did not get to.
-/

namespace OnchainInvoice.Transfers

open Server Lib.Paging

abbrev END_BLOCK : Nat := 99999999

/-! ## The explorer's list -/

-- The rows that the explorer has for a query.
def pageOf (rows : List ExplorerTokentx) (query : ExplorerQuery) : List ExplorerTokentx :=
  ((rows.filter fun row => query.startblock ≤ row.block ∧ row.block ≤ query.endblock).drop
    ((query.page - 1) * query.offset)).take query.offset

def explorerOf (rows : List ExplorerTokentx) : ExplorerHttp := fun query =>
  some ⟨200, some ⟨some "1", some "OK", .rows (pageOf rows query)⟩⟩

-- An answer that the loop reads has the rows of the list, or none.
def Answers (rows : List ExplorerTokentx) (http : ExplorerHttp) : Prop :=
  ∀ query res body, http query = some res → res.body = some body → res.status < 400 →
    body.rateLimited = false → body.rows = pageOf rows query ∨ body.rows = []

/-! ## Rows -/

section Rows

variable {ethers : Ethers} {context : ExplorerContext} {reading reading' : Reading} {stop : Stop}
  {row : ExplorerTokentx} {rows : List ExplorerTokentx}

theorem lastBlock_readCursor :
    (readCursor reading row).lastBlock = max reading.lastBlock row.block := by
  unfold readCursor
  split
  · show row.block = max reading.lastBlock row.block
    omega
  · omega

theorem db_readCursor : (readCursor reading row).db = reading.db := by
  unfold readCursor
  split <;> rfl

theorem advanced_readCursor (h : (readCursor reading row).advanced = false) :
    reading.advanced = false ∧ (readCursor reading row).lastBlock = reading.lastBlock := by
  unfold readCursor at h ⊢
  split
  · rw [if_pos ‹_›] at h
    exact absurd h (by simp)
  · rw [if_neg ‹_›] at h
    exact ⟨h, rfl⟩

-- What reading some rows leaves.
structure Reads (reading : Reading) (rows : List ExplorerTokentx) (reading' : Reading) : Prop where
  ingested : reading'.db.ingested = reading.db.ingested ++ rows
  cursor : reading'.db.cursor = reading.db.cursor
  lastBlock : reading'.lastBlock = rows.foldl (fun c row => max c row.block) reading.lastBlock
  still : reading'.advanced = false → reading'.lastBlock = reading.lastBlock

theorem readRow_ok (h : readRow ethers context reading row = .ok reading') :
    Reads reading [row] reading' ∧ (reading'.advanced = false → reading.advanced = false) := by
  unfold readRow at h
  dsimp only at h
  split at h
  · obtain rfl := Except.ok.inj h
    refine ⟨⟨?_, ?_, lastBlock_readCursor, fun h => (advanced_readCursor h).2⟩,
      fun h => (advanced_readCursor h).1⟩
    · rw [db_readCursor]
    · rw [db_readCursor]
  · split at h
    · exact absurd h (by simp)
    · obtain rfl := Except.ok.inj h
      refine ⟨⟨?_, ?_, lastBlock_readCursor, fun h => (advanced_readCursor h).2⟩, fun h => ?_⟩
      · rw [db_readCursor]
      · rw [db_readCursor]
      · exact absurd (advanced_readCursor h).1 (by simp)

theorem readRow_error (h : readRow ethers context reading row = .error stop) :
    stop = ⟨.failed, reading.db⟩ := by
  unfold readRow at h
  dsimp only at h
  split at h
  · exact absurd h (by simp)
  · split at h
    · exact (Except.error.inj h).symm
    · exact absurd h (by simp)

theorem readRows_cons : readRows ethers context reading (row :: rows) =
    readRow ethers context reading row >>= fun reading => readRows ethers context reading rows :=
  List.foldlM_cons

theorem readRows_append {before after : List ExplorerTokentx} :
    readRows ethers context reading (before ++ after) =
      readRows ethers context reading before >>= fun reading =>
        readRows ethers context reading after := List.foldlM_append

theorem readRows_ok (h : readRows ethers context reading rows = .ok reading') :
    Reads reading rows reading' ∧ (reading'.advanced = false → reading.advanced = false) := by
  induction rows generalizing reading with
  | nil =>
    obtain rfl := Except.ok.inj h
    exact ⟨⟨(List.append_nil _).symm, rfl, rfl, fun _ => rfl⟩, id⟩
  | cons row rows ih =>
    rw [readRows_cons] at h
    cases hrow : readRow ethers context reading row with
    | error stop =>
      rw [hrow] at h
      exact absurd h (by simp [bind, Except.bind])
    | ok next =>
      rw [hrow] at h
      obtain ⟨hfirst, hadvanced⟩ := readRow_ok hrow
      obtain ⟨hrest, hadvanced'⟩ := ih h
      refine ⟨⟨?_, hrest.cursor.trans hfirst.cursor, ?_, ?_⟩, hadvanced ∘ hadvanced'⟩
      · rw [hrest.ingested, hfirst.ingested, List.append_assoc, List.singleton_append]
      · rw [hrest.lastBlock, hfirst.lastBlock]
        rfl
      · intro hstill
        exact (hrest.still hstill).trans (hfirst.still (hadvanced' hstill))

theorem readRows_error (h : readRows ethers context reading rows = .error stop) :
    stop.outcome = .failed ∧ stop.db.cursor = reading.db.cursor := by
  induction rows generalizing reading with
  | nil => exact absurd h (by simp [readRows, pure, Except.pure])
  | cons row rows ih =>
    rw [readRows_cons] at h
    cases hrow : readRow ethers context reading row with
    | error stop' =>
      rw [hrow] at h
      obtain rfl := Except.error.inj h
      rw [readRow_error hrow]
      exact ⟨rfl, rfl⟩
    | ok next =>
      rw [hrow] at h
      obtain ⟨hfailed, hcursor⟩ := ih h
      exact ⟨hfailed, hcursor.trans (readRow_ok hrow).1.cursor⟩

end Rows

/-! ## Pages -/

section Pages

variable {ethers : Ethers} {context : ExplorerContext} {http : ExplorerHttp} {apiKey : String}
  {start left page : Nat} {reading reading' : Reading} {stop : Stop} {last : Bool}
  {rows : List ExplorerTokentx}

theorem readPage_ok
    (h : readPage ethers context http apiKey start page reading = .ok (reading', last)) :
    ∃ res body, http (explorerUrl context.chainId context.wallet start page apiKey) = some res ∧
      res.body = some body ∧ res.status < 400 ∧ body.rateLimited = false ∧
      readRows ethers context reading body.rows = .ok reading' ∧
      last = decide (body.rows.length < PAGE_SIZE) := by
  unfold readPage at h
  split at h
  · exact absurd h (by simp)
  rename_i res hres
  split at h
  · exact absurd h (by simp)
  split at h
  · exact absurd h (by simp)
  rename_i body hbody
  split at h
  · exact absurd h (by simp)
  rename_i hgood
  rw [not_or, Nat.not_le, Bool.not_eq_true] at hgood
  cases hrows : readRows ethers context reading body.rows with
  | error stop =>
    rw [hrows] at h
    exact absurd h (by simp [bind, Except.bind])
  | ok next =>
    rw [hrows] at h
    simp only [bind, Except.bind, pure, Except.pure, Except.ok.injEq, Prod.mk.injEq] at h
    obtain ⟨rfl, rfl⟩ := h
    exact ⟨res, body, hres, hbody, hgood.1, hgood.2, hrows, rfl⟩

theorem readPage_error
    (h : readPage ethers context http apiKey start page reading = .error stop) :
    stop.db.cursor = reading.db.cursor := by
  unfold readPage at h
  split at h
  · exact Except.error.inj h ▸ rfl
  split at h
  · exact Except.error.inj h ▸ rfl
  split at h
  · exact Except.error.inj h ▸ rfl
  rename_i body hbody
  split at h
  · exact Except.error.inj h ▸ rfl
  cases hrows : readRows ethers context reading body.rows with
  | error stop' =>
    rw [hrows] at h
    obtain rfl := Except.error.inj h
    exact (readRows_error hrows).2
  | ok next =>
    rw [hrows] at h
    exact absurd h (by simp [bind, Except.bind, pure, Except.pure])

-- The rows on the pages after the first `page`, as many as `n`.
def pageRows (rows : List ExplorerTokentx) (start page n : Nat) : List ExplorerTokentx :=
  ((served ExplorerTokentx.block END_BLOCK rows start).drop (page * PAGE_SIZE)).take n

theorem pageOf_explorerUrl : pageOf rows (explorerUrl context.chainId context.wallet start (page + 1)
    apiKey) = pageRows rows start page PAGE_SIZE := rfl

theorem pageRows_add (n : Nat) : pageRows rows start page (PAGE_SIZE + n) =
    pageRows rows start page PAGE_SIZE ++ pageRows rows start (page + 1) n := by
  unfold pageRows
  rw [List.take_add, List.drop_drop, Nat.add_mul, Nat.one_mul]

theorem pageRows_of_short (h : (pageRows rows start page PAGE_SIZE).length < PAGE_SIZE) (n : Nat)
    (hn : PAGE_SIZE ≤ n) : pageRows rows start page n = pageRows rows start page PAGE_SIZE := by
  unfold pageRows at h ⊢
  rw [List.length_take] at h
  rw [List.take_of_length_le (by omega), List.take_of_length_le (by omega)]

/-- The pages of a call are the front of the list; `gap` stands for an answer without its rows. -/
theorem readPages_ok (gap : Prop)
    (hhttp : ∀ page res body, http (explorerUrl context.chainId context.wallet start page apiKey) =
      some res → res.body = some body → res.status < 400 → body.rateLimited = false →
      body.rows = pageOf rows (explorerUrl context.chainId context.wallet start page apiKey) ∨
        body.rows = [] ∧ gap)
    (h : readPages ethers context http apiKey start left (page + 1) reading = .ok reading') :
    ∃ n, readRows ethers context reading (pageRows rows start page n) = .ok reading' ∧
      (n = left * PAGE_SIZE ∨ gap) := by
  induction left generalizing page reading with
  | zero =>
    obtain rfl := Except.ok.inj h
    exact ⟨0, by simp [pageRows, readRows, pure, Except.pure], .inl (by simp)⟩
  | succ left ih =>
    unfold readPages at h
    cases hpage : readPage ethers context http apiKey start (page + 1) reading with
    | error stop =>
      rw [hpage] at h
      exact absurd h (by simp [bind, Except.bind])
    | ok read =>
      rw [hpage] at h
      obtain ⟨next, last⟩ := read
      obtain ⟨res, body, hres, hbody, hstatus, hlimit, hrows, hlast⟩ := readPage_ok hpage
      have hanswer := hhttp (page + 1) res body hres hbody hstatus hlimit
      rw [pageOf_explorerUrl] at hanswer
      simp only [bind, Except.bind] at h
      split at h
      · -- the last page: it is short, or its rows are missing
        obtain rfl := Except.ok.inj h
        rename_i hend
        rw [hlast, decide_eq_true_eq] at hend
        rcases hanswer with heq | ⟨hnone, hgap⟩
        · rw [heq] at hend hrows
          refine ⟨(left + 1) * PAGE_SIZE, ?_, .inl rfl⟩
          rw [pageRows_of_short hend _ (by rw [Nat.add_mul]; omega)]
          exact hrows
        · rw [hnone] at hrows
          exact ⟨0, by simpa [pageRows] using hrows, .inr hgap⟩
      · rename_i hfull
        rw [hlast, decide_eq_true_eq] at hfull
        rcases hanswer with heq | ⟨hnone, -⟩
        · obtain ⟨n, hn, hcount⟩ := ih h
          refine ⟨PAGE_SIZE + n, ?_, ?_⟩
          · rw [pageRows_add, readRows_append, ← heq, hrows]
            exact hn
          · rcases hcount with rfl | hgap
            · left
              rw [Nat.add_mul]
              omega
            · exact .inr hgap
        · rw [hnone] at hfull
          exact absurd (by decide) hfull

theorem readPages_error
    (h : readPages ethers context http apiKey start left page reading = .error stop) :
    stop.db.cursor = reading.db.cursor := by
  induction left generalizing page reading with
  | zero => exact absurd h (by simp [readPages])
  | succ left ih =>
    unfold readPages at h
    cases hpage : readPage ethers context http apiKey start page reading with
    | error stop' =>
      rw [hpage] at h
      obtain rfl := Except.error.inj h
      exact readPage_error hpage
    | ok read =>
      rw [hpage] at h
      obtain ⟨next, last⟩ := read
      obtain ⟨res, body, -, -, -, -, hrows, -⟩ := readPage_ok hpage
      simp only [bind, Except.bind] at h
      split at h
      · exact absurd h (by simp [pure, Except.pure])
      · exact (ih h).trans (readRows_ok hrows).1.cursor

end Pages

/-! ## Calls -/

section Calls

variable (ethers : Ethers) (etherscanApiKey : Option String) (context : ExplorerContext)
  (rows : List ExplorerTokentx)

def Stable (row : ExplorerTokentx) : Prop := (tokenMap context.stables row.token).isSome = true

-- A call at a time of its own.
def callAt (now : Nat) (http : ExplorerHttp) (db : SyncDb) : SyncDb × Outcome :=
  syncWalletTransfersFromExplorer ethers etherscanApiKey { context with now } http db

-- One call after the other, each answered in full.
def calls : List Nat → SyncDb → SyncDb
  | [], db => db
  | now :: times, db => calls times (callAt ethers etherscanApiKey context now (explorerOf rows) db).1

def FailureFree : List Nat → SyncDb → Prop
  | [], _ => True
  | now :: times, db =>
    (callAt ethers etherscanApiKey context now (explorerOf rows) db).2 = .done ∧
      FailureFree times (callAt ethers etherscanApiKey context now (explorerOf rows) db).1

-- After so many calls every row of a stable token has been through the loop.
def Complete (db : SyncDb) : Prop :=
  ∃ n ≤ rows.length, ∀ times : List Nat, times.length = n → ∀ row ∈ rows, Stable context row →
    row ∈ (calls ethers etherscanApiKey context rows times db).ingested

-- No call, however it ends, moves the cursor past a row that it leaves out.
def Safe (db : SyncDb) : Prop :=
  ∀ now http, Answers rows http → ∀ row ∈ rows,
    row ∉ (callAt ethers etherscanApiKey context now http db).1.ingested →
      row.block < (callAt ethers etherscanApiKey context now http db).1.lastBlock →
        row.block < db.lastBlock

def hasKey : Prop := ∃ apiKey, etherscanApiKey = some apiKey ∧ apiKey ≠ ""

-- Within the range of the queries, and not behind the first 300 rows of a full block.
def Reaches (db : SyncDb) : Prop :=
  ∀ row ∈ rows, Stable context row → row ∈ db.ingested ∨ hasKey etherscanApiKey ∧
    Reach ExplorerTokentx.block END_BLOCK (PAGES_PER_TICK * PAGE_SIZE) rows db.lastBlock row

variable {ethers etherscanApiKey context rows} {db : SyncDb} {http : ExplorerHttp} {now : Nat}
  {times : List Nat}

-- The three ways in which a call ends.
theorem callAt_cases (db : SyncDb) (now : Nat) (http : ExplorerHttp) :
    ((¬hasKey etherscanApiKey ∨ context.stables = []) ∧
      (callAt ethers etherscanApiKey context now http db).1.ingested = db.ingested ∧
      (callAt ethers etherscanApiKey context now http db).1.lastBlock = db.lastBlock) ∨
    (∃ apiKey reading, etherscanApiKey = some apiKey ∧ apiKey ≠ "" ∧ context.stables ≠ [] ∧
      readPages ethers { context with now } http apiKey db.lastBlock PAGES_PER_TICK (0 + 1)
        ⟨db, db.lastBlock, db.lastLogIndex, false⟩ = .ok reading ∧
      (callAt ethers etherscanApiKey context now http db).1.ingested = reading.db.ingested ∧
      (callAt ethers etherscanApiKey context now http db).1.lastBlock =
        if reading.advanced then reading.lastBlock else db.lastBlock) ∨
    ((callAt ethers etherscanApiKey context now http db).2 ≠ .done ∧
      (callAt ethers etherscanApiKey context now http db).1.lastBlock = db.lastBlock) := by
  unfold callAt syncWalletTransfersFromExplorer
  dsimp only
  split
  · exact .inl ⟨.inl (by rintro ⟨_, h, -⟩; exact absurd h (by simp)), rfl, rfl⟩
  rename_i apiKey
  split
  · rename_i hempty
    refine .inl ⟨.inl ?_, rfl, rfl⟩
    rintro ⟨_, h, hne⟩
    exact hne (Option.some.inj h ▸ hempty)
  rename_i hkey
  by_cases hstables : context.stables = []
  · rw [if_pos (List.isEmpty_iff.mpr hstables)]
    exact .inl ⟨.inr hstables, rfl, rfl⟩
  rw [if_neg fun h => hstables (List.isEmpty_iff.mp h)]
  split
  · rename_i reading hreading
    refine .inr (.inl ⟨apiKey, reading, rfl, hkey, hstables, hreading, ?_, ?_⟩)
    · split <;> rfl
    · split <;> rfl
  · rename_i stop hstop
    have hcursor : stop.db.cursor = db.cursor := readPages_error hstop
    refine .inr (.inr ?_)
    split
    · exact ⟨by simp, rfl⟩
    · refine ⟨by simp, ?_⟩
      unfold SyncDb.lastBlock
      dsimp only
      rw [hcursor]

/-- A call that is done has read the front of the list. -/
theorem callAt_reads (gap : Prop) {apiKey : String} {reading : Reading}
    (hhttp : ∀ query res body, http query = some res → res.body = some body → res.status < 400 →
      body.rateLimited = false → body.rows = pageOf rows query ∨ body.rows = [] ∧ gap)
    (h : readPages ethers { context with now } http apiKey db.lastBlock PAGES_PER_TICK (0 + 1)
      ⟨db, db.lastBlock, db.lastLogIndex, false⟩ = .ok reading) :
    ∃ size, reading.db.ingested =
        db.ingested ++ batch ExplorerTokentx.block END_BLOCK size rows db.lastBlock ∧
      (if reading.advanced then reading.lastBlock else db.lastBlock) =
        advance ExplorerTokentx.block END_BLOCK size rows db.lastBlock ∧
      (size = PAGES_PER_TICK * PAGE_SIZE ∨ gap) := by
  obtain ⟨size, hrows, hsize⟩ := readPages_ok gap
    (fun page res body hres hbody hstatus hlimit => hhttp _ res body hres hbody hstatus hlimit) h
  have hreads := (readRows_ok hrows).1
  have hpage : pageRows rows db.lastBlock 0 size =
      batch ExplorerTokentx.block END_BLOCK size rows db.lastBlock := by
    unfold pageRows batch
    rw [Nat.zero_mul, List.drop_zero]
  rw [hpage] at hreads
  refine ⟨size, hreads.ingested, ?_, hsize⟩
  have hblock := hreads.lastBlock
  cases hadvanced : reading.advanced with
  | true => exact hblock
  | false => exact (hreads.still hadvanced).symm.trans hblock

/-- A call never moves the cursor past a row that it leaves out. -/
theorem callAt_safe (hsorted : rows.Pairwise fun a b => a.block ≤ b.block) (db : SyncDb) :
    Safe ethers etherscanApiKey context rows db := by
  intro now http hhttp row hrow hout hpast
  rcases @callAt_cases ethers etherscanApiKey context db now http with
    ⟨-, -, hsame⟩ | ⟨apiKey, reading, -, -, -, hreading, hingested, hlast⟩ | ⟨-, hsame⟩
  · rwa [hsame] at hpast
  · obtain ⟨size, hread, hblock, -⟩ := callAt_reads True (fun query res body hres hbody
      hstatus hlimit => (hhttp query res body hres hbody hstatus hlimit).imp_right fun h =>
        ⟨h, trivial⟩) hreading
    rw [hlast, hblock] at hpast
    rw [hingested, hread, List.mem_append, not_or] at hout
    by_contra hahead
    rw [Nat.not_lt] at hahead
    have hwithin : row.block ≤ END_BLOCK := by
      rcases @advance_eq _ ExplorerTokentx.block END_BLOCK size rows db.lastBlock with
        heq | ⟨b, hb, heq⟩
      · omega
      · have := (mem_served.mp (mem_served_of_mem_batch hb)).2.2
        omega
    exact hout.2 (mem_batch_of_lt_advance hsorted (mem_served.mpr ⟨hrow, hahead, hwithin⟩) hpast)
  · rwa [hsame] at hpast

/-- Calls that are answered in full read batch after batch. -/
theorem ingested_calls (hkey : hasKey etherscanApiKey) (hstables : context.stables ≠ [])
    (hfree : FailureFree ethers etherscanApiKey context rows times db) :
    (calls ethers etherscanApiKey context rows times db).ingested = db.ingested ++
      readBy ExplorerTokentx.block END_BLOCK (PAGES_PER_TICK * PAGE_SIZE) rows db.lastBlock
        times.length := by
  induction times generalizing db with
  | nil => exact (List.append_nil _).symm
  | cons now times ih =>
    obtain ⟨hdone, hfree⟩ := hfree
    rcases @callAt_cases ethers etherscanApiKey context db now (explorerOf rows) with
      ⟨hnone, -, -⟩ | ⟨apiKey, reading, -, -, -, hreading, hingested, hlast⟩ | ⟨hnot, -⟩
    · exact absurd hnone (by simp [hkey, hstables])
    · obtain ⟨size, hread, hblock, rfl | hgap⟩ := callAt_reads False (fun query res body
        hres hbody _ _ => .inl (by
          obtain rfl := Option.some.inj hres
          obtain rfl := Option.some.inj hbody
          rfl)) hreading
      · have hrest := ih hfree
        rw [hingested, hread, hlast, hblock] at hrest
        rw [List.length_cons, readBy, ← List.append_assoc]
        exact hrest
      · exact hgap.elim
    · exact absurd hdone hnot

/-- Without a key or a stable token a call brings nothing. -/
theorem ingested_calls_of_none (hnone : ¬hasKey etherscanApiKey ∨ context.stables = [])
    (hfree : FailureFree ethers etherscanApiKey context rows times db) :
    (calls ethers etherscanApiKey context rows times db).ingested = db.ingested := by
  induction times generalizing db with
  | nil => rfl
  | cons now times ih =>
    obtain ⟨hdone, hfree⟩ := hfree
    rw [calls, ih hfree]
    rcases @callAt_cases ethers etherscanApiKey context db now (explorerOf rows) with
      ⟨-, hsame, -⟩ | ⟨apiKey, reading, hkey, hne, hstables, -⟩ | ⟨hnot, -⟩
    · exact hsame
    · exact absurd hnone (not_or.mpr ⟨not_not.mpr ⟨apiKey, hkey, hne⟩, hstables⟩)
    · exact absurd hdone hnot

theorem stable_of_nil (hnil : context.stables = []) (row : ExplorerTokentx) :
    ¬Stable context row := by
  unfold Stable tokenMap
  rw [hnil]
  simp

theorem reaches_of_complete (hsorted : rows.Pairwise fun a b => a.block ≤ b.block)
    (hfree : ∀ times : List Nat, times.length ≤ rows.length →
      FailureFree ethers etherscanApiKey context rows times db)
    (h : Complete ethers etherscanApiKey context rows db) :
    Reaches etherscanApiKey context rows db := by
  obtain ⟨n, hn, hread⟩ := h
  intro row hrow hstable
  have hlength : (List.replicate n 0).length = n := List.length_replicate
  have hmem := hread _ hlength row hrow hstable
  have hfree := hfree (List.replicate n 0) (hlength.symm ▸ hn)
  by_cases hnone : ¬hasKey etherscanApiKey ∨ context.stables = []
  · rw [ingested_calls_of_none hnone hfree] at hmem
    exact .inl hmem
  · rw [not_or, not_not] at hnone
    rw [ingested_calls hnone.1 hnone.2 hfree] at hmem
    rcases List.mem_append.mp hmem with hold | hnew
    · exact .inl hold
    · exact .inr ⟨hnone.1, reach_of_mem_readBy hsorted hnew⟩

theorem complete_of_reaches (hsorted : rows.Pairwise fun a b => a.block ≤ b.block)
    (hfree : ∀ times : List Nat, times.length ≤ rows.length →
      FailureFree ethers etherscanApiKey context rows times db)
    (h : Reaches etherscanApiKey context rows db) :
    Complete ethers etherscanApiKey context rows db := by
  obtain ⟨n, hn, hread⟩ := @exists_readBy _ _ END_BLOCK
    (PAGES_PER_TICK * PAGE_SIZE) _ hsorted db.lastBlock
  refine ⟨n, hn, fun times htimes row hrow hstable => ?_⟩
  have hfree := hfree times (htimes ▸ hn)
  by_cases hnone : ¬hasKey etherscanApiKey ∨ context.stables = []
  · rw [ingested_calls_of_none hnone hfree]
    rcases h row hrow hstable with hold | ⟨hkey, -⟩
    · exact hold
    · exact absurd hstable (stable_of_nil (hnone.resolve_left (not_not.mpr hkey)) row)
  · rw [not_or, not_not] at hnone
    rw [ingested_calls hnone.1 hnone.2 hfree, htimes]
    rcases h row hrow hstable with hold | ⟨-, hreach⟩
    · exact List.mem_append_left _ hold
    · exact List.mem_append_right _ (hread row hrow hreach)

/-- Calls that fail nowhere bring in every row of a stable token just when each that is missing lies
in the range of the queries and not behind the first rows of a full block. -/
theorem sync_complete_iff (hsorted : rows.Pairwise fun a b => a.block ≤ b.block)
    (hfree : ∀ times : List Nat, times.length ≤ rows.length →
      FailureFree ethers etherscanApiKey context rows times db) :
    Complete ethers etherscanApiKey context rows db ∧
        Safe ethers etherscanApiKey context rows db ↔
      Reaches etherscanApiKey context rows db := by
  apply Iff.intro
  · exact fun h => reaches_of_complete hsorted hfree h.1
  · exact fun h => ⟨complete_of_reaches hsorted hfree h, callAt_safe hsorted db⟩

/-! ## Calls that fail nowhere -/

-- The rows of the table are those of some of the observations.
def Kept (observations : List Observation) (transfers : WalletTransfers) : Prop :=
  ∃ run tagged, (∀ o ∈ run, o ∈ observations) ∧ Tracks run tagged ∧ transfers = tagged.map Prod.fst

variable (ethers context) in
-- Every draft of the row is one of the observations'.
def Observed (observations : List Observation) (row : ExplorerTokentx) : Prop :=
  ∀ now draft, draftFromExplorer ethers { context with now } row = some draft →
    ∃ o ∈ observations, o.draft = draft

variable {observations : List Observation} {reading : Reading}

theorem Kept.upsert {transfers : WalletTransfers} {o : Observation}
    (hdist : Distinguished observations) (hkept : Kept observations transfers)
    (ho : o ∈ observations) :
    ∃ transfers', upsertWalletTransfer transfers o.draft = some transfers' ∧
      Kept observations transfers' := by
  obtain ⟨run, tagged, hrun, htracks, rfl⟩ := hkept
  obtain ⟨tagged', htracks', hupsert⟩ := htracks.next hdist hrun ho
  refine ⟨_, hupsert, run ++ [o], tagged', fun a ha => ?_, htracks', rfl⟩
  rcases List.mem_append.mp ha with ha | ha
  · exact hrun a ha
  · exact List.mem_singleton.mp ha ▸ ho

theorem readRow_kept {row : ExplorerTokentx} (hdist : Distinguished observations)
    (hrow : Observed ethers context observations row)
    (hkept : Kept observations reading.db.transfers) :
    ∃ reading', readRow ethers { context with now } reading row = .ok reading' ∧
      Kept observations reading'.db.transfers := by
  unfold readRow
  cases hdraft : draftFromExplorer ethers { context with now } row with
  | none =>
    refine ⟨_, rfl, ?_⟩
    rw [db_readCursor]
    exact hkept
  | some draft =>
    obtain ⟨o, ho, rfl⟩ := hrow now draft hdraft
    obtain ⟨transfers, hupsert, hkept'⟩ := hkept.upsert hdist ho
    dsimp only
    rw [hupsert]
    refine ⟨_, rfl, ?_⟩
    rw [db_readCursor]
    exact hkept'

theorem readRows_kept (hdist : Distinguished observations)
    (hrows : ∀ row ∈ rows, Observed ethers context observations row)
    (hkept : Kept observations reading.db.transfers) :
    ∃ reading', readRows ethers { context with now } reading rows = .ok reading' ∧
      Kept observations reading'.db.transfers := by
  induction rows generalizing reading with
  | nil => exact ⟨reading, rfl, hkept⟩
  | cons row rows ih =>
    obtain ⟨next, hfirst, hnext⟩ := readRow_kept hdist (hrows row List.mem_cons_self) hkept
    obtain ⟨last, hrest, hlast⟩ :=
      ih (fun other hother => hrows other (List.mem_cons_of_mem _ hother)) hnext
    refine ⟨last, ?_, hlast⟩
    rw [readRows_cons, hfirst]
    exact hrest

theorem mem_of_mem_pageOf {query : ExplorerQuery} {row : ExplorerTokentx}
    (h : row ∈ pageOf rows query) : row ∈ rows :=
  List.mem_of_mem_filter (List.mem_of_mem_drop (List.mem_of_mem_take h))

theorem readPages_kept {apiKey : String} {startBlock left page : Nat}
    (hdist : Distinguished observations)
    (hrows : ∀ row ∈ rows, Observed ethers context observations row)
    (hkept : Kept observations reading.db.transfers) :
    ∃ reading', readPages ethers { context with now } (explorerOf rows) apiKey startBlock left page
        reading = .ok reading' ∧ Kept observations reading'.db.transfers := by
  induction left generalizing page reading with
  | zero => exact ⟨reading, rfl, hkept⟩
  | succ left ih =>
    let query := explorerUrl context.chainId context.wallet startBlock page apiKey
    have hrows' : ∃ next,
        readRows ethers { context with now } reading (pageOf rows query) = .ok next ∧
          Kept observations next.db.transfers :=
      readRows_kept hdist (fun row hrow => hrows row (mem_of_mem_pageOf hrow)) hkept
    obtain ⟨next, hread, hnext⟩ := hrows'
    have hpage : readPage ethers { context with now } (explorerOf rows) apiKey startBlock page
        reading = .ok (next, decide ((pageOf rows query).length < PAGE_SIZE)) := by
      show (do
        let reading ← readRows ethers { context with now } reading (pageOf rows query)
        return (reading, decide ((pageOf rows query).length < PAGE_SIZE))) = _
      rw [hread]
      rfl
    rw [readPages, hpage]
    show ∃ reading', (if decide ((pageOf rows query).length < PAGE_SIZE) = true then pure next
      else readPages ethers { context with now } (explorerOf rows) apiKey startBlock left (page + 1)
        next) = Except.ok reading' ∧ _
    split
    · exact ⟨next, rfl, hnext⟩
    · exact ih hnext

theorem callAt_kept (hdist : Distinguished observations)
    (hrows : ∀ row ∈ rows, Observed ethers context observations row)
    (hkept : Kept observations db.transfers) :
    (callAt ethers etherscanApiKey context now (explorerOf rows) db).2 = .done ∧
      Kept observations
        (callAt ethers etherscanApiKey context now (explorerOf rows) db).1.transfers := by
  unfold callAt syncWalletTransfersFromExplorer
  dsimp only
  split
  · exact ⟨rfl, hkept⟩
  split
  · exact ⟨rfl, hkept⟩
  split
  · exact ⟨rfl, hkept⟩
  rename_i apiKey _ _
  have hpages : ∃ reading', readPages ethers { context with now } (explorerOf rows) apiKey
      db.lastBlock PAGES_PER_TICK 1 ⟨db, db.lastBlock, db.lastLogIndex, false⟩ = .ok reading' ∧
        Kept observations reading'.db.transfers :=
    readPages_kept hdist hrows hkept
  obtain ⟨reading, hpages, hkept'⟩ := hpages
  rw [hpages]
  refine ⟨rfl, ?_⟩
  dsimp only
  split
  · exact hkept'
  · exact hkept'

/-- As long as the list's drafts share keys as they share entries, no call fails. -/
theorem failureFree_of_distinguished (hdist : Distinguished observations)
    (hrows : ∀ row ∈ rows, Observed ethers context observations row)
    (hkept : Kept observations db.transfers) :
    FailureFree ethers etherscanApiKey context rows times db := by
  induction times generalizing db with
  | nil => exact trivial
  | cons now times ih =>
    obtain ⟨hdone, hnext⟩ := callAt_kept hdist hrows hkept
    exact ⟨hdone, ih hnext⟩

-- The draft of a row with a time stamp does not depend on when the call is made.
theorem observed_of_timeStamp {row : ExplorerTokentx} {o : Observation}
    (hstamp : 0 < row.timeStamp.getD 0)
    (hdraft : draftFromExplorer ethers context row = some o.draft) (ho : o ∈ observations) :
    Observed ethers context observations row := by
  intro now draft h
  have hnow : draftFromExplorer ethers { context with now } row =
      draftFromExplorer ethers context row := by
    unfold draftFromExplorer
    rw [if_pos hstamp, if_pos hstamp]
    rfl
  rw [hnow, hdraft] at h
  exact ⟨o, ho, Option.some.inj h⟩

end Calls

def emptyDb : SyncDb := ⟨[], none, []⟩

-- Two payments of one block and one of a later block.
def paymentRows : List ExplorerTokentx :=
  [{ paymentRow with timeStamp := some 1700000000 },
    { paymentRow with timeStamp := some 1700000000, value := some "2000000", logIndex := some 6 },
    { paymentRow with timeStamp := some 1700000060, blockNumber := some 905, hash := some "0x78" }]

def paid (txHash amount : String) (logIndex blockNumber createdAt : Nat) : Observation where
  draft :=
    { explorerDraft payer payee .outgoing with txHash, amount, logIndex, blockNumber, createdAt }
  entry := ⟨payer, { payment with txHash := lowerCase txHash, amount, logIndex }⟩
  tells := ⟨(by decide : lowerCase payer = payer), rfl, rfl,
    (by decide : lowerCase stable.address = stable.address), rfl, rfl,
    (by decide : lowerCase payee = payee)⟩

def firstPaid : Observation := paid "0x77" "1000000" 5 900 1700000000000

def secondPaid : Observation := paid "0x77" "2000000" 6 900 1700000000000

def thirdPaid : Observation := paid "0x78" "1000000" 5 905 1700000060000

-- An earlier call came as far as the first one.
def syncedDb : SyncDb :=
  ⟨[firstPaid.draft], some ⟨900, 5, 1700000030000⟩, paymentRows.take 1⟩

theorem distinguished_payments : Distinguished [firstPaid, secondPaid, thirdPaid] := by
  simp only [Distinguished, List.forall_mem_cons, List.not_mem_nil, false_imp_iff, implies_true,
    and_true]
  decide

theorem observed_payments : ∀ row ∈ paymentRows,
    Observed plainEthers (hostedContext payer) [firstPaid, secondPaid, thirdPaid] row := by
  simp only [paymentRows, List.forall_mem_cons]
  refine ⟨?_, ?_, ?_, fun row hrow => absurd hrow List.not_mem_nil⟩
  · exact observed_of_timeStamp (by decide) (by decide : _ = some firstPaid.draft) (by simp)
  · exact observed_of_timeStamp (by decide) (by decide : _ = some secondPaid.draft) (by simp)
  · exact observed_of_timeStamp (by decide) (by decide : _ = some thirdPaid.draft) (by simp)

theorem kept_syncedDb : Kept [firstPaid, secondPaid, thirdPaid] syncedDb.transfers := by
  refine ⟨[firstPaid], [(_, _)], fun o ho => ?_, Tracks.empty.add List.not_mem_nil, by decide⟩
  exact List.mem_singleton.mp ho ▸ List.mem_cons_self

theorem sync_complete_payment :
    Complete plainEthers (some "key") (hostedContext payer) paymentRows syncedDb ∧
      Safe plainEthers (some "key") (hostedContext payer) paymentRows syncedDb := by
  refine (sync_complete_iff (by decide) fun times _ => failureFree_of_distinguished
    distinguished_payments observed_payments kept_syncedDb).mpr ?_
  have hrange : ∀ row ∈ paymentRows, syncedDb.lastBlock ≤ row.block ∧ row.block ≤ END_BLOCK := by
    decide
  intro row hrow _
  obtain ⟨hahead, hwithin⟩ := hrange row hrow
  refine .inr ⟨⟨"key", rfl, by decide⟩, hahead, hwithin, fun k _ hfull => ?_⟩
  have := hfull.trans (List.length_filter_le ..)
  exact absurd this (by decide)

-- The same payment on a chain that has come further.
def lateRow : ExplorerTokentx := { paymentRow with blockNumber := some 100000000 }

/-- A row past the queries' last block is not brought in, however often the explorer is asked. -/
theorem late_row_left_out :
    Stable (hostedContext payer) lateRow ∧
      ¬Complete plainEthers (some "key") (hostedContext payer) [lateRow] emptyDb := by
  refine ⟨rfl, ?_⟩
  rintro ⟨n, hn, hread⟩
  have hmem := hread (List.replicate n 0) List.length_replicate lateRow (List.mem_singleton_self _)
    rfl
  rcases n with _ | _ | n
  · exact absurd hmem (by decide)
  · exact absurd hmem (by decide)
  · exact absurd hn (by simp)

end OnchainInvoice.Transfers
