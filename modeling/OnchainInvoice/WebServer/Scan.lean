import OnchainInvoice.Lib.Histories
import OnchainInvoice.WebServer.InvoiceStore

/-!
# A sweep node that reads the whole listing

`syncInvoices` of `sweep-node.ts` asks the web server for one page after another, while invoices are
registered and fetched.  A cursor counts the invoices in front of the next page.  So an invoice is
passed over when it comes to stand in front of the cursor before a page has shown it: when it is
registered again, or when one in front of the cursor leaves the window that the listing looks at.
-/

namespace OnchainInvoice.WebServer

open Lib.Tables Lib.Ranking Lib.Histories

/-! ## The node and the server -/

structure WebServerConfig where
  pageLimit : Option Int
  lookbackMs : Option Int

-- `asked` is the time of the last request; `kept` are the invoices that the server has held, and
-- that every request has looked at, since the scan began.
structure Scan where
  cursor : Option Nat
  asked : Int
  seen : List String
  kept : List String

def Scan.none : Scan := ⟨.none, 0, [], []⟩

variable (TInput TInvoice : Type) in
structure State where
  store : Store TInput TInvoice
  scan : Scan

variable (TInput TInvoice : Type) in
inductive Event
  | register (sessionId invoiceId : String) (input : TInput) (invoice : TInvoice) (now : Int)
  | fetch (invoiceId : String) (session : Option String) (now : Int)
  -- the node begins to read
  | start
  -- the node asks for the next page
  | request (now : Int)

variable {TInput TInvoice : Type}

def State.initial : State TInput TInvoice := ⟨.empty, .none⟩

def idsOf (rows : List (InvoiceRow TInput TInvoice)) : List String := rows.map InvoiceRow.key

def Scan.retain (scan : Scan) (ids : List String) : Scan :=
  { scan with kept := scan.kept.filter fun id => ids.contains id }

variable (options : Options) (config : WebServerConfig)

def cutoffAt (now : Int) : Option Int := config.lookbackMs.map fun lookbackMs => now - lookbackMs

def next (s : State TInput TInvoice) : Event TInput TInvoice → State TInput TInvoice
  | .register sessionId invoiceId input invoice now =>
    let store := handleRegisterInvoice s.store options sessionId invoiceId input invoice now
    { store := store
      scan := if s.scan.cursor.isSome then s.scan.retain (idsOf store.invoices.rows) else s.scan }
  | .fetch invoiceId session now =>
    match handleFetchInvoice s.store options invoiceId session now with
    | some (_, store) => { s with store := store }
    | none => s
  | .start => { s with scan := ⟨some 0, 0, [], idsOf s.store.invoices.rows⟩ }
  | .request now =>
    match s.scan.cursor with
    | none => s
    | some cursor =>
      -- the first request has no cursor, and the server takes it for 0
      let response := handleListInvoices s.store
        ⟨some (config.pageLimit.getD 500), some cursor, config.lookbackMs⟩ now
      let scan := s.scan.retain
        (idsOf (s.store.invoices.rows.filter (selected (cutoffAt config now))))
      { s with
        scan := { scan with
          cursor := response.nextCursor
          asked := now
          seen := scan.seen ++ response.invoices.map InvoiceRecord.id } }

/-! ## Steps that leave the order in front of the cursor as it is -/

-- The clock is not behind a time that it has given before.
def OnTime (store : Store TInput TInvoice) (now : Int) : Prop :=
  ∀ row ∈ store.invoices.rows, row.lastAccessedAt ≤ now

-- No invoice is registered again while the scan has yet to show it, and between two requests no
-- invoice in front of the cursor leaves the window.
def Undisturbed (s : State TInput TInvoice) : Event TInput TInvoice → Prop
  | .register _ invoiceId _ _ now => OnTime s.store now ∧
      (s.scan.cursor.isSome = true → invoiceId ∈ s.scan.kept → invoiceId ∈ s.scan.seen)
  | .fetch _ _ now => OnTime s.store now
  | .start => True
  | .request now => ∀ cursor ∈ s.scan.cursor,
      ∀ row ∈ (listing (cutoffAt config s.scan.asked) s.store.invoices.rows).take cursor,
        selected (cutoffAt config now) row = true

instance (store : Store TInput TInvoice) (now : Int) : Decidable (OnTime store now) :=
  inferInstanceAs (Decidable (∀ row ∈ store.invoices.rows, row.lastAccessedAt ≤ now))

instance (s : State TInput TInvoice) : DecidablePred (Undisturbed config s)
  | .register .. => inferInstanceAs (Decidable (_ ∧ _))
  | .fetch _ _ now => inferInstanceAs (Decidable (OnTime s.store now))
  | .start => .isTrue trivial
  | .request _ => inferInstanceAs (Decidable (∀ cursor ∈ s.scan.cursor, ∀ row ∈ _, _))

/-! ## What stands in front of an invoice -/

variable {options config} {store store' : Store TInput TInvoice} {cutoff : Option Int} {now : Int}
  {rows : List (InvoiceRow TInput TInvoice)} {row x : InvoiceRow TInput TInvoice}
  {sessionId invoiceId : String} {input : TInput} {invoice : TInvoice} {session : Option String}

-- What holds of the invoices of the server at all times.
structure Sound (options : Options) (store : Store TInput TInvoice) : Prop where
  ordered : Ordered store.invoices.rows
  times : ∀ row ∈ store.invoices.rows, row.updatedAt ≤ row.lastAccessedAt
  size : store.invoices.rows.length ≤ options.maxInvoices

theorem selected_mono (hupdated : row.updatedAt ≤ x.updatedAt)
    (haccessed : row.lastAccessedAt ≤ x.lastAccessedAt) (h : selected cutoff row = true) :
    selected cutoff x = true := by
  unfold selected at h ⊢
  cases cutoff with
  | none => rfl
  | some cutoff =>
    simp only [Option.all_some, Bool.or_eq_true, decide_eq_true_iff] at h ⊢
    omega

/-- An update of a row leaves the row in front of the rows that it was in front of. -/
theorem ahead_le_map {f : InvoiceRow TInput TInvoice → InvoiceRow TInput TInvoice}
    {x' : InvoiceRow TInput TInvoice} (hx : x'.updatedAt = x.updatedAt ∧ x'.rowid = x.rowid)
    (hf : ∀ row ∈ rows, before row x → before (f row) x ∧ row.updatedAt ≤ (f row).updatedAt ∧
      row.lastAccessedAt ≤ (f row).lastAccessedAt) :
    ahead cutoff rows x ≤ ahead cutoff (rows.map f) x' := by
  unfold ahead
  rw [List.countP_map]
  apply List.countP_mono_left
  intro row hrow hcounted
  obtain ⟨hselected, hbefore⟩ := Bool.and_eq_true_iff.mp hcounted
  obtain ⟨hmoved, hupdated, haccessed⟩ := hf row hrow (of_decide_eq_true hbefore)
  have hbefore' : before (f row) x' := by
    unfold before at hmoved ⊢
    omega
  simp only [Function.comp_apply, Bool.and_eq_true]
  exact ⟨selected_mono hupdated haccessed hselected, decide_eq_true hbefore'⟩

/-! ## Registrations -/

def registered (sessionId invoiceId : String) (input : TInput) (invoice : TInvoice) (now : Int) :
    InvoiceRecord TInput TInvoice :=
  ⟨invoiceId, sessionId, input, invoice, now, now, now⟩

theorem rows_handleRegisterInvoice :
    let saved := saveInvoice store (registered sessionId invoiceId input invoice now)
    let rows :=
      (handleRegisterInvoice store options sessionId invoiceId input invoice now).invoices.rows
    rows.Perm (lastAccessed options.maxInvoices saved.invoices.rows) ∧
      rows.Sublist saved.invoices.rows :=
  ⟨rows_pruneInvoices, List.filter_sublist⟩

/-- Of one invoice more than fits, the one that goes stood in front of another only if the new one
does. -/
theorem ahead_le_pruned {new : InvoiceRow TInput TInvoice} {max : Nat}
    (hnew : new.updatedAt = now ∧ new.lastAccessedAt = now)
    (hrowid : ∀ row ∈ rows, row.rowid < new.rowid)
    (hclock : ∀ row ∈ rows, row.updatedAt ≤ row.lastAccessedAt ∧ row.lastAccessedAt ≤ now)
    (hsize : rows.length ≤ max) :
    ahead cutoff rows x ≤ ahead cutoff (lastAccessed max (rows ++ [new])) x := by
  unfold ahead lastAccessed
  have hperm := List.perm_insertionSort byAccess (rows ++ [new])
  have hsorted : ((rows ++ [new]).insertionSort byAccess).Pairwise byAccess :=
    List.pairwise_insertionSort _ _
  have hlength : (((rows ++ [new]).insertionSort byAccess).drop max).length ≤ 1 := by
    rw [List.length_drop, hperm.length_eq, List.length_append, List.length_singleton]
    omega
  have hsplit := List.take_append_drop max ((rows ++ [new]).insertionSort byAccess)
  generalize ((rows ++ [new]).insertionSort byAccess).take max = kept at hsplit ⊢
  generalize ((rows ++ [new]).insertionSort byAccess).drop max = dropped at hsplit hlength
  rw [← hsplit] at hperm hsorted
  have hcount := hperm.countP_eq fun row => selected cutoff row && decide (before row x)
  rw [List.countP_append, List.countP_append] at hcount
  suffices h : dropped.countP (fun row => selected cutoff row && decide (before row x)) ≤
      [new].countP fun row => selected cutoff row && decide (before row x) by omega
  cases dropped with
  | nil => exact Nat.zero_le _
  | cons gone rest =>
    have hrest : rest = [] :=
      List.length_eq_zero_iff.mp (Nat.le_zero.mp (Nat.le_of_succ_le_succ hlength))
    rw [hrest] at hperm hsorted ⊢
    rw [List.countP_singleton, List.countP_singleton]
    split
    · next hgone =>
      obtain ⟨hselected, hbefore⟩ := Bool.and_eq_true_iff.mp hgone
      have hbefore : before gone x := of_decide_eq_true hbefore
      have hmem : gone ∈ rows ++ [new] := hperm.subset (by simp)
      have hin : new ∈ kept ++ [gone] := hperm.symm.subset (by simp)
      rw [List.mem_append, List.mem_singleton] at hmem hin
      rcases hmem with hmem | rfl
      · have hid := hrowid gone hmem
        have htimes := hclock gone hmem
        have hkept : new ∈ kept := by
          rcases hin with hin | rfl
          · exact hin
          · omega
        -- the new row was accessed later than the one that goes
        have hlast : byAccess new gone :=
          (List.pairwise_append.mp hsorted).2.2 new hkept gone (List.mem_singleton_self _)
        have hfront : before new x := by
          unfold byAccess at hlast
          unfold before at hbefore ⊢
          omega
        have hin : selected cutoff new = true :=
          selected_mono (by omega) (by omega) hselected
        rw [hin, decide_eq_true hfront]
        exact Nat.le_refl 1
      · rw [if_pos hgone]
    · exact Nat.zero_le _

/-- A registration leaves as many in front of each invoice. -/
theorem ahead_le_register (h : Sound options store) (hclock : OnTime store now) (x) :
    ahead cutoff store.invoices.rows x ≤ ahead cutoff (handleRegisterInvoice store options sessionId
      invoiceId input invoice now).invoices.rows x := by
  have htimes : ∀ row ∈ store.invoices.rows,
      row.updatedAt ≤ row.lastAccessedAt ∧ row.lastAccessedAt ≤ now :=
    fun row hrow => ⟨h.times row hrow, hclock row hrow⟩
  unfold ahead
  rw [rows_handleRegisterInvoice.1.countP_eq]
  rcases @rows_saveInvoice _ _ store (registered sessionId invoiceId input invoice now) with
    ⟨-, hrows⟩ | hrows <;> rw [hrows]
  · exact ahead_le_pruned ⟨rfl, rfl⟩ (fun row hrow => rowid_lt_nextRowid hrow) htimes h.size
  · unfold lastAccessed
    rw [List.take_of_length_le (by simpa using h.size), (List.perm_insertionSort ..).countP_eq]
    apply ahead_le_map ⟨rfl, rfl⟩
    intro row hrow hbefore
    have := htimes row hrow
    split
    · unfold before at hbefore ⊢
      dsimp only [InvoiceRow.merge, registered]
      omega
    · exact ⟨hbefore, Int.le_refl _, Int.le_refl _⟩

theorem Sound.register (h : Sound options store) : Sound options
    (handleRegisterInvoice store options sessionId invoiceId input invoice now) := by
  obtain ⟨hperm, hsublist⟩ := @rows_handleRegisterInvoice _ _ options store now sessionId invoiceId
    input invoice
  have hsaved := @rows_saveInvoice _ _ store (registered sessionId invoiceId input invoice now)
  constructor
  case ordered =>
    apply List.Pairwise.sublist hsublist
    rcases hsaved with ⟨-, hrows⟩ | hrows <;> rw [hrows]
    · rw [List.pairwise_append]
      refine ⟨h.ordered, List.pairwise_singleton .., fun row hrow new hnew => ?_⟩
      rw [List.mem_singleton.mp hnew]
      exact rowid_lt_nextRowid hrow
    · rw [List.pairwise_map]
      apply h.ordered.imp
      intro a b hlt
      split <;> split <;> exact hlt
  case times =>
    intro row hrow
    have hmem := hsublist.subset hrow
    rcases hsaved with ⟨-, hrows⟩ | hrows <;> rw [hrows] at hmem
    · rcases List.mem_append.mp hmem with hmem | hmem
      · exact h.times row hmem
      · rw [List.mem_singleton.mp hmem]
        exact Int.le_refl _
    · obtain ⟨old, hold, rfl⟩ := List.mem_map.mp hmem
      split
      · exact Int.le_refl _
      · exact h.times old hold
  case size =>
    rw [hperm.length_eq]
    exact List.length_take_le ..

theorem mem_of_mem_register (hrow : row ∈ (handleRegisterInvoice store options sessionId
    invoiceId input invoice now).invoices.rows) (hother : row.key ≠ invoiceId) :
    row ∈ store.invoices.rows := by
  have hmem := rows_handleRegisterInvoice.2.subset hrow
  rcases @rows_saveInvoice _ _ store (registered sessionId invoiceId input invoice now) with
    ⟨-, hrows⟩ | hrows <;> rw [hrows] at hmem
  · rcases List.mem_append.mp hmem with hmem | hmem
    · exact hmem
    · exact absurd (congrArg InvoiceRow.key (List.mem_singleton.mp hmem)) hother
  · obtain ⟨old, hold, rfl⟩ := List.mem_map.mp hmem
    split
    · next hsame =>
      rw [if_pos hsame] at hother
      exact absurd hsame hother
    · exact hold

/-! ## Fetches -/

def InvoiceRow.touch (invoiceId : String) (now : Int) (row : InvoiceRow TInput TInvoice) :
    InvoiceRow TInput TInvoice :=
  if row.key = invoiceId then { row with lastAccessedAt := now } else row

theorem rows_handleFetchInvoice {record : InvoiceRecord TInput TInvoice}
    (hfetch : handleFetchInvoice store options invoiceId session now = some (record, store')) :
    store'.invoices.rows = store.invoices.rows.map (InvoiceRow.touch invoiceId now) := by
  unfold handleFetchInvoice getInvoice at hfetch
  cases hfind : store.invoices.find? invoiceId with
  | none =>
    rw [hfind] at hfetch
    cases hfetch
  | some found =>
    rw [hfind] at hfetch
    cases hfetch
    have hkey : found.key = invoiceId := Table.key_of_find? hfind
    have hrows : (saveInvoice store { found.toInvoiceRecord with
        lastAccessedAt := now }).invoices.rows =
        store.invoices.rows.map (InvoiceRow.touch invoiceId now) := by
      rcases @rows_saveInvoice _ _ store { found.toInvoiceRecord with lastAccessedAt := now } with
        ⟨hfree, -⟩ | hrows
      · exact absurd (hfree.symm.trans (hkey ▸ hfind : store.invoices.find? found.key = _))
          (Option.some_ne_none _).symm
      rw [hrows]
      apply List.map_congr_left
      intro row hrow
      unfold InvoiceRow.touch
      rw [← hkey]
      show (if row.key = found.key then _ else row) = if row.key = found.key then _ else row
      split
      · next hsame =>
        have hrow := Table.find?_of_mem hrow
        rw [hsame, hkey, hfind] at hrow
        cases hrow
        rfl
      · rfl
    rw [← hrows]
    cases session <;> rfl

theorem ahead_le_touch (hclock : ∀ row ∈ rows, row.lastAccessedAt ≤ now) :
    ahead cutoff rows x ≤
      ahead cutoff (rows.map (InvoiceRow.touch invoiceId now)) (x.touch invoiceId now) := by
  apply ahead_le_map
  · unfold InvoiceRow.touch
    split <;> exact ⟨rfl, rfl⟩
  · intro row hrow hbefore
    unfold InvoiceRow.touch
    split
    · exact ⟨hbefore, Int.le_refl _, hclock row hrow⟩
    · exact ⟨hbefore, Int.le_refl _, Int.le_refl _⟩

theorem Sound.fetch {record : InvoiceRecord TInput TInvoice} (h : Sound options store)
    (hclock : OnTime store now)
    (hfetch : handleFetchInvoice store options invoiceId session now = some (record, store')) :
    Sound options store' := by
  have hrows := rows_handleFetchInvoice hfetch
  constructor
  case ordered =>
    unfold Ordered
    rw [hrows, List.pairwise_map]
    apply h.ordered.imp
    intro a b hlt
    unfold InvoiceRow.touch
    split <;> split <;> exact hlt
  case times =>
    intro row hrow
    rw [hrows] at hrow
    obtain ⟨old, hold, rfl⟩ := List.mem_map.mp hrow
    unfold InvoiceRow.touch
    split
    · exact Int.le_trans (h.times old hold) (hclock old hold)
    · exact h.times old hold
  case size =>
    rw [hrows, List.length_map]
    exact h.size

/-! ## Requests -/

/-- If none of the first rows leaves the window, they stay in front. -/
theorem le_ahead_of_selected {cutoff' : Option Int} {cursor : Nat} (hordered : Ordered rows)
    (hstays : ∀ row ∈ (listing cutoff rows).take cursor, selected cutoff' row = true)
    (h : cursor ≤ ahead cutoff rows x) : cursor ≤ ahead cutoff' rows x := by
  have hsorted := @listing_sorted _ _ _ cutoff hordered
  have hrank : cursor ≤ rank before (listing cutoff rows) x := by rwa [rank_listing]
  have hnodup : ((listing cutoff rows).take cursor).Nodup := by
    apply List.Pairwise.sublist (List.take_sublist ..)
    apply hsorted.imp
    rintro a b hbefore rfl
    exact Std.Irrefl.irrefl a hbefore
  have hsubset : (listing cutoff rows).take cursor ⊆
      rows.filter fun row => selected cutoff' row && decide (before row x) := by
    intro row hrow
    rw [List.mem_filter, Bool.and_eq_true, decide_eq_true_iff]
    exact ⟨(mem_listing.mp (List.mem_of_mem_take hrow)).1, hstays row hrow,
      before_of_mem_take hsorted hrow hrank⟩
  have hlength := (List.subperm_of_subset hnodup hsubset).length_le
  rwa [length_take_of_le_rank hrank, ← List.countP_eq_length_filter] at hlength

theorem row_mem_of_key {rows' : List (InvoiceRow TInput TInvoice)}
    (hnodup : (rows.map InvoiceRow.key).Nodup) (hrow : row ∈ rows) (hsubset : rows' ⊆ rows)
    (hid : row.key ∈ idsOf rows') : row ∈ rows' := by
  obtain ⟨row', hrow', hkey⟩ := List.mem_map.mp hid
  rwa [← List.inj_on_of_nodup_map hnodup (hsubset hrow') hrow hkey]

/-- An invoice with enough others in front of it is on the page, or behind it. -/
theorem listed_or_behind {cursor limit : Nat} (h : Ordered store.invoices.rows)
    (hrow : row ∈ store.invoices.rows) (hselected : selected cutoff row = true)
    (hcursor : cursor ≤ ahead cutoff store.invoices.rows row) :
    row.key ∈ (listInvoices store cutoff cursor limit).invoices.map InvoiceRecord.id ∨
      (listInvoices store cutoff cursor limit).nextCursor = some (cursor + limit) ∧
        cursor + limit ≤ ahead cutoff store.invoices.rows row := by
  have hlisting : row ∈ listing cutoff store.invoices.rows := mem_listing.mpr ⟨hrow, hselected⟩
  by_cases hlimit : ahead cutoff store.invoices.rows row < cursor + limit
  · exact .inl (List.mem_map_of_mem (mem_listInvoices h hlisting hcursor hlimit))
  · have hlength := rank_lt_length (listing_sorted h) hlisting
    rw [rank_listing] at hlength
    rw [nextCursor_eq, if_pos (by omega)]
    exact .inr ⟨rfl, by omega⟩

/-! ## Whole scans -/

variable {s : State TInput TInvoice} {event : Event TInput TInvoice}
  {events : List (Event TInput TInvoice)}

-- An invoice that has been kept and that no page has shown is not in front of the cursor.
structure Settled (options : Options) (config : WebServerConfig) (s : State TInput TInvoice) :
    Prop where
  sound : Sound options s.store
  held : s.scan.cursor.isSome = true → ∀ id ∈ s.scan.kept, id ∈ idsOf s.store.invoices.rows
  behind : ∀ cursor ∈ s.scan.cursor, ∀ row ∈ s.store.invoices.rows, row.key ∈ s.scan.kept →
    row.key ∉ s.scan.seen →
    cursor ≤ ahead (cutoffAt config s.scan.asked) s.store.invoices.rows row
  listed : s.scan.cursor = none → ∀ id ∈ s.scan.kept, id ∈ s.scan.seen

theorem settled_initial : Settled options config (State.initial : State TInput TInvoice) where
  sound := ⟨List.Pairwise.nil, fun _ hrow => absurd hrow List.not_mem_nil, Nat.zero_le _⟩
  held := fun h => absurd h Bool.false_ne_true
  behind := fun _ h => absurd h (Option.not_mem_none _)
  listed := fun _ _ hid => absurd hid List.not_mem_nil

theorem Scan.mem_retain {scan : Scan} {ids : List String} {id : String} :
    id ∈ (scan.retain ids).kept ↔ id ∈ scan.kept ∧ id ∈ ids := by
  unfold Scan.retain
  rw [List.mem_filter, List.contains_iff_mem]

theorem Settled.register (h : Settled options config s)
    (hundisturbed : Undisturbed config s (.register sessionId invoiceId input invoice now)) :
    Settled options config
      (next options config s (.register sessionId invoiceId input invoice now)) := by
  obtain ⟨hclock, hshown⟩ := hundisturbed
  unfold next
  dsimp only
  cases hcursor : s.scan.cursor with
  | none =>
    constructor
    case sound => exact h.sound.register
    case held =>
      intro hsome
      rw [if_neg (by simp), hcursor] at hsome
      cases hsome
    case behind =>
      intro cursor hmem
      rw [if_neg (by simp), hcursor] at hmem
      cases hmem
    case listed => exact fun _ => h.listed hcursor
  | some at_ =>
    rw [Option.isSome_some, if_pos rfl]
    constructor
    case sound => exact h.sound.register
    case held => exact fun _ id hid => (Scan.mem_retain.mp hid).2
    case behind =>
      intro cursor hmem row hrow hkept hunseen
      have hheld : row.key ∈ s.scan.kept := (Scan.mem_retain.mp hkept).1
      -- a row that no page has shown has not been registered again
      have hother : row.key ≠ invoiceId := by
        rintro rfl
        exact hunseen (hshown (hcursor ▸ rfl) hheld)
      have hold := h.behind cursor hmem row (mem_of_mem_register hrow hother) hheld hunseen
      exact Nat.le_trans hold (ahead_le_register h.sound hclock row)
    case listed =>
      intro hnone
      rw [show (s.scan.retain _).cursor = s.scan.cursor from rfl, hcursor] at hnone
      cases hnone

theorem Settled.fetch (h : Settled options config s)
    (hundisturbed : Undisturbed config s (.fetch invoiceId session now)) :
    Settled options config (next options config s (.fetch invoiceId session now)) := by
  unfold next
  dsimp only
  cases hfetch : handleFetchInvoice s.store options invoiceId session now with
  | none => exact h
  | some answer =>
    obtain ⟨record, store⟩ := answer
    have hrows := rows_handleFetchInvoice hfetch
    have hkey : ∀ row : InvoiceRow TInput TInvoice, (row.touch invoiceId now).key = row.key := by
      intro row
      unfold InvoiceRow.touch
      split <;> rfl
    constructor
    case sound => exact h.sound.fetch hundisturbed hfetch
    case held =>
      intro hsome id hid
      have hids : idsOf store.invoices.rows = idsOf s.store.invoices.rows := by
        unfold idsOf
        rw [hrows, List.map_map]
        exact List.map_congr_left fun row _ => hkey row
      rw [hids]
      exact h.held hsome id hid
    case behind =>
      intro cursor hmem row hrow hkept hunseen
      rw [hrows] at hrow ⊢
      obtain ⟨old, hold, rfl⟩ := List.mem_map.mp hrow
      rw [hkey] at hkept hunseen
      exact Nat.le_trans (h.behind cursor hmem old hold hkept hunseen)
        (ahead_le_touch hundisturbed)
    case listed => exact h.listed

theorem Settled.request (h : Settled options config s)
    (hundisturbed : Undisturbed config s (.request now)) :
    Settled options config (next options config s (.request now)) := by
  unfold next
  dsimp only
  cases hcursor : s.scan.cursor with
  | none =>
    show Settled options config s
    exact h
  | some cursor =>
    have hpage : ∀ row ∈ s.store.invoices.rows,
        row.key ∈ (s.scan.retain (idsOf (s.store.invoices.rows.filter
          (selected (cutoffAt config now))))).kept → row.key ∉ s.scan.seen →
        let limit := getLimit (some (config.pageLimit.getD 500)) 500
        let page := listInvoices s.store (cutoffAt config now) cursor limit
        row.key ∈ page.invoices.map InvoiceRecord.id ∨ page.nextCursor = some (cursor + limit) ∧
          cursor + limit ≤ ahead (cutoffAt config now) s.store.invoices.rows row := by
      intro row hrow hkept hunseen
      obtain ⟨hkept, hid⟩ := Scan.mem_retain.mp hkept
      have hselected := (List.mem_filter.mp
        (row_mem_of_key s.store.invoices.nodup hrow List.filter_sublist.subset hid)).2
      have hbehind := le_ahead_of_selected h.sound.ordered (hundisturbed cursor hcursor)
        (h.behind cursor hcursor row hrow hkept hunseen)
      exact listed_or_behind h.sound.ordered hrow hselected hbehind
    constructor
    case sound => exact h.sound
    case held =>
      intro _ id hid
      exact h.held (hcursor ▸ rfl) id (Scan.mem_retain.mp hid).1
    case behind =>
      intro cursor' hmem row hrow hkept hunseen
      have hnew := fun hin => hunseen (List.mem_append_right _ hin)
      rcases hpage row hrow hkept (fun hin => hunseen (List.mem_append_left _ hin)) with
        hlisted | ⟨hnext, hbehind⟩
      · exact absurd hlisted hnew
      · cases hnext.symm.trans hmem
        exact hbehind
    case listed =>
      intro hnone id hid
      have hheld := h.held (hcursor ▸ rfl) id (Scan.mem_retain.mp hid).1
      obtain ⟨row, hrow, rfl⟩ := List.mem_map.mp hheld
      by_cases hseen : row.key ∈ s.scan.seen
      · exact List.mem_append_left _ hseen
      · rcases hpage row hrow hid hseen with hlisted | ⟨hnext, -⟩
        · exact List.mem_append_right _ hlisted
        · cases hnext.symm.trans hnone

theorem Settled.step (h : Settled options config s) (hundisturbed : Undisturbed config s event) :
    Settled options config (next options config s event) := by
  cases event with
  | register sessionId invoiceId input invoice now => exact h.register hundisturbed
  | fetch invoiceId session now => exact h.fetch hundisturbed
  | start =>
    constructor
    case sound => exact h.sound
    case held => exact fun _ id hid => hid
    case behind =>
      intro cursor hmem row _ _ _
      cases hmem
      exact Nat.zero_le _
    case listed => exact fun hnone => absurd hnone (Option.some_ne_none _)
  | request now => exact h.request hundisturbed

theorem settled_run
    (h : Each (fun pre event => Undisturbed config (run (next options config) .initial pre) event)
      events) :
    Settled options config
      (run (next options config) (.initial : State TInput TInvoice) events) := by
  induction events using List.reverseRecOn with
  | nil => exact settled_initial
  | append_singleton events event ih =>
    obtain ⟨hevents, hevent⟩ := each_concat.mp h
    rw [run_concat]
    exact (ih hevents).step hevent

/-- Every invoice that the server retains while the node reads, inside the window of every request,
is on one of the pages. -/
theorem retained_listed
    (h : Each (fun pre event => Undisturbed config (run (next options config) .initial pre) event)
      events)
    (hended : (run (next options config) (.initial : State TInput TInvoice) events).scan.cursor
      = none) :
    ∀ id ∈ (run (next options config) (.initial : State TInput TInvoice) events).scan.kept,
      id ∈ (run (next options config) (.initial : State TInput TInvoice) events).scan.seen :=
  (settled_run h).listed hended

-- Two pages are read, and an invoice is registered in between.
def registerBetween (invoiceId : String) : List (Event Unit Unit) :=
  [.register "s" "a" () () 1, .register "s" "b" () () 2, .start, .request 3,
    .register "s" invoiceId () () 4, .request 5, .request 6]

theorem retained_listed_new :
    (run (next ⟨3, 3⟩ ⟨some 1, none⟩) .initial (registerBetween "c")).scan.kept = ["a", "b"] ∧
      ∀ id ∈ (run (next ⟨3, 3⟩ ⟨some 1, none⟩) .initial (registerBetween "c")).scan.kept,
        id ∈ (run (next ⟨3, 3⟩ ⟨some 1, none⟩) .initial (registerBetween "c")).scan.seen :=
  ⟨by decide, retained_listed (each_of_take (by decide)) (by decide)⟩

/-- An invoice that is registered again goes to the front, past the cursor. -/
theorem registered_again_not_listed :
    (run (next ⟨3, 3⟩ ⟨some 1, none⟩) .initial (registerBetween "a")).scan.cursor = none ∧
      "a" ∈ (run (next ⟨3, 3⟩ ⟨some 1, none⟩) .initial (registerBetween "a")).scan.kept ∧
      "a" ∉ (run (next ⟨3, 3⟩ ⟨some 1, none⟩) .initial (registerBetween "a")).scan.seen := by
  decide

end OnchainInvoice.WebServer
