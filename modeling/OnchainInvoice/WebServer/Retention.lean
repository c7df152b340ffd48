import OnchainInvoice.Lib.Recency
import OnchainInvoice.WebServer.Scan

/-!
# Which invoices are kept

A registration keeps the invoices with the latest times, in the store and in the list of its
session.  Those are the ones that were registered or fetched last, as long as the one that has to go
shares its millisecond with none that was first stored after it.
-/

namespace OnchainInvoice.WebServer

open Lib.Tables Lib.Recency

variable {TInput TInvoice : Type}

/-! ## Handlers that read the clock twice -/

-- `trackSessionInvoice` reads the clock again, after the time of the record.
def registerAt (store : Store TInput TInvoice) (options : Options) (sessionId invoiceId : String)
    (input : TInput) (invoice : TInvoice) (now later : Int) : Store TInput TInvoice :=
  let saved := saveInvoice store (registered sessionId invoiceId input invoice now)
  let tracked := trackSessionInvoice saved sessionId invoiceId options.maxInvoicesPerSession later
  pruneInvoices tracked options.maxInvoices

def fetchAt (store : Store TInput TInvoice) (options : Options) (invoiceId : String)
    (session : Option String) (now later : Int) :
    Option (InvoiceRecord TInput TInvoice × Store TInput TInvoice) := do
  let record ← getInvoice store invoiceId
  let record := { record with lastAccessedAt := now }
  let saved := saveInvoice store record
  let tracked := session.elim saved fun sessionId =>
    trackSessionInvoice saved sessionId invoiceId options.maxInvoicesPerSession later
  some (record, tracked)

variable {store : Store TInput TInvoice} {options : Options} {sessionId invoiceId : String}
  {input : TInput} {invoice : TInvoice} {now later : Int} {session : Option String}

/-! ## Runs -/

inductive Call (TInput TInvoice : Type)
  | register (sessionId invoiceId : String) (input : TInput) (invoice : TInvoice)
      (now later : Int)
  | fetch (invoiceId : String) (session : Option String) (now later : Int)

def Call.recordedAt : Call TInput TInvoice → Int
  | .register _ _ _ _ now _ => now
  | .fetch _ _ now _ => now

def Call.trackedAt : Call TInput TInvoice → Int
  | .register _ _ _ _ _ later => later
  | .fetch _ _ _ later => later

/-- The store, with the invoices in the order in which they were registered or fetched last, the
latest first, and for each session those of them that its list is to show. -/
structure World (TInput TInvoice : Type) where
  store : Store TInput TInvoice
  recent : List String
  recentOf : String → List String

def World.initial : World TInput TInvoice := ⟨.empty, [], fun _ => []⟩

variable (options) in
-- The session's list with the invoice in front.
def track (recentOf : String → List String) (sessionId invoiceId : String) :
    String → List String := fun other =>
  if other = sessionId then
    (touch invoiceId (recentOf sessionId)).take options.maxInvoicesPerSession
  else recentOf other

variable (options) in
-- An invoice that is not found changes nothing.
def World.step (w : World TInput TInvoice) : Call TInput TInvoice → World TInput TInvoice
  | .register sessionId invoiceId input invoice now later =>
    let recent := touch invoiceId w.recent
    { store := registerAt w.store options sessionId invoiceId input invoice now later
      recent := recent
      recentOf := fun other => (track options w.recentOf sessionId invoiceId other).filter
        (· ∈ recent.take options.maxInvoices) }
  | .fetch invoiceId session now later =>
    match fetchAt w.store options invoiceId session now later with
    | none => w
    | some (_, store) =>
      { store := store
        recent := touch invoiceId w.recent
        recentOf := session.elim w.recentOf fun sessionId =>
          track options w.recentOf sessionId invoiceId }

-- One clock for the whole run, which may stand still but not go back.
def OneClock : Int → List (Call TInput TInvoice) → Prop
  | _, [] => True
  | clock, c :: calls =>
    clock ≤ c.recordedAt ∧ c.recordedAt ≤ c.trackedAt ∧ OneClock c.trackedAt calls

/-! ## What is kept -/

def Stored (store : Store TInput TInvoice) (invoiceId : String) : Prop :=
  ∃ row ∈ store.invoices.rows, row.key = invoiceId

def sessionRows (store : Store TInput TInvoice) (sessionId : String) : List SessionInvoice :=
  store.sessionInvoices.rows.filter (·.sessionId = sessionId)

def Listed (store : Store TInput TInvoice) (sessionId invoiceId : String) : Prop :=
  ∃ s ∈ sessionRows store sessionId, s.invoiceId = invoiceId

def Call.Registers (sessionId invoiceId : String) : Call TInput TInvoice → Prop
  | .register sessionId' invoiceId' _ _ _ _ => sessionId' = sessionId ∧ invoiceId' = invoiceId
  | .fetch .. => False

variable (options) in
/-- After a call: what is stored and listed are the invoices used last, at most as many as the
limits, and the invoice that the call registers is among them. -/
structure Kept (c : Call TInput TInvoice) (w : World TInput TInvoice) : Prop where
  stored : ∀ id, Stored w.store id ↔ id ∈ w.recent.take options.maxInvoices
  listed : ∀ sessionId id, Listed w.store sessionId id ↔ id ∈ w.recentOf sessionId
  storedCount : w.store.invoices.rows.length ≤ options.maxInvoices
  listedCount : ∀ sessionId,
    (sessionRows w.store sessionId).length ≤ options.maxInvoicesPerSession
  registered : ∀ sessionId id, c.Registers sessionId id →
    Stored w.store id ∧ Listed w.store sessionId id

variable (options) in
def KeepsNewest : World TInput TInvoice → List (Call TInput TInvoice) → Prop
  | _, [] => True
  | w, c :: calls => Kept options c (w.step options c) ∧ KeepsNewest (w.step options c) calls

variable (options) in
-- If an invoice has to go from the full list of the session, no other that was listed after it
-- shares its millisecond.
def ApartInSession (w : World TInput TInvoice) (sessionId invoiceId : String) (later : Int) :
    Prop :=
  invoiceId ∉ w.recentOf sessionId →
    (w.recentOf sessionId).length = options.maxInvoicesPerSession →
    Tracks.Apart SessionInvoice.invoiceId SessionInvoice.position (sessionRows w.store sessionId)
      (w.recentOf sessionId).getLast? later

variable (options) in
-- The same for the full store and for the list of the session.
def Call.Apart (w : World TInput TInvoice) : Call TInput TInvoice → Prop
  | .register sessionId invoiceId _ _ now later =>
    (invoiceId ∉ w.recent.take options.maxInvoices →
      (w.recent.take options.maxInvoices).length = options.maxInvoices →
      Tracks.Apart InvoiceRow.key (·.lastAccessedAt) w.store.invoices.rows
        (w.recent.take options.maxInvoices).getLast? now) ∧
      ApartInSession options w sessionId invoiceId later
  | .fetch invoiceId session _ later =>
    invoiceId ∈ w.recent.take options.maxInvoices →
      ∀ sessionId ∈ session, ApartInSession options w sessionId invoiceId later

variable (options) in
def AllApart : World TInput TInvoice → List (Call TInput TInvoice) → Prop
  | _, [] => True
  | w, c :: calls => c.Apart options w ∧ AllApart (w.step options c) calls

/-! ## The tables -/

variable {recent : List String} {clock : Int} {n : Nat}

abbrev TracksInvoices (store : Store TInput TInvoice) (recent : List String) (clock : Int) : Prop :=
  Tracks InvoiceRow.key (·.lastAccessedAt) store.invoices.rows recent clock

abbrev TracksSession (store : Store TInput TInvoice) (sessionId : String) (recent : List String)
    (clock : Int) : Prop :=
  Tracks SessionInvoice.invoiceId SessionInvoice.position (sessionRows store sessionId) recent clock

/-- Of rows with equal times the later row comes first to go. -/
theorem byAccess_ordered {rows first rest : List (InvoiceRow TInput TInvoice)}
    {x : InvoiceRow TInput TInvoice} (h : Ordered rows) (hrows : rows = first ++ x :: rest) :
    (∀ r ∈ first, x.lastAccessedAt ≤ r.lastAccessedAt → byAccess r x) ∧
      ∀ r ∈ rest, x.lastAccessedAt < r.lastAccessedAt → ¬byAccess x r := by
  rw [hrows] at h
  apply And.intro
  · intro r hr htime
    have hlt := (List.pairwise_append.mp h).2.2 r hr x List.mem_cons_self
    unfold byAccess
    omega
  · intro r hr htime
    unfold byAccess
    omega

/-- A saved invoice comes to the front. -/
theorem saveInvoice_tracks (record : InvoiceRecord TInput TInvoice)
    (h : TracksInvoices store recent clock) (hclock : clock ≤ record.lastAccessedAt)
    (hordered : Ordered store.invoices.rows) :
    TracksInvoices (saveInvoice store record) (touch record.id recent) record.lastAccessedAt ∧
      Ordered (saveInvoice store record).invoices.rows := by
  have hmem : record.id ∈ store.invoices.rows.map InvoiceRow.key ↔ record.id ∈ recent :=
    h.perm.mem_iff
  rcases Table.rows_upsert store.invoices ⟨record, nextRowid store.invoices.rows⟩
    (InvoiceRow.merge record) (fun _ => rfl) with ⟨hnew, hrows⟩ | ⟨hold, hrows⟩
  · have hrows' : (saveInvoice store record).invoices.rows =
        store.invoices.rows ++ [⟨record, nextRowid store.invoices.rows⟩] := hrows
    unfold TracksInvoices
    rw [hrows']
    apply And.intro
    · exact h.append (fun hin => hnew (hmem.mpr hin)) hclock
    · apply List.pairwise_append.mpr
      refine ⟨hordered, List.pairwise_singleton .., ?_⟩
      intro row hrow new hnew
      rw [List.mem_singleton.mp hnew]
      exact rowid_lt_nextRowid hrow
  · have hrows' : (saveInvoice store record).invoices.rows = store.invoices.rows.map fun old =>
        if old.key = record.id then old.merge record else old := hrows
    unfold TracksInvoices
    rw [hrows']
    apply And.intro
    · apply h.map (hmem.mp hold)
      · intro row
        split
        · rfl
        · rfl
      · intro row hkey
        rw [if_pos hkey]
        rfl
      · intro row hkey
        rw [if_neg hkey]
      · exact hclock
    · apply List.pairwise_map.mpr
      apply hordered.imp
      intro a b hlt
      split <;> split <;> exact hlt

theorem length_touch_le {k : String} (h : recent.length ≤ n) : (touch k recent).length ≤ n + 1 := by
  unfold touch
  rw [List.length_cons]
  have herase := List.length_erase_le (a := k) (l := recent)
  omega

/-- Pruning after a registration keeps the invoices that were used last. -/
theorem lastAccessed_tracks (record : InvoiceRecord TInput TInvoice)
    (h : TracksInvoices store recent clock) (hclock : clock ≤ record.lastAccessedAt)
    (hordered : Ordered store.invoices.rows) (hn : 0 < n) (hsize : recent.length ≤ n)
    (hapart : record.id ∉ recent → recent.length = n → Tracks.Apart InvoiceRow.key
      (·.lastAccessedAt) store.invoices.rows recent.getLast? record.lastAccessedAt) :
    Tracks InvoiceRow.key (·.lastAccessedAt)
      (lastAccessed n (saveInvoice store record).invoices.rows) ((touch record.id recent).take n)
      record.lastAccessedAt := by
  obtain ⟨htracks, hordered'⟩ := saveInvoice_tracks record h hclock hordered
  apply htracks.cut (length_touch_le hsize)
  · intro first x rest hrows
    exact byAccess_ordered hordered' hrows
  · intro hfull
    by_cases hin : record.id ∈ recent
    · rw [length_touch_of_mem hin] at hfull
      omega
    · have hfree : InvoiceRow.key ⟨record, nextRowid store.invoices.rows⟩ ∉
          store.invoices.rows.map InvoiceRow.key := fun hmem => hin (h.perm.mem_iff.mp hmem)
      rcases Table.rows_upsert store.invoices ⟨record, nextRowid store.invoices.rows⟩
        (InvoiceRow.merge record) (fun _ => rfl) with ⟨-, hrows⟩ | ⟨hold, -⟩
      · have hrows' : (saveInvoice store record).invoices.rows =
            store.invoices.rows ++ [⟨record, nextRowid store.invoices.rows⟩] := hrows
        rw [hrows']
        exact Tracks.ties_append hin hn (hapart hin) hfull
      · exact absurd hold hfree

/-! ## Sessions -/

theorem key_moved (now : Int) (old : SessionInvoice) :
    SessionInvoice.key { old with position := now } = old.key := rfl

-- The rows of `session_invoices` after the first statement of `trackSessionInvoice`.
def positioned (store : Store TInput TInvoice) (sessionId invoiceId : String) (now : Int) :
    List SessionInvoice :=
  (store.sessionInvoices.upsert ⟨sessionId, invoiceId, now⟩
    (fun old => { old with position := now }) (key_moved now)).rows

theorem mem_sessionRows {s : SessionInvoice} :
    s ∈ sessionRows store sessionId ↔ s ∈ store.sessionInvoices.rows ∧ s.sessionId = sessionId := by
  unfold sessionRows
  rw [List.mem_filter, decide_eq_true_eq]

-- The rows of a session after some of the positions have changed.
theorem filter_map_session {rows : List SessionInvoice} {f : SessionInvoice → SessionInvoice}
    (hf : ∀ s, (f s).sessionId = s.sessionId) (other : String) :
    (rows.map f).filter (·.sessionId = other) = (rows.filter (·.sessionId = other)).map f := by
  rw [List.filter_map]
  congr 1
  apply List.filter_congr
  intro s _
  rw [Function.comp_apply, hf]

/-- An invoice that is tracked comes to the front in its session, and other sessions stay. -/
theorem positioned_filter (invoiceId : String) (hlater : clock ≤ later)
    (h : TracksSession store sessionId recent clock) :
    Tracks SessionInvoice.invoiceId SessionInvoice.position
        ((positioned store sessionId invoiceId later).filter (·.sessionId = sessionId))
        (touch invoiceId recent) later ∧
      (∀ other, other ≠ sessionId →
        (positioned store sessionId invoiceId later).filter (·.sessionId = other) =
          sessionRows store other) ∧
      (invoiceId ∉ recent →
        (positioned store sessionId invoiceId later).filter (·.sessionId = sessionId) =
          sessionRows store sessionId ++ [⟨sessionId, invoiceId, later⟩]) := by
  have hmem : (sessionId, invoiceId) ∈ store.sessionInvoices.rows.map SessionInvoice.key ↔
      invoiceId ∈ recent := by
    rw [h.mem, List.mem_map]
    apply Iff.intro
    · rintro ⟨s, hs, hkey⟩
      cases hkey
      exact ⟨s, mem_sessionRows.mpr ⟨hs, rfl⟩, rfl⟩
    · rintro ⟨s, hs, rfl⟩
      obtain ⟨hrow, rfl⟩ := mem_sessionRows.mp hs
      exact ⟨s, hrow, rfl⟩
  rcases Table.rows_upsert store.sessionInvoices ⟨sessionId, invoiceId, later⟩
    (fun old => { old with position := later }) (fun _ => rfl) with ⟨hnew, hrows⟩ | ⟨hold, hrows⟩
  · have hrows' : positioned store sessionId invoiceId later =
        store.sessionInvoices.rows ++ [⟨sessionId, invoiceId, later⟩] := hrows
    have hsession : (positioned store sessionId invoiceId later).filter (·.sessionId = sessionId) =
        sessionRows store sessionId ++ [⟨sessionId, invoiceId, later⟩] := by
      rw [hrows', List.filter_append, List.filter_cons_of_pos (by simp), List.filter_nil]
      rfl
    refine ⟨?_, ?_, fun _ => hsession⟩
    · rw [hsession]
      exact h.append (fun hin => hnew (hmem.mpr hin)) hlater
    · intro other hother
      rw [hrows']
      rw [List.filter_append, List.filter_cons_of_neg (by simpa using Ne.symm hother),
        List.filter_nil, List.append_nil]
      rfl
  · have hrows' : positioned store sessionId invoiceId later =
        store.sessionInvoices.rows.map fun old =>
          if old.key = (sessionId, invoiceId) then { old with position := later } else old := hrows
    have hsession : ∀ old : SessionInvoice, (if old.key = (sessionId, invoiceId) then
        { old with position := later } else old).sessionId = old.sessionId := by
      intro old
      split
      · rfl
      · rfl
    rw [hrows']
    refine ⟨?_, ?_, fun hnew => absurd (hmem.mp hold) hnew⟩
    · rw [filter_map_session hsession]
      have hsame : ((store.sessionInvoices.rows.filter (·.sessionId = sessionId)).map fun old =>
          if old.key = (sessionId, invoiceId) then { old with position := later } else old) =
          (sessionRows store sessionId).map fun old =>
            if old.invoiceId = invoiceId then { old with position := later } else old := by
        apply List.map_congr_left
        intro s hs
        obtain ⟨-, hs⟩ := mem_sessionRows.mp hs
        unfold SessionInvoice.key
        rw [hs]
        simp
      rw [hsame]
      apply h.map (hmem.mp hold)
      · intro s
        split
        · rfl
        · rfl
      · intro s hs
        rw [if_pos hs]
      · intro s hs
        rw [if_neg hs]
      · exact hlater
    · intro other hother
      rw [filter_map_session hsession]
      have hsame : ∀ s ∈ store.sessionInvoices.rows.filter (·.sessionId = other),
          (if s.key = (sessionId, invoiceId) then { s with position := later } else s) = s := by
        intro s hs
        obtain ⟨-, hs⟩ := mem_sessionRows.mp hs
        rw [if_neg]
        intro hkey
        exact hother (hs.symm.trans (congrArg Prod.fst hkey))
      exact (List.map_congr_left hsame).trans (List.map_id _)

/-- Rows that are selected by the keys of the first part of a sorted list are that part. -/
theorem filter_first {α κ : Type} [DecidableEq κ] {key : α → κ} {rows : List α}
    (hnodup : (rows.map key).Nodup) (le : α → α → Prop) [DecidableRel le] (n : Nat) :
    (rows.filter fun r => (((rows.insertionSort le).take n).map key).contains (key r)).Perm
      ((rows.insertionSort le).take n) := by
  have hperm := List.perm_insertionSort le rows
  have hsorted : ((rows.insertionSort le).map key).Nodup := (hperm.map _).nodup_iff.mpr hnodup
  rw [← List.take_append_drop n (rows.insertionSort le)] at hsorted
  have hfilter := filter_keys_first hsorted
  rw [List.take_append_drop] at hfilter
  exact (hperm.symm.filter _).trans (.of_eq hfilter)

-- The part of the session's rows that `trackSessionInvoice` leaves.
def latest (store : Store TInput TInvoice) (sessionId invoiceId : String) (n : Nat) (now : Int) :
    List SessionInvoice :=
  (((positioned store sessionId invoiceId now).filter (·.sessionId = sessionId)).insertionSort
    fun a b => b.position ≤ a.position).take n

theorem rows_trackSessionInvoice :
    (trackSessionInvoice store sessionId invoiceId n now).sessionInvoices.rows =
      (positioned store sessionId invoiceId now).filter fun s => !(s.sessionId = sessionId &&
        !((latest store sessionId invoiceId n now).map SessionInvoice.invoiceId).contains
          s.invoiceId) := rfl

theorem sessionRows_trackSessionInvoice :
    sessionRows (trackSessionInvoice store sessionId invoiceId n now) sessionId =
      ((positioned store sessionId invoiceId now).filter (·.sessionId = sessionId)).filter
        fun s => ((latest store sessionId invoiceId n now).map SessionInvoice.invoiceId).contains
          s.invoiceId := by
  unfold sessionRows
  rw [rows_trackSessionInvoice, List.filter_filter, List.filter_filter]
  apply List.filter_congr
  intro s _
  cases decide (s.sessionId = sessionId)
  · simp
  · simp

theorem sessionRows_trackSessionInvoice_of_ne {other : String} (h : other ≠ sessionId) :
    sessionRows (trackSessionInvoice store sessionId invoiceId n now) other =
      (positioned store sessionId invoiceId now).filter (·.sessionId = other) := by
  unfold sessionRows
  rw [rows_trackSessionInvoice, List.filter_filter]
  apply List.filter_congr
  intro s _
  by_cases hs : s.sessionId = other
  · simp [hs, h]
  · simp [hs]

/-- A session keeps the invoices that were tracked last. -/
theorem trackSessionInvoice_tracks (invoiceId : String)
    (h : TracksSession store sessionId recent clock)
    (hlater : clock ≤ later) (hn : 0 < n) (hsize : recent.length ≤ n)
    (hapart : invoiceId ∉ recent → recent.length = n → Tracks.Apart SessionInvoice.invoiceId
      SessionInvoice.position (sessionRows store sessionId) recent.getLast? later) :
    TracksSession (trackSessionInvoice store sessionId invoiceId n later) sessionId
        ((touch invoiceId recent).take n) later ∧
      ∀ other, other ≠ sessionId →
        sessionRows (trackSessionInvoice store sessionId invoiceId n later) other =
          sessionRows store other := by
  obtain ⟨htracks, hothers, hnew⟩ := positioned_filter invoiceId hlater h
  have hcut : Tracks SessionInvoice.invoiceId SessionInvoice.position
      (latest store sessionId invoiceId n later) ((touch invoiceId recent).take n) later := by
    apply htracks.cut (length_touch_le hsize)
    · intro first x rest _
      exact ⟨fun _ _ htime => htime, fun _ _ htime => not_le.mpr htime⟩
    · intro hfull
      by_cases hin : invoiceId ∈ recent
      · rw [length_touch_of_mem hin] at hfull
        omega
      · rw [hnew hin]
        exact Tracks.ties_append hin hn (hapart hin) hfull
  apply And.intro
  · apply hcut.of_perm
    rw [sessionRows_trackSessionInvoice]
    exact filter_first (htracks.perm.nodup_iff.mpr htracks.nodup) _ n
  · intro other hother
    rw [sessionRows_trackSessionInvoice_of_ne hother, hothers other hother]

/-! ## Pruning -/

/-- A session's list loses the invoices that are no longer stored. -/
theorem sessionRows_pruneInvoices (store : Store TInput TInvoice) {kept : List String}
    (hkept : ∀ id, id ∈ (lastAccessed n store.invoices.rows).map InvoiceRow.key ↔ id ∈ kept)
    (hknown : ∀ s ∈ sessionRows store sessionId, Stored store s.invoiceId) :
    sessionRows (pruneInvoices store n) sessionId =
      (sessionRows store sessionId).filter fun s => decide (s.invoiceId ∈ kept) := by
  have hrows : (pruneInvoices store n).sessionInvoices.rows =
      store.sessionInvoices.rows.filter fun s => !store.invoices.rows.any fun row =>
        row.key = s.invoiceId &&
          !((lastAccessed n store.invoices.rows).map InvoiceRow.key).contains row.key := rfl
  unfold sessionRows
  rw [hrows, List.filter_filter, List.filter_filter]
  apply List.filter_congr
  intro s hs
  by_cases hsession : s.sessionId = sessionId
  · obtain ⟨row, hrow, hkey⟩ := hknown s (mem_sessionRows.mpr ⟨hs, hsession⟩)
    have hany : (store.invoices.rows.any fun row => row.key = s.invoiceId &&
        !((lastAccessed n store.invoices.rows).map InvoiceRow.key).contains row.key) = true ↔
          s.invoiceId ∉ kept := by
      rw [← hkept, List.any_eq_true]
      apply Iff.intro
      · rintro ⟨row, -, hgone⟩
        rw [Bool.and_eq_true, decide_eq_true_eq] at hgone
        rw [← hgone.1]
        simpa using hgone.2
      · intro hgone
        rw [← hkey] at hgone
        exact ⟨row, hrow, by simpa [hkey] using hgone⟩
    by_cases hin : s.invoiceId ∈ kept
    · rw [Bool.eq_false_iff.mpr fun h => hany.mp h hin, decide_eq_true hin, decide_eq_true hsession]
      rfl
    · rw [hany.mpr hin, decide_eq_false hin]
      simp
  · simp [hsession]

/-! ## One call -/

variable (options) in
structure Invariant (w : World TInput TInvoice) (clock : Int) : Prop where
  ordered : Ordered w.store.invoices.rows
  invoices : TracksInvoices w.store (w.recent.take options.maxInvoices) clock
  sessions : ∀ sessionId, TracksSession w.store sessionId (w.recentOf sessionId) clock
  short : ∀ sessionId, (w.recentOf sessionId).length ≤ options.maxInvoicesPerSession
  known : ∀ sessionId, ∀ id ∈ w.recentOf sessionId, id ∈ w.recent.take options.maxInvoices

variable {w : World TInput TInvoice}

theorem Invariant.initial (options : Options) (clock : Int) :
    Invariant options (World.initial : World TInput TInvoice) clock where
  ordered := List.Pairwise.nil
  invoices := by
    rw [show (World.initial : World TInput TInvoice).recent = [] from rfl, List.take_nil]
    exact .empty clock
  sessions := fun _ => .empty clock
  short := fun _ => Nat.zero_le _
  known := fun _ _ h => absurd h List.not_mem_nil

theorem Invariant.mono (h : Invariant options w clock) (hnow : clock ≤ now) :
    Invariant options w now :=
  { h with
    invoices := h.invoices.mono hnow
    sessions := fun sessionId => (h.sessions sessionId).mono hnow }

-- The lists of the sessions after one of them has tracked an invoice.
theorem track_tracks (saved : Store TInput TInvoice) (h : Invariant options w clock)
    (hlater : clock ≤ later)
    (hper : 0 < options.maxInvoicesPerSession)
    (hapart : ApartInSession options w sessionId invoiceId later)
    (hsaved : saved.sessionInvoices = w.store.sessionInvoices)
    (other : String) :
    TracksSession
      (trackSessionInvoice saved sessionId invoiceId options.maxInvoicesPerSession later) other
      (track options w.recentOf sessionId invoiceId other) later := by
  have hrows : ∀ s, sessionRows saved s = sessionRows w.store s := by
    intro s
    unfold sessionRows
    rw [hsaved]
  have hsession : TracksSession saved sessionId (w.recentOf sessionId) clock := by
    unfold TracksSession
    rw [hrows]
    exact h.sessions sessionId
  have htracks := trackSessionInvoice_tracks invoiceId hsession hlater hper (h.short sessionId)
    (by rw [hrows]; exact hapart)
  unfold track
  split
  · next hother =>
    rw [hother]
    exact htracks.1
  · next hother =>
    unfold TracksSession
    rw [htracks.2 other hother, hrows]
    exact (h.sessions other).mono hlater

theorem mem_track {id other : String}
    (h : id ∈ track options w.recentOf sessionId invoiceId other) :
    id = invoiceId ∨ id ∈ w.recentOf other := by
  unfold track at h
  split at h
  · next hother =>
    rw [hother]
    exact mem_touch.mp (List.mem_of_mem_take h)
  · exact .inr h

theorem length_track (hshort : ∀ s, (w.recentOf s).length ≤ options.maxInvoicesPerSession)
    (other : String) : (track options w.recentOf sessionId invoiceId other).length ≤
      options.maxInvoicesPerSession := by
  unfold track
  split
  · exact List.length_take_le ..
  · exact hshort other

theorem Invariant.register (h : Invariant options w clock) (hmax : 0 < options.maxInvoices)
    (hper : 0 < options.maxInvoicesPerSession) (hnow : clock ≤ now) (hlater : now ≤ later)
    (hapart : Call.Apart options w (.register sessionId invoiceId input invoice now later)) :
    Invariant options
      (w.step options (.register sessionId invoiceId input invoice now later)) later := by
  have hsize : (w.recent.take options.maxInvoices).length ≤ options.maxInvoices :=
    List.length_take_le ..
  have hsaved := saveInvoice_tracks (registered sessionId invoiceId input invoice now)
    h.invoices hnow h.ordered
  have hcut := lastAccessed_tracks (registered sessionId invoiceId input invoice now)
    h.invoices hnow h.ordered hmax hsize hapart.1
  rw [show (registered sessionId invoiceId input invoice now).id = invoiceId from rfl,
    take_touch] at hcut
  have hsessions := track_tracks
    (saveInvoice w.store (registered sessionId invoiceId input invoice now)) h
    (hnow.trans hlater) hper hapart.2 rfl
  have hstep : (w.step options (.register sessionId invoiceId input invoice now later)).store =
      pruneInvoices (trackSessionInvoice
        (saveInvoice w.store (registered sessionId invoiceId input invoice now)) sessionId invoiceId
        options.maxInvoicesPerSession later) options.maxInvoices := rfl
  generalize htracked : trackSessionInvoice
    (saveInvoice w.store (registered sessionId invoiceId input invoice now)) sessionId invoiceId
    options.maxInvoicesPerSession later = tracked at hsessions hstep
  have hinvoices : tracked.invoices =
      (saveInvoice w.store (registered sessionId invoiceId input invoice now)).invoices := by
    rw [← htracked]
    rfl
  rw [← hinvoices] at hcut
  have hknown : ∀ other, ∀ s ∈ sessionRows tracked other, Stored tracked s.invoiceId := by
    intro other s hs
    unfold Stored
    rw [hinvoices]
    apply hsaved.1.mem.mp
    rw [mem_touch]
    rcases mem_track ((hsessions other).mem.mpr ⟨s, hs, rfl⟩) with hid | hid
    · exact .inl hid
    · exact .inr (h.known other _ hid)
  apply Invariant.mk
  · rw [hstep]
    have hordered := hsaved.2
    rw [← hinvoices] at hordered
    exact hordered.filter _
  · unfold TracksInvoices
    rw [hstep]
    exact (hcut.of_perm rows_pruneInvoices).mono hlater
  · intro other
    unfold TracksSession
    rw [hstep, sessionRows_pruneInvoices tracked (fun _ => hcut.perm.mem_iff) (hknown other)]
    exact (hsessions other).filter fun id =>
      decide (id ∈ (touch invoiceId w.recent).take options.maxInvoices)
  · intro other
    exact (List.length_filter_le _ _).trans (length_track h.short other)
  · intro other id hid
    exact of_decide_eq_true (List.mem_filter.mp hid).2

theorem getInvoice_eq_none {id : String} (h : TracksInvoices store recent clock) :
    getInvoice store id = none ↔ id ∉ recent := by
  unfold getInvoice
  rw [Option.map_eq_none_iff, Table.find?_eq_none, h.perm.mem_iff]

theorem Invariant.fetch (h : Invariant options w clock)
    (hper : 0 < options.maxInvoicesPerSession) (hnow : clock ≤ now) (hlater : now ≤ later)
    (hapart : Call.Apart options w (.fetch invoiceId session now later)) :
    Invariant options (w.step options (.fetch invoiceId session now later)) later := by
  unfold World.step fetchAt
  dsimp only
  cases hget : getInvoice w.store invoiceId with
  | none => exact h.mono (hnow.trans hlater)
  | some record =>
    have hin : invoiceId ∈ w.recent.take options.maxInvoices := by
      by_contra hout
      rw [(getInvoice_eq_none h.invoices).mpr hout] at hget
      cases hget
    have hid : record.id = invoiceId := by
      obtain ⟨row, hrow, rfl⟩ := Option.map_eq_some_iff.mp hget
      have hkey : row.key = invoiceId := Table.key_of_find? hrow
      exact hkey
    subst hid
    have hsaved := saveInvoice_tracks { record with lastAccessedAt := now } h.invoices hnow
      h.ordered
    rw [show ({ record with lastAccessedAt := now } : InvoiceRecord TInput TInvoice).id = record.id
      from rfl] at hsaved
    -- An invoice that is stored takes no more room.
    have hrecent : (touch record.id w.recent).take options.maxInvoices =
        touch record.id (w.recent.take options.maxInvoices) := by
      rw [← take_touch, List.take_of_length_le]
      rw [length_touch_of_mem hin]
      exact List.length_take_le ..
    have hinvoices : Tracks InvoiceRow.key (·.lastAccessedAt)
        (saveInvoice w.store { record with lastAccessedAt := now }).invoices.rows
        ((touch record.id w.recent).take options.maxInvoices) later := by
      rw [hrecent]
      exact hsaved.1.mono hlater
    have hfront : ∀ id, id = record.id ∨ id ∈ w.recent.take options.maxInvoices →
        id ∈ (touch record.id w.recent).take options.maxInvoices := by
      intro id hid
      rw [hrecent]
      exact mem_touch.mpr hid
    cases session with
    | none =>
      exact {
        ordered := hsaved.2
        invoices := hinvoices
        sessions := fun other => (h.sessions other).mono (hnow.trans hlater)
        short := h.short
        known := fun other id hid => hfront id (.inr (h.known other id hid)) }
    | some sessionId =>
      exact {
        ordered := hsaved.2
        invoices := hinvoices
        sessions := track_tracks (saveInvoice w.store { record with lastAccessedAt := now }) h
          (hnow.trans hlater) hper (hapart hin sessionId rfl) rfl
        short := fun other => length_track h.short other
        known := fun other id hid =>
          hfront id ((mem_track hid).imp_right (h.known other id)) }

theorem kept_of_invariant {c : Call TInput TInvoice} (h : Invariant options w clock)
    (hregistered : ∀ sessionId id, c.Registers sessionId id →
      id ∈ w.recent.take options.maxInvoices ∧ id ∈ w.recentOf sessionId) : Kept options c w := by
  have hstored : ∀ id, Stored w.store id ↔ id ∈ w.recent.take options.maxInvoices :=
    fun _ => h.invoices.mem.symm
  have hlisted : ∀ sessionId id, Listed w.store sessionId id ↔ id ∈ w.recentOf sessionId :=
    fun sessionId _ => (h.sessions sessionId).mem.symm
  exact {
    stored := hstored
    listed := hlisted
    storedCount := h.invoices.length.trans_le (List.length_take_le ..)
    listedCount := fun sessionId => (h.sessions sessionId).length.trans_le (h.short sessionId)
    registered := fun sessionId id hc =>
      ⟨(hstored id).mpr (hregistered sessionId id hc).1,
        (hlisted sessionId id).mpr (hregistered sessionId id hc).2⟩ }

theorem Invariant.step {c : Call TInput TInvoice} (h : Invariant options w clock)
    (hmax : 0 < options.maxInvoices) (hper : 0 < options.maxInvoicesPerSession)
    (hnow : clock ≤ c.recordedAt) (hlater : c.recordedAt ≤ c.trackedAt)
    (hapart : c.Apart options w) : Invariant options (w.step options c) c.trackedAt := by
  cases c with
  | register sessionId invoiceId input invoice now later =>
    exact h.register hmax hper hnow hlater hapart
  | fetch invoiceId session now later => exact h.fetch hper hnow hlater hapart

-- The invoice that is registered stands in front.
theorem registers_mem {c : Call TInput TInvoice} (hmax : 0 < options.maxInvoices)
    (hper : 0 < options.maxInvoicesPerSession) {sessionId id : String}
    (hc : c.Registers sessionId id) : id ∈ (w.step options c).recent.take options.maxInvoices ∧
      id ∈ (w.step options c).recentOf sessionId := by
  have hhead : ∀ (recent : List String) (n : Nat), 0 < n → id ∈ (touch id recent).take n := by
    intro recent n hn
    unfold touch
    rw [← Nat.succ_pred_eq_of_pos hn, List.take_succ_cons]
    exact List.mem_cons_self
  cases c with
  | register sessionId' invoiceId input invoice now later =>
    obtain ⟨rfl, rfl⟩ := hc
    apply And.intro (hhead _ _ hmax)
    apply List.mem_filter.mpr
    refine ⟨?_, decide_eq_true (hhead _ _ hmax)⟩
    unfold track
    rw [if_pos rfl]
    exact hhead _ _ hper
  | fetch => exact False.elim hc

/-- The newest are kept as long as the times of the invoices that have to go are their own. -/
theorem keepsNewest_of_apart {start : Int} {calls : List (Call TInput TInvoice)}
    (hmax : 0 < options.maxInvoices) (hper : 0 < options.maxInvoicesPerSession)
    (hclock : OneClock start calls) (hapart : AllApart options World.initial calls) :
    KeepsNewest options World.initial calls := by
  have hrun : ∀ (w : World TInput TInvoice) (clock : Int), Invariant options w clock →
      OneClock clock calls → AllApart options w calls → KeepsNewest options w calls := by
    clear hclock hapart
    induction calls with
    | nil => exact fun _ _ _ _ _ => trivial
    | cons c calls ih =>
      intro w clock h hclock hapart
      have hnext := h.step hmax hper hclock.1 hclock.2.1 hapart.1
      exact ⟨kept_of_invariant hnext fun _ _ => registers_mem hmax hper,
        ih _ _ hnext hclock.2.2 hapart.2⟩
  exact hrun World.initial start (.initial options start) hclock hapart

instance (w : World TInput TInvoice) (sessionId invoiceId : String) (later : Int) :
    Decidable (ApartInSession options w sessionId invoiceId later) :=
  inferInstanceAs (Decidable (_ → _ → _))

instance (w : World TInput TInvoice) : DecidablePred (Call.Apart options w)
  | .register .. => inferInstanceAs (Decidable ((_ → _ → _) ∧ _))
  | .fetch invoiceId session _ later => inferInstanceAs (Decidable
      (_ → ∀ sessionId ∈ session, ApartInSession options w sessionId invoiceId later))

instance decidableAllApart : (w : World TInput TInvoice) → DecidablePred (AllApart options w)
  | _, [] => .isTrue trivial
  | w, c :: calls =>
    have := decidableAllApart (w.step options c) calls
    inferInstanceAs (Decidable (_ ∧ _))

-- A burst of registrations and a fetch, at times that move on.
def retentionRun : List (Call Unit Unit) :=
  [.register "s" "a" () () 5 5, .register "s" "b" () () 6 6, .fetch "a" (some "s") 7 7,
    .register "s" "c" () () 7 8]

theorem keepsNewest_of_retentionRun :
    (retentionRun.foldl (World.step ⟨2, 2⟩) World.initial).recent = ["c", "a", "b"] ∧
      KeepsNewest ⟨2, 2⟩ World.initial retentionRun :=
  ⟨by decide +kernel,
    keepsNewest_of_apart (by decide) (by decide)
      (by simp [retentionRun, OneClock, Call.recordedAt, Call.trackedAt] : OneClock 5 retentionRun)
      (by decide +kernel)⟩

/-- Of two invoices that are registered in one millisecond where there is room for one, the second
goes. -/
theorem newest_dropped : ¬∀ (options : Options) (start : Int) (calls : List (Call Unit Unit)),
    0 < options.maxInvoices → 0 < options.maxInvoicesPerSession → OneClock start calls →
      KeepsNewest options World.initial calls := by
  intro h
  have hkept := h ⟨1, 1⟩ 5 [.register "s" "a" () () 5 5, .register "s" "b" () () 5 5]
    (by decide) (by decide) (by simp [OneClock, Call.recordedAt, Call.trackedAt])
  obtain ⟨row, hrow, hkey⟩ := (hkept.2.1.registered "s" "b" ⟨rfl, rfl⟩).1
  have hrows : (World.step ⟨1, 1⟩ (World.step ⟨1, 1⟩ World.initial
      (.register "s" "a" () () 5 5)) (.register "s" "b" () () 5 5)).store.invoices.rows.map
        InvoiceRow.key = ["a"] := by decide +kernel
  have hmem := List.mem_map_of_mem (f := InvoiceRow.key) hrow
  rw [hkey, hrows] at hmem
  exact absurd hmem (by decide)

end OnchainInvoice.WebServer
