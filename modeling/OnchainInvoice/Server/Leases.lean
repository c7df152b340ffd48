import OnchainInvoice.Server.Effects

/-!
# Claim leases

A claim gives one sweeper an invoice for a while.  While the lease lasts nobody else can claim the
invoice or report it swept; when it has ended anybody may.  At the instant at which it ends the two
conditions disagree.
-/

namespace OnchainInvoice.Server

open Lib.Revert Lib.Runs Lib.Tables Table

variable {db db' : CommerceDb} {invoice : Invoice} {id holder : String} {claimedUntil now : Time}

/-! ## Runs -/

-- One clock for the whole run; the database takes calls one at a time.
def OneClock (calls : List Call) : Prop := calls.Pairwise fun c c' => c.ends ≤ c'.starts

def Call.expectedVersion : Call → Option Number
  | .claim input _ => some input.expectedVersion
  | .track input _ => input.expectedVersion

-- An accepted call was not stale, moves the version of its invoice on and leaves all others alone.
structure MovesVersion (db db' : CommerceDb) (c : Call) (invoice : Invoice) : Prop where
  found : db.invoices.find? c.invoiceId = some invoice
  fresh : ∀ version ∈ c.expectedVersion, some invoice.version = version
  moved : (db'.invoices.find? c.invoiceId).map Invoice.version = some (invoice.version + 1)
  others : ∀ id, id ≠ c.invoiceId → db'.invoices.find? id = db.invoices.find? id

theorem version_update (c : Call) (invoice : Invoice) :
    (c.update invoice).version = invoice.version + 1 := by
  cases c <;> rfl

theorem movesVersion_of_step {c : Call} (h : step db c = .ok db') :
    ∃ invoice, MovesVersion db db' c invoice := by
  obtain ⟨invoice, hfound, haccepts, hself⟩ := find?_step h c.invoiceId
  refine ⟨invoice, hfound, ?_, ?_, ?_⟩
  · cases c with
    | claim input now =>
      intro version hversion
      cases hversion
      unfold Accepts claimable at haccepts
      exact (of_decide_eq_true haccepts).1
    | track input now => exact haccepts.version
  · rw [hself, if_pos rfl, Option.map_some, version_update]
  · intro id hid
    obtain ⟨_, _, _, hother⟩ := find?_step h id
    rw [hother, if_neg hid]

/-! ## Exclusion -/

-- What ends a lease before its time: a report that the invoice has been swept, or another claim by
-- its holder.
def Ends (id holder : String) : Call → Prop
  | .claim input _ => input.invoiceId = id ∧ input.sweeperAddress = holder
  | .track input _ => input.invoiceId = id ∧ input.status = some .swept

-- The invoice is the holder's until then.
def Leased (id holder : String) (claimedUntil : Time) (db : CommerceDb) : Prop :=
  ∃ invoice, db.invoices.find? id = some invoice ∧ invoice.status ≠ .swept ∧
    invoice.claimedBy = some holder ∧ invoice.claimedUntil = some claimedUntil

theorem not_claimable {input : ClaimInvoice} (hholder : invoice.claimedBy = some holder)
    (huntil : invoice.claimedUntil = some claimedUntil) (hother : input.sweeperAddress ≠ holder)
    (hnow : now ≤ claimedUntil) : claimable invoice input now = false := by
  have hlate : ¬claimedUntil < now := not_lt.mpr hnow
  simp [claimable, hholder, huntil, Ne.symm hother, hlate]

/-- While a lease lasts, calls that do not end it leave it in place. -/
theorem Leased.step {c : Call} (h : Leased id holder claimedUntil db) (hok : step db c = .ok db')
    (hends : ¬Ends id holder c) (hnow : c.starts ≤ claimedUntil) :
    Leased id holder claimedUntil db' := by
  obtain ⟨invoice, hinvoice, hstatus, hholder, huntil⟩ := h
  obtain ⟨row, hrow, haccepts, hfind⟩ := find?_step hok id
  by_cases hid : id = c.invoiceId
  · subst hid
    rw [hinvoice] at hrow
    cases hrow
    rw [if_pos rfl] at hfind
    cases c with
    | claim input now =>
      have hother : input.sweeperAddress ≠ holder := fun hself => hends ⟨rfl, hself⟩
      have hrefused : claimable invoice input now = false :=
        not_claimable hholder huntil hother hnow
      exact absurd (hrefused.symm.trans haccepts) Bool.false_ne_true
    | track input now =>
      have hswept : input.status.getD invoice.status ≠ .swept := by
        cases hreport : input.status with
        | none => exact hstatus
        | some status => exact fun hs => hends ⟨rfl, by rw [hreport]; exact congrArg some hs⟩
      refine ⟨_, hfind, hswept, ?_, ?_⟩
      · exact (if_neg hswept).trans hholder
      · exact (if_neg hswept).trans huntil
  · rw [if_neg hid] at hfind
    exact ⟨invoice, hfind.trans hinvoice, hstatus, hholder, huntil⟩

theorem Leased.of_claim {input : ClaimInvoice}
    (hok : Server.step db (.claim input now) = .ok db') :
    Leased input.invoiceId input.sweeperAddress (now + input.leaseMs) db' := by
  obtain ⟨invoice, _, haccepts, hfind⟩ := find?_step hok input.invoiceId
  have hstatus : invoice.status ≠ .swept := by
    unfold Accepts claimable at haccepts
    intro hswept
    have := (of_decide_eq_true haccepts).2.1
    rw [hswept] at this
    exact absurd this (by decide)
  exact ⟨_, hfind.trans (if_pos rfl), hstatus, rfl, rfl⟩

theorem Leased.run {calls : List Call} (h : Leased id holder claimedUntil db)
    (hends : ∀ pre c post db', calls = pre ++ c :: post →
      Server.step (run Server.step db pre) c = .ok db' → ¬Ends id holder c)
    (hnow : ∀ c ∈ calls, c.starts ≤ claimedUntil) :
    Leased id holder claimedUntil (run Server.step db calls) := by
  apply run_invariant_of_prefix _ h
  intro pre c post db' hcalls hleased hok
  exact hleased.step hok (hends pre c post db' hcalls hok) (hnow c (by simp [hcalls]))

-- A claim that is accepted while an earlier claim of another sweeper has time left comes after an
-- accepted call that ended the lease.
def Exclusive (db : CommerceDb) (calls : List Call) : Prop :=
  ∀ pre a mid b post now now', calls = pre ++ .claim a now :: mid ++ .claim b now' :: post →
    a.invoiceId = b.invoiceId → a.sweeperAddress ≠ b.sweeperAddress →
    Succeeds Server.step (run Server.step db pre) (.claim a now) →
    Succeeds Server.step (run Server.step db (pre ++ .claim a now :: mid)) (.claim b now') →
    now' ≤ now + a.leaseMs →
      ∃ front c back, mid = front ++ c :: back ∧ Ends a.invoiceId a.sweeperAddress c ∧
        Succeeds Server.step (run Server.step db (pre ++ .claim a now :: front)) c

theorem exclusive {calls : List Call} (hclock : OneClock calls) : Exclusive db calls := by
  intro pre a mid b post now now' hcalls hid hsweeper ha hb hnow
  by_contra hnone
  obtain ⟨db₁, hok₁⟩ := ha
  obtain ⟨db₂, hok₂⟩ := hb
  have hend : ∀ c ∈ mid, c.starts ≤ now + a.leaseMs := by
    intro c hc
    rw [hcalls] at hclock
    have hle : c.ends ≤ now' := (List.pairwise_append.mp hclock).2.2 c (by simp [hc]) _
      (List.mem_cons_self ..)
    cases c with
    | claim input now => exact hle.trans hnow
    | track input now => exact (now.ordered.trans hle).trans hnow
  have hleased : Leased a.invoiceId a.sweeperAddress (now + a.leaseMs)
      (run Server.step db (pre ++ .claim a now :: mid)) := by
    rw [run_split hok₁]
    apply (Leased.of_claim hok₁).run _ hend
    intro front c back db' hmid hok hends
    apply hnone
    exact ⟨front, c, back, hmid, hends, db', by rw [run_split hok₁]; exact hok⟩
  obtain ⟨invoice, hinvoice, -, hholder, huntil⟩ := hleased
  obtain ⟨row, hrow, haccepts, -⟩ := find?_step hok₂ b.invoiceId
  have hsame : invoice = row := by
    rw [hid] at hinvoice
    exact Option.some.inj (hinvoice.symm.trans hrow)
  rw [← hsame] at haccepts
  have hrefused : claimable invoice b now' = false :=
    not_claimable hholder huntil (Ne.symm hsweeper) hnow
  exact absurd (hrefused.symm.trans haccepts) Bool.false_ne_true

/-! ## Who may do what -/

-- Registered addresses that differ at all differ up to letter case.
def Another (holder sweeper : String) : Prop :=
  sweeper ≠ "" ∧ lowerCase sweeper ≠ lowerCase holder

def MayClaim (db : CommerceDb) (id holder : String) (now : Time) : Prop :=
  ∃ input : ClaimInvoice, input.invoiceId = id ∧ Another holder input.sweeperAddress ∧
    ∃ answer, claimInvoice db input now = .ok answer

structure OnlyHolder (db : CommerceDb) (id holder : String) (now : Time) : Prop where
  others : ∀ (input : TrackInvoice) (reads : Reads) (sweeper : String), input.invoiceId = id →
    input.status = some .swept → input.sweeperAddress = some sweeper → Another holder sweeper →
      reads.check = now → ∃ e, trackInvoice db input reads = .error e
  holder : ∀ (input : TrackInvoice) (reads : Reads), input.invoiceId = id →
    input.status = some .swept → input.sweeperAddress = some holder →
      input.expectedVersion = none → reads.check = now →
        ∃ answer, trackInvoice db input reads = .ok answer

theorem exists_another (holder : String) : ∃ sweeper, Another holder sweeper := by
  by_cases h : lowerCase "a" = lowerCase holder
  · refine ⟨"b", by decide, ?_⟩
    rw [← h]
    decide
  · exact ⟨"a", by decide, h⟩

theorem mayClaim_iff (hinvoice : db.invoices.find? id = some invoice)
    (hholder : invoice.claimedBy = some holder) (huntil : invoice.claimedUntil = some claimedUntil) :
    MayClaim db id holder now ↔ claimedUntil < now ∧ invoice.status ∈ workerStatuses := by
  apply Iff.intro
  · rintro ⟨input, rfl, hanother, ⟨answer, db'⟩, hok⟩
    obtain ⟨row, hrow, hclaimable, -, -⟩ := claimInvoice_eq_ok.mp hok
    rw [hinvoice] at hrow
    cases hrow
    unfold claimable at hclaimable
    rw [hholder, huntil] at hclaimable
    have hne : holder ≠ input.sweeperAddress := fun h => hanother.2 (h ▸ rfl)
    have hwhere := of_decide_eq_true hclaimable
    exact ⟨by simpa [hne] using hwhere.2.2, hwhere.2.1⟩
  · rintro ⟨hlate, hstatus⟩
    obtain ⟨sweeper, hanother⟩ := exists_another holder
    refine ⟨⟨id, sweeper, some invoice.version, 0⟩, rfl, hanother, _,
      claimInvoice_eq_ok.mpr ⟨invoice, hinvoice, ?_, rfl, rfl⟩⟩
    unfold claimable
    rw [huntil]
    exact decide_eq_true ⟨rfl, hstatus, by simp [hlate]⟩

theorem claimedByAnother_iff {sweeper : String} (hholder : invoice.claimedBy = some holder)
    (huntil : invoice.claimedUntil = some claimedUntil) :
    claimedByAnother invoice sweeper now = true ↔
      holder ≠ "" ∧ lowerCase holder ≠ lowerCase sweeper ∧ now < claimedUntil := by
  unfold claimedByAnother
  rw [hholder, huntil]
  exact decide_eq_true_iff

-- A report that the invoice has been swept, by this sweeper and for any version.
def sweptReport (id sweeper : String) : TrackInvoice where
  invoiceId := id
  status := some .swept
  amountPaid := none
  amountSwept := none
  feeCollected := none
  gasSpentWei := none
  sweepTx := none
  expectedVersion := none
  sweeperAddress := some sweeper

theorem onlyHolder_iff (hinvoice : db.invoices.find? id = some invoice)
    (hholder : invoice.claimedBy = some holder) (hempty : holder ≠ "")
    (huntil : invoice.claimedUntil = some claimedUntil) :
    OnlyHolder db id holder now ↔ now < claimedUntil := by
  apply Iff.intro
  · intro h
    by_contra hlate
    obtain ⟨sweeper, hanother⟩ := exists_another holder
    have htrackable : Trackable invoice (sweptReport id sweeper) now := by
      refine ⟨fun _ hversion => absurd hversion (by simp [sweptReport]), fun _ other hother _ => ?_⟩
      rw [← Bool.not_eq_true, claimedByAnother_iff hholder huntil]
      exact fun hleased => hlate hleased.2.2
    have hok : trackInvoice db (sweptReport id sweeper) ⟨now, now, le_refl now⟩ = .ok (_, _) :=
      trackInvoice_eq_ok.mpr ⟨invoice, hinvoice, htrackable, rfl, rfl⟩
    obtain ⟨e, he⟩ := h.others (sweptReport id sweeper) ⟨now, now, le_refl now⟩ sweeper rfl rfl rfl
      hanother rfl
    rw [he] at hok
    exact absurd hok (by simp)
  · intro hnow
    apply OnlyHolder.mk
    · rintro input reads sweeper rfl hswept hsweeper hanother rfl
      cases hok : trackInvoice db input reads with
      | error e => exact ⟨e, rfl⟩
      | ok answer =>
        obtain ⟨row, hrow, htrackable, -, -⟩ := trackInvoice_eq_ok.mp hok
        rw [hinvoice] at hrow
        cases hrow
        have hleased : claimedByAnother invoice sweeper reads.check = true :=
          (claimedByAnother_iff hholder huntil).mpr ⟨hempty, hanother.2.symm, hnow⟩
        have hfree := htrackable.lease hswept sweeper hsweeper hanother.1
        exact absurd (hfree.symm.trans hleased) Bool.false_ne_true
    · rintro input reads rfl - hsweeper hversion -
      refine ⟨_, trackInvoice_eq_ok.mpr ⟨invoice, hinvoice, ⟨?_, ?_⟩, rfl, rfl⟩⟩
      · rw [hversion]
        simp
      · intro _ sweeper hself _
        rw [hsweeper] at hself
        cases hself
        rw [← Bool.not_eq_true, claimedByAnother_iff hholder huntil]
        exact fun hleased => hleased.2.1 rfl

/-- The two conditions exclude each other, and one of them holds except at the end of the lease and,
after it, in the status `created`. -/
theorem claim_leases (db : CommerceDb) (calls : List Call) (hclock : OneClock calls) :
    Exclusive db calls ∧
      (∀ pre c post db', calls = pre ++ c :: post → step (run step db pre) c = .ok db' →
        ∃ invoice, MovesVersion (run step db pre) db' c invoice) ∧
      ∀ pre post, calls = pre ++ post → ∀ id invoice holder claimedUntil,
        (run step db pre).invoices.find? id = some invoice → invoice.claimedBy = some holder →
        holder ≠ "" → invoice.claimedUntil = some claimedUntil → ∀ now, (∀ c ∈ pre, c.ends ≤ now) →
          (Xor (MayClaim (run step db pre) id holder now)
              (OnlyHolder (run step db pre) id holder now) ↔
            now < claimedUntil ∨ claimedUntil < now ∧ invoice.status ∈ workerStatuses) := by
  refine ⟨exclusive hclock, fun _ _ _ _ _ hok => movesVersion_of_step hok, ?_⟩
  intro pre post _ id invoice holder claimedUntil hinvoice hholder hempty huntil now _
  rw [mayClaim_iff hinvoice hholder huntil, onlyHolder_iff hinvoice hholder hempty huntil]
  apply Iff.intro
  · rintro (⟨hmay, -⟩ | ⟨honly, -⟩)
    · exact .inr hmay
    · exact .inl honly
  · rintro (honly | hmay)
    · exact .inr ⟨honly, fun hmay => lt_asymm honly hmay.1⟩
    · exact .inl ⟨hmay, lt_asymm hmay.1⟩

-- The sweeper `0xA` claims the invoice for a minute.
def toyClaim : Call := .claim ⟨"id", "0xA", some 1, 60000⟩ 1000

theorem find?_toyClaim : (run step .toy [toyClaim]).invoices.find? "id" =
    some (claimed ⟨"id", "0xA", some 1, 60000⟩ 1000 toyInvoice) := by
  decide

theorem claim_leases_toy :
    Xor (MayClaim (run step .toy [toyClaim]) "id" "0xA" 2000)
      (OnlyHolder (run step .toy [toyClaim]) "id" "0xA" 2000) :=
  ((claim_leases .toy [toyClaim] (List.pairwise_singleton ..)).2.2 [toyClaim] [] rfl "id" _ "0xA"
    61000 find?_toyClaim rfl (by decide) rfl 2000 (by simp [toyClaim, Call.ends])).mpr
      (.inl (by decide))

/-- At the end of the lease nobody else may claim the invoice, and anybody may report it swept. -/
theorem neither_at_expiry :
    ¬MayClaim (run step .toy [toyClaim]) "id" "0xA" 61000 ∧
      ¬OnlyHolder (run step .toy [toyClaim]) "id" "0xA" 61000 := by
  rw [mayClaim_iff find?_toyClaim rfl rfl, onlyHolder_iff find?_toyClaim rfl (by decide) rfl]
  decide

end OnchainInvoice.Server
