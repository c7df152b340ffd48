import OnchainInvoice.Recovery.Codes

/-!
# Limits of the codes

Whatever calls of `createWalletEmailOtp` and `consumeWalletEmailOtp` come after one another, a code
is accepted once at most, before it expires and as long as it is the newest for its wallet and
purpose, and five guesses are all it stands.
-/

namespace OnchainInvoice.Recovery

open Lib.Tables Server WalletLog

/-! ## Calls -/

inductive OtpCall
  | create (now : Time) (id walletAddress email : String) (purpose : OtpPurpose) (codeHash : String)
  | consume (now : Time) (walletAddress email : String) (purpose : OtpPurpose) (codeHash : String)

def spend (now : Time) (walletAddress : String) (purpose : OtpPurpose) (row : EmailOtp) :
    EmailOtp :=
  if row.walletAddress = lowerCase walletAddress ∧ row.purpose = purpose ∧
      row.consumedAt = none then
    { row with consumedAt := some now }
  else row

theorem spend_id (now : Time) (walletAddress : String) (purpose : OtpPurpose) (row : EmailOtp) :
    (spend now walletAddress purpose row).id = row.id := by
  unfold spend
  split <;> rfl

-- The first statement of `createWalletEmailOtp` is committed when the insertion fails.
def spendOtps (db : RecoveryDb) (now : Time) (walletAddress : String) (purpose : OtpPurpose) :
    RecoveryDb :=
  { db with
    otps := ⟨db.otps.rows.map (spend now walletAddress purpose), by
      have hid : EmailOtp.id ∘ spend now walletAddress purpose = EmailOtp.id := by
        funext row
        exact spend_id now walletAddress purpose row
      rw [List.map_map, hid]
      exact db.otps.nodup⟩ }

def OtpCall.step (db : RecoveryDb) : OtpCall → RecoveryDb
  | .create now id walletAddress email purpose codeHash =>
    (createWalletEmailOtp db now id walletAddress email purpose codeHash).getD
      (spendOtps db now walletAddress purpose)
  | .consume now walletAddress email purpose codeHash =>
    (consumeWalletEmailOtp db now walletAddress email purpose codeHash).2

def otpRun (db : RecoveryDb) (calls : List OtpCall) : RecoveryDb := calls.foldl OtpCall.step db

-- The row whose code is compared with the one that is given.
def OtpCall.compared (db : RecoveryDb) : OtpCall → Option EmailOtp
  | .create .. => none
  | .consume now walletAddress email purpose _ =>
    (latestOtp db walletAddress email purpose).filter fun row =>
      ¬(row.expiresAt < now ∨ MAX_ATTEMPTS ≤ row.attempts)

-- The row whose code is accepted: `consumeWalletEmailOtp` returns `true`.
def OtpCall.accepted (db : RecoveryDb) (c : OtpCall) : Option EmailOtp :=
  match c with
  | .create .. => none
  | .consume now walletAddress email purpose codeHash =>
    if (consumeWalletEmailOtp db now walletAddress email purpose codeHash).1 then c.compared db
    else none

-- How many of the calls hit the code of an id.
def count (hit : RecoveryDb → OtpCall → Option EmailOtp) (id : String) :
    RecoveryDb → List OtpCall → Nat
  | _, [] => 0
  | db, c :: calls =>
    (if (hit db c).any (·.id = id) then 1 else 0) + count hit id (c.step db) calls

def comparisons : String → RecoveryDb → List OtpCall → Nat := count OtpCall.compared

def acceptances : String → RecoveryDb → List OtpCall → Nat := count OtpCall.accepted

variable {db db' : RecoveryDb} {now : Time} {id walletAddress email codeHash : String}
  {purpose : OtpPurpose} {row : EmailOtp} {c : OtpCall} {calls : List OtpCall}

/-- A guess counts against the row that it is compared with, and uses it up if it is right. -/
theorem consume_eq : consumeWalletEmailOtp db now walletAddress email purpose codeHash =
    match OtpCall.compared db (.consume now walletAddress email purpose codeHash) with
    | none => (false, db)
    | some row => (row.codeHash = codeHash, { db with
        otps := db.otps.modify row.id (fun old => { old with
          attempts := old.attempts + 1
          consumedAt := if row.codeHash = codeHash then some now else row.consumedAt })
          fun _ => rfl }) := by
  unfold consumeWalletEmailOtp OtpCall.compared
  dsimp only
  cases latestOtp db walletAddress email purpose with
  | none => rfl
  | some row =>
    dsimp only
    rw [Option.filter_some]
    by_cases hrefused : row.expiresAt < now ∨ MAX_ATTEMPTS ≤ row.attempts
    · rw [if_pos hrefused, if_neg (by simpa only [decide_eq_true_eq, not_not] using hrefused)]
    · rw [if_neg hrefused, if_pos (decide_eq_true hrefused)]

theorem accepted_eq_some :
    OtpCall.accepted db (.consume now walletAddress email purpose codeHash) = some row ↔
      OtpCall.compared db (.consume now walletAddress email purpose codeHash) = some row ∧
        row.codeHash = codeHash := by
  unfold OtpCall.accepted
  dsimp only
  rw [consume_eq]
  cases OtpCall.compared db (.consume now walletAddress email purpose codeHash) with
  | none => simp
  | some row' =>
    by_cases hcode : row'.codeHash = codeHash
    · simp only [hcode, decide_true, if_true, Option.some_inj]
      exact ⟨fun heq => ⟨heq, heq ▸ hcode⟩, fun h => h.1⟩
    · simp only [hcode, decide_false, Bool.false_eq_true, if_false, Option.some_inj]
      apply Iff.intro
      · intro h
        cases h
      · rintro ⟨rfl, hcode'⟩
        exact absurd hcode' hcode

/-- A call that returns `true` accepts the code of a row. -/
theorem accepted_of_true
    (h : (consumeWalletEmailOtp db now walletAddress email purpose codeHash).1 = true) :
    ∃ row, OtpCall.accepted db (.consume now walletAddress email purpose codeHash) = some row ∧
      row.codeHash = codeHash := by
  rw [consume_eq] at h
  cases hcompared : OtpCall.compared db (.consume now walletAddress email purpose codeHash) with
  | none =>
    rw [hcompared] at h
    cases h
  | some row =>
    rw [hcompared] at h
    have hcode : row.codeHash = codeHash := of_decide_eq_true h
    exact ⟨row, accepted_eq_some.mpr ⟨hcompared, hcode⟩, hcode⟩

theorem compared_of_accepted (h : c.accepted db = some row) : c.compared db = some row := by
  cases c with
  | create => cases h
  | consume => exact (accepted_eq_some.mp h).1

-- A row that is compared is the newest unused one of its wallet, email and purpose.
theorem of_compared {now : Time} {walletAddress email codeHash : String} {purpose : OtpPurpose}
    (h : OtpCall.compared db (.consume now walletAddress email purpose codeHash) = some row) :
    latestOtp db walletAddress email purpose = some row ∧ row ∈ db.otps.rows ∧
      row.consumedAt = none ∧ now ≤ row.expiresAt ∧ row.attempts < MAX_ATTEMPTS := by
  have h' := Option.filter_eq_some_iff.mp h
  obtain ⟨hmem, hrow⟩ := List.mem_filter.mp (newest_mem h'.1)
  have hopen := h'.2
  simp only [decide_eq_true_eq] at hrow
  simp only [decide_eq_true_eq, not_or, not_lt, not_le] at hopen
  exact ⟨h'.1, hmem, hrow.2.2.2, hopen.1, hopen.2⟩

/-! ## One call -/

theorem find?_spendOtps : (spendOtps db now walletAddress purpose).otps.find? id =
    (db.otps.find? id).map (spend now walletAddress purpose) := by
  have hkeys : (fun row : EmailOtp => decide (row.id = id)) ∘ spend now walletAddress purpose =
      fun row : EmailOtp => decide (row.id = id) := by
    funext row
    simp only [Function.comp_apply, spend_id]
  unfold spendOtps Table.find?
  rw [List.find?_map, hkeys]

def newOtp (now : Time) (id walletAddress email : String) (purpose : OtpPurpose)
    (codeHash : String) : EmailOtp where
  id := id
  walletAddress := lowerCase walletAddress
  email := normalizeEmail email
  purpose := purpose
  codeHash := codeHash
  attempts := 0
  expiresAt := now + 2 * TTL
  consumedAt := none
  createdAt := now

/-- The codes before it are used up, and a new one is added if its id is free. -/
theorem step_create :
    let spent := spendOtps db now walletAddress purpose
    OtpCall.step db (.create now id walletAddress email purpose codeHash) =
      (spent.otps.insert (newOtp now id walletAddress email purpose codeHash)).elim spent
        fun otps => { spent with otps := otps } := by
  have hcreate : createWalletEmailOtp db now id walletAddress email purpose codeHash =
      ((spendOtps db now walletAddress purpose).otps.insert
        (newOtp now id walletAddress email purpose codeHash)).bind fun otps =>
          some { db with otps := otps } := by
    unfold createWalletEmailOtp
    rfl
  unfold OtpCall.step
  dsimp only
  rw [hcreate]
  cases (spendOtps db now walletAddress purpose).otps.insert
    (newOtp now id walletAddress email purpose codeHash) with
  | none => rfl
  | some otps => rfl

-- What a call makes of a row that is there.
def OtpCall.next (db : RecoveryDb) (c : OtpCall) (row : EmailOtp) : EmailOtp :=
  match c with
  | .create now _ walletAddress _ purpose _ => spend now walletAddress purpose row
  | .consume now _ _ _ codeHash =>
    if c.compared db = some row then
      { row with
        attempts := row.attempts + 1
        consumedAt := if row.codeHash = codeHash then some now else row.consumedAt }
    else row

inductive OtpCall.Creates : OtpCall → EmailOtp → Prop
  | create (now : Time) (id walletAddress email : String) (purpose : OtpPurpose)
      (codeHash : String) : Creates (.create now id walletAddress email purpose codeHash)
        (newOtp now id walletAddress email purpose codeHash)

/-- The row of an id after a call: what the call makes of it, or one that it creates. -/
theorem find?_step (db : RecoveryDb) (c : OtpCall) (k : String) :
    (c.step db).otps.find? k = (db.otps.find? k).map (c.next db) ∨
      db.otps.find? k = none ∧ ∃ row, c.Creates row ∧ (c.step db).otps.find? k = some row := by
  cases c with
  | create now id walletAddress email purpose codeHash =>
    rw [step_create]
    cases hinsert : (spendOtps db now walletAddress purpose).otps.insert
      (newOtp now id walletAddress email purpose codeHash) with
    | none => exact .inl find?_spendOtps
    | some otps =>
      have hfound := Table.find?_insert (k := k) hinsert
      have hfree := Table.find?_of_insert hinsert
      rw [find?_spendOtps] at hfound hfree
      rw [Option.elim_some, hfound]
      split
      · next hk =>
        cases hk
        exact .inr ⟨Option.map_eq_none_iff.mp hfree, _, .create .., rfl⟩
      · exact .inl rfl
  | consume now walletAddress email purpose codeHash =>
    left
    unfold OtpCall.step OtpCall.next
    dsimp only
    rw [consume_eq]
    cases hcompared : OtpCall.compared db (.consume now walletAddress email purpose codeHash) with
    | none => simp
    | some latest =>
      obtain ⟨-, hmem, -⟩ := of_compared hcompared
      dsimp only
      rw [Table.find?_modify]
      split
      · next hk =>
        rw [hk, Table.find?_of_mem hmem]
        simp
      · next hk =>
        cases hfind : db.otps.find? k with
        | none => rfl
        | some row =>
          have hne : latest ≠ row := by
            rintro rfl
            exact hk (Table.key_of_find? hfind).symm
          simp [hne]

/-! ## Counting -/

theorem mem_of_compared (h : c.compared db = some row) : row ∈ db.otps.rows := by
  cases c with
  | create => cases h
  | consume => exact (of_compared h).2.1

-- A row of the database is hit through its id.
theorem any_id {hit : Option EmailOtp} (hmem : ∀ row ∈ hit, row ∈ db.otps.rows) (id : String) :
    hit.any (·.id = id) = true ↔ ∃ row, db.otps.find? id = some row ∧ hit = some row := by
  rw [Option.any_eq_true]
  apply Iff.intro
  · rintro ⟨row, hrow, hid⟩
    have hfind := Table.find?_of_mem (hmem row hrow)
    rw [of_decide_eq_true hid] at hfind
    exact ⟨row, hfind, hrow⟩
  · rintro ⟨row, hfind, hrow⟩
    exact ⟨row, hrow, decide_eq_true (Table.key_of_find? hfind)⟩

/-- What a row has left pays for the calls that hit it. -/
theorem count_le {hit : RecoveryDb → OtpCall → Option EmailOtp} {left : EmailOtp → Nat} {full : Nat}
    (hmem : ∀ db c row, hit db c = some row → row ∈ db.otps.rows)
    (hnext : ∀ db c row, row ∈ db.otps.rows →
      (if hit db c = some row then 1 else 0) + left (OtpCall.next db c row) ≤ left row)
    (hnew : ∀ c row, OtpCall.Creates c row → left row ≤ full)
    (id : String) (db : RecoveryDb) (calls : List OtpCall) :
    count hit id db calls ≤ (db.otps.find? id).elim full left := by
  induction calls generalizing db with
  | nil => exact Nat.zero_le _
  | cons c calls ih =>
    have hrest := ih (c.step db)
    have hhit := any_id (hmem db c) id
    have hfound := find?_step db c id
    unfold count
    cases hfind : db.otps.find? id with
    | none =>
      have hmiss : ¬(hit db c).any (·.id = id) = true := by
        rw [hhit, hfind]
        rintro ⟨row, hrow, -⟩
        cases hrow
      rw [if_neg hmiss]
      rw [hfind] at hfound
      rcases hfound with hfound | ⟨-, row, hcreates, hfound⟩
      · rw [hfound] at hrest
        simpa using hrest
      · rw [hfound] at hrest
        have hfull := hnew c row hcreates
        simp only [Option.elim_some, Option.elim_none] at hrest ⊢
        omega
    | some row =>
      have hrow := hnext db c row (Table.mem_of_find? hfind)
      have hsame : (hit db c).any (·.id = id) = true ↔ hit db c = some row := by
        rw [hhit, hfind]
        simp
      rw [hfind] at hfound
      rcases hfound with hfound | ⟨hfree, -⟩
      · rw [hfound] at hrest
        simp only [hsame, Option.map_some, Option.elim_some] at hrest ⊢
        omega
      · cases hfree

theorem next_attempts (h : c.compared db ≠ some row) :
    (c.next db row).attempts = row.attempts := by
  cases c with
  | create =>
    unfold OtpCall.next spend
    dsimp only
    split
    · rfl
    · rfl
  | consume =>
    unfold OtpCall.next
    dsimp only
    rw [if_neg h]

theorem next_attempts_compared (h : c.compared db = some row) :
    (c.next db row).attempts = row.attempts + 1 ∧ row.attempts < MAX_ATTEMPTS := by
  cases c with
  | create => cases h
  | consume =>
    unfold OtpCall.next
    dsimp only
    rw [if_pos h]
    exact ⟨rfl, (of_compared h).2.2.2.2⟩

theorem consumedAt_of_spend (h : (spend now walletAddress purpose row).consumedAt = none) :
    row.consumedAt = none ∧ spend now walletAddress purpose row = row ∧
      ¬(row.walletAddress = lowerCase walletAddress ∧ row.purpose = purpose) := by
  unfold spend at h ⊢
  split at h
  · cases h
  · next hkept =>
    rw [if_neg hkept]
    exact ⟨h, rfl, fun hrow => hkept ⟨hrow.1, hrow.2, h⟩⟩

/-- A guess is one fewer left. -/
theorem guesses_next (db : RecoveryDb) (c : OtpCall) (row : EmailOtp) :
    (if c.compared db = some row then 1 else 0) + (MAX_ATTEMPTS - (c.next db row).attempts) ≤
      MAX_ATTEMPTS - row.attempts := by
  by_cases h : c.compared db = some row
  · obtain ⟨hattempts, hlt⟩ := next_attempts_compared h
    rw [if_pos h, hattempts]
    omega
  · rw [if_neg h, next_attempts h, Nat.zero_add]

/-- Five guesses are all that a code stands. -/
theorem comparisons_le (id : String) (db : RecoveryDb) (calls : List OtpCall) :
    comparisons id db calls ≤ MAX_ATTEMPTS := by
  have hcount := count_le (fun _ _ _ h => mem_of_compared h)
    (fun db c row _ => guesses_next db c row)
    (fun _ row _ => Nat.sub_le MAX_ATTEMPTS row.attempts) id db calls
  apply hcount.trans
  cases db.otps.find? id with
  | none => exact le_rfl
  | some row => exact Nat.sub_le _ _

theorem consumedAt_of_next (h : (c.next db row).consumedAt = none) : row.consumedAt = none ∧
    c.accepted db ≠ some row := by
  cases c with
  | create => exact ⟨(consumedAt_of_spend h).1, (Option.some_ne_none row).symm⟩
  | consume now walletAddress email purpose codeHash =>
    unfold OtpCall.next at h
    dsimp only at h
    by_cases hcompared :
      OtpCall.compared db (.consume now walletAddress email purpose codeHash) = some row
    · rw [if_pos hcompared] at h
      dsimp only at h
      split at h
      · cases h
      · next hcode => exact ⟨h, fun haccepted => hcode (accepted_eq_some.mp haccepted).2⟩
    · rw [if_neg hcompared] at h
      exact ⟨h, fun haccepted => hcompared (accepted_eq_some.mp haccepted).1⟩

theorem unused_of_accepted (h : c.accepted db = some row) : row.consumedAt = none := by
  cases c with
  | create => cases h
  | consume => exact (of_compared (accepted_eq_some.mp h).1).2.2.1

-- How often a row can still be accepted.
def usesLeft (row : EmailOtp) : Nat := if row.consumedAt = none then 1 else 0

/-- A code that is accepted is used up. -/
theorem uses_next (db : RecoveryDb) (c : OtpCall) (row : EmailOtp) :
    (if c.accepted db = some row then 1 else 0) + usesLeft (c.next db row) ≤ usesLeft row := by
  unfold usesLeft
  by_cases hnext : (c.next db row).consumedAt = none
  · obtain ⟨hunused, hrefused⟩ := consumedAt_of_next hnext
    rw [if_neg hrefused, if_pos hnext, if_pos hunused]
  · rw [if_neg hnext]
    by_cases haccepted : c.accepted db = some row
    · rw [if_pos haccepted, if_pos (unused_of_accepted haccepted)]
    · rw [if_neg haccepted]
      exact Nat.zero_le _

theorem acceptances_le (id : String) (db : RecoveryDb) (calls : List OtpCall) :
    acceptances id db calls ≤ 1 := by
  have hone : ∀ row, usesLeft row ≤ 1 := by
    intro row
    unfold usesLeft
    split
    · exact le_rfl
    · exact Nat.zero_le 1
  have hcount := count_le (fun _ _ _ h => mem_of_compared (compared_of_accepted h))
    (fun db c row _ => uses_next db c row) (fun _ row _ => hone row) id db calls
  apply hcount.trans
  cases db.otps.find? id with
  | none => exact le_rfl
  | some row => exact hone row

/-! ## Runs -/

-- A code for the wallet and the purpose of the row is created, or the attempt fails.
def OtpCall.Renews (row : EmailOtp) : OtpCall → Prop
  | .create _ _ walletAddress _ purpose _ =>
    row.walletAddress = lowerCase walletAddress ∧ row.purpose = purpose
  | .consume .. => False

-- What a guess leaves of a row is its code, for whom it is and until when.
structure SameOtp (row row' : EmailOtp) : Prop where
  id : row.id = row'.id
  same : SameCode row row'
  expiresAt : row.expiresAt = row'.expiresAt

/-- The calls create the row, and no later one creates a code for the same wallet and purpose. -/
def Newest (row : EmailOtp) (calls : List OtpCall) : Prop :=
  ∃ earlier created later born, calls = earlier ++ created :: later ∧
    OtpCall.Creates created born ∧ SameOtp born row ∧ ∀ c ∈ later, ¬c.Renews row

structure Disciplined (db : RecoveryDb) (calls : List OtpCall) : Prop where
  accepts : ∀ earlier now walletAddress email purpose codeHash later,
    calls = earlier ++ .consume now walletAddress email purpose codeHash :: later →
    (consumeWalletEmailOtp (otpRun db earlier) now walletAddress email purpose codeHash).1 = true →
    ∃ row, OtpCall.accepted (otpRun db earlier)
      (.consume now walletAddress email purpose codeHash) = some row ∧ row.codeHash = codeHash
  once : ∀ id, acceptances id db calls ≤ 1
  five : ∀ id, comparisons id db calls ≤ MAX_ATTEMPTS
  newest : ∀ earlier c later row, calls = earlier ++ c :: later →
    c.accepted (otpRun db earlier) = some row → Newest row earlier
  fresh : ∀ earlier now walletAddress email purpose codeHash later row,
    calls = earlier ++ .consume now walletAddress email purpose codeHash :: later →
    OtpCall.accepted (otpRun db earlier) (.consume now walletAddress email purpose codeHash) =
      some row → now ≤ row.expiresAt

theorem SameOtp.refl (row : EmailOtp) : SameOtp row row := ⟨rfl, ⟨rfl, rfl, rfl, rfl⟩, rfl⟩

theorem SameOtp.trans {first second third : EmailOtp} (h : SameOtp first second)
    (h' : SameOtp second third) : SameOtp first third := by
  obtain ⟨hwallet, hemail, hpurpose, hcode⟩ := h.same
  obtain ⟨hwallet', hemail', hpurpose', hcode'⟩ := h'.same
  exact {
    id := h.id.trans h'.id
    same := ⟨hwallet.trans hwallet', hemail.trans hemail', hpurpose.trans hpurpose',
      hcode.trans hcode'⟩
    expiresAt := h.expiresAt.trans h'.expiresAt }

theorem renews_iff {old : EmailOtp} (h : SameOtp old row) (c : OtpCall) :
    c.Renews row ↔ c.Renews old := by
  obtain ⟨hwallet, -, hpurpose, -⟩ := h.same
  cases c with
  | create =>
    unfold OtpCall.Renews
    rw [hwallet, hpurpose]
  | consume => exact Iff.rfl

/-- A row that stays unused is not renewed. -/
theorem next_same (h : (c.next db row).consumedAt = none) :
    SameOtp row (c.next db row) ∧ ¬c.Renews row := by
  cases c with
  | create now id walletAddress email purpose codeHash =>
    obtain ⟨-, hsame, hother⟩ := consumedAt_of_spend h
    unfold OtpCall.next
    dsimp only
    rw [hsame]
    exact ⟨.refl row, hother⟩
  | consume now walletAddress email purpose codeHash =>
    apply And.intro
    · unfold OtpCall.next
      dsimp only
      split
      · exact ⟨rfl, ⟨rfl, rfl, rfl, rfl⟩, rfl⟩
      · exact .refl row
    · exact id

theorem newest_of_run (db : RecoveryDb) (calls : List OtpCall) :
    ∀ row ∈ (otpRun { db with otps := .empty } calls).otps.rows, row.consumedAt = none →
      Newest row calls := by
  induction calls using List.reverseRecOn with
  | nil =>
    intro row hrow
    cases hrow
  | append_singleton calls c ih =>
    intro row hrow hunused
    unfold otpRun at hrow
    rw [List.foldl_append, List.foldl_cons, List.foldl_nil] at hrow
    have hfind := Table.find?_of_mem hrow
    rcases find?_step (otpRun { db with otps := .empty } calls) c row.id with
      hnext | ⟨-, born, hcreates, hborn⟩
    · obtain ⟨old, hold, rfl⟩ := Option.map_eq_some_iff.mp (hnext.symm.trans hfind)
      obtain ⟨hsame, hkept⟩ := next_same hunused
      obtain ⟨earlier, created, later, born, hcalls, hcreates, hborn, hlater⟩ :=
        ih old (Table.mem_of_find? hold) (consumedAt_of_next hunused).1
      refine ⟨earlier, created, later ++ [c], born, ?_, hcreates, hborn.trans hsame, ?_⟩
      · rw [hcalls]
        simp
      · intro c' hc'
        rw [renews_iff hsame]
        rcases List.mem_append.mp hc' with hc' | hc'
        · exact hlater c' hc'
        · rw [List.mem_singleton.mp hc']
          exact hkept
    · cases hborn.symm.trans hfind
      exact ⟨calls, c, [], row, rfl, hcreates, .refl row,
        fun c' hc' => absurd hc' List.not_mem_nil⟩

/-- Whatever the calls and whenever they come, every code keeps its limits. -/
theorem disciplined_of_run (db : RecoveryDb) (calls : List OtpCall) :
    Disciplined { db with otps := .empty } calls := by
  apply Disciplined.mk
  · intro earlier now walletAddress email purpose codeHash later _ htrue
    exact accepted_of_true htrue
  · exact fun id => acceptances_le id _ calls
  · exact fun id => comparisons_le id _ calls
  · intro earlier c later row _ haccepted
    exact newest_of_run db earlier row (mem_of_compared (compared_of_accepted haccepted))
      (unused_of_accepted haccepted)
  · intro earlier now walletAddress email purpose codeHash later row _ haccepted
    exact (of_compared (accepted_eq_some.mp haccepted).1).2.2.2.1

end OnchainInvoice.Recovery
