import OnchainInvoice.Node.SweepSteps

/-!
# Overlapping passes

The timer starts passes whether or not the last one is over, and a failed call does not tell whether
its transaction is still in flight.  Where neither happens, no invoice has two passes or two
transactions in flight.
-/

namespace OnchainInvoice.SweepPass

open Lib.Tables Lib.Histories

variable {config : Config} {s s' : State} {chain : Chain} {invoice : Invoice} {writes : List Write}
  {answer : Answer} {t t' : Try} {stage : Stage} {next? : Option Stage} {key : Key} {n : Nat}
  {tx : Tx} {cache : Cache}

/-! ## What is to hold -/

def Tx.flies (key : Key) (tx : Tx) : Bool := tx.key = key && tx.status = .pending

structure Apart (s : State) : Prop where
  passes : ∀ m n p q key, s.passes m = some p → s.passes n = some q → p.stage.current = some key →
    q.stage.current = some key → m = n
  txs : ∀ key, s.txs.countP (Tx.flies key) ≤ 1

-- The transaction whose outcome a pass waits for or is about to report.
def Stage.carries : Stage → Option String
  | .sweeping _ _ (.trying _ (.wait hash)) => some hash
  | .sweeping _ _ (.trying _ (.status sent _)) | .sweeping _ _ (.trying _ (.track sent _)) =>
    some sent.hash
  | .eoa _ (.status _ hash ..) | .eoa _ (.track _ hash ..) => some hash
  | _ => none

-- No pass starts while another is under way, no call fails for a transaction that is in flight, and
-- the process does not end before the sweep of such a transaction is recorded.
def calm (s : State) : Event → Bool
  | .tick => s.idle
  | .restart => s.txs.all fun tx => tx.status ≠ .pending || hasSuccessfulSweep s.cache tx.key
  | .resume _ (.lost ..) => false
  | .resume n (.throws _) =>
    (s.passes n).all fun pass => pass.stage.carries.all fun hash =>
      s.txs.all fun tx => tx.hash ≠ hash || tx.status ≠ .pending
  | _ => true

/-! ## Stages that have sent a transaction -/

def Stage.hasSent : Stage → Bool
  | .sweeping _ _ (.trying _ (.returned attempt)) => attempt.status = .swept
  | stage => stage.carries.isSome

-- The transaction is the one that the pass has sent for its invoice.
structure Carries (stage : Stage) (tx : Tx) : Prop where
  sent : stage.hasSent = true
  current : stage.current = some tx.key
  hash : ∀ hash, stage.carries = some hash → tx.hash = hash

-- An attempt is about the invoice that has been tried.
def Stage.Keyed : Stage → Prop
  | .sweeping _ _ (.trying invoice (.returned attempt)) => attempt.key = invoice.key
  | _ => True

theorem trySweep_keyed {manner : Manner} {rest : List Invoice}
    (h : trySweep config cache manner invoice t answer = some (writes, t')) :
    (Stage.sweeping chain rest (.trying invoice t')).Keyed := by
  unfold trySweep at h
  split at h <;> cases h
  case h_1.refl => split <;> trivial
  case h_5.refl => rfl
  case h_6.refl =>
    split
    · rfl
    · split
      · rfl
      · trivial
  case h_7.refl => split <;> trivial
  case h_11.refl => rfl
  all_goals trivial

theorem resume_keyed (h : stage.resume config cache answer = some (writes, next?)) :
    ∀ stage', next? = some stage' → stage'.Keyed := by
  rintro stage' rfl
  cases stage with
  | ready => cases h
  | listing =>
    dsimp only [Stage.resume, syncInvoices] at h
    split at h <;> cases h
    split <;> trivial
  | reconciling chain rest point =>
    dsimp only [Stage.resume, reconcileReceiverPaymentState] at h
    split at h <;> first | cases h | (split at h <;> cases h)
    all_goals trivial
  | scanning chain point =>
    dsimp only [Stage.resume, scanPaidLogs] at h
    split at h <;> cases h <;> trivial
  | sweeping chain rest point =>
    rcases checkAndSweep_cases h with ⟨-, -, -, heq⟩ | ⟨_, _, -, -, -, heq⟩ | ⟨_, _, -, -, heq⟩ |
      ⟨_, _, _, -, htry, heq⟩ <;> cases heq
    · trivial
    · trivial
    · trivial
    · exact trySweep_keyed htry
  | eoa chain point =>
    dsimp only [Stage.resume, checkAndSweepTronEoa] at h
    split at h
    case h_1 =>
      unfold planTronSweepBatch at h
      repeat' split at h
      all_goals cases h
      all_goals trivial
    all_goals cases h
    all_goals trivial

/-! ## What becomes of a transaction -/

-- It is still carried, its sweep is recorded, or the pass has given up on it.
def Goes (stage : Stage) (answer : Answer) (writes : List Write) (next? : Option Stage) (tx : Tx) :
    Prop :=
  (∃ stage', next? = some stage' ∧ Carries stage' tx) ∨
    (∃ attempt ∈ attemptsOf writes, attempt.status = .swept ∧ attempt.key = tx.key) ∨
      ∃ message, answer = .throws message ∧ stage.carries = some tx.hash

theorem trySweep_goes {rest : List Invoice}
    (hcarries : Carries (.sweeping chain rest (.trying invoice t)) tx)
    (h : trySweep config cache (mannerOf chain) invoice t answer = some (writes, t')) :
    Goes (.sweeping chain rest (.trying invoice t)) answer writes
      (some (.sweeping chain rest (.trying invoice t'))) tx := by
  have hsent := hcarries.sent
  have hhash := hcarries.hash
  have hcurrent := hcarries.current
  unfold trySweep at h
  split at h <;> cases h
  case h_9.refl => exact .inl ⟨_, rfl, rfl, hcurrent, hhash⟩
  case h_10.refl => exact .inl ⟨_, rfl, rfl, hcurrent, hhash⟩
  case h_11.refl => exact .inl ⟨_, rfl, rfl, hcurrent, fun hash heq => by cases heq⟩
  case h_14.refl => exact .inr (.inr ⟨_, rfl, congrArg some (hhash _ rfl).symm⟩)
  case h_15.refl => exact .inr (.inr ⟨_, rfl, congrArg some (hhash _ rfl).symm⟩)
  all_goals cases hsent

theorem resume_goes (hkeyed : stage.Keyed) (hcarries : Carries stage tx)
    (h : stage.resume config cache answer = some (writes, next?)) :
    Goes stage answer writes next? tx := by
  have hsent := hcarries.sent
  have hhash := hcarries.hash
  have hcurrent := hcarries.current
  cases stage with
  | ready | listing | reconciling | scanning => cases hsent
  | sweeping chain rest point =>
    rcases checkAndSweep_cases h with ⟨rfl, -, -, -⟩ | ⟨_, _, rfl, -, -, -⟩ |
      ⟨invoice, attempt, rfl, rfl, -⟩ | ⟨_, _, _, rfl, htry, rfl⟩
    · cases hsent
    · cases hsent
    · refine .inr (.inl ⟨attempt, List.mem_cons_self .., of_decide_eq_true hsent, ?_⟩)
      exact hkeyed.trans (Option.some.inj hcurrent)
    · exact trySweep_goes hcarries htry
  | eoa chain point =>
    dsimp only [Stage.resume, checkAndSweepTronEoa] at h
    split at h
    case h_1 => cases hsent
    all_goals cases h
    case h_8.refl => exact .inl ⟨_, rfl, rfl, hcurrent, hhash⟩
    case h_9.refl =>
      exact .inr (.inl ⟨_, List.mem_cons_self .., rfl, Option.some.inj hcurrent⟩)
    case h_11.refl => exact .inr (.inr ⟨_, rfl, congrArg some (hhash _ rfl).symm⟩)
    all_goals cases hsent

-- A pass sends when it has not sent yet, and carries what it has sent unless the call fails.
def Sends (stage : Stage) (answer : Answer) (writes : List Write) (next? : Option Stage) : Prop :=
  ∀ tx ∈ sendsOf writes, stage.hasSent = false ∧ ((∃ message, answer = .lost tx.hash message) ∨
    ∃ stage', next? = some stage' ∧ Carries stage' tx)

theorem sends_nothing (h : sendsOf writes = []) : Sends stage answer writes next? := by
  intro tx htx
  rw [h] at htx
  exact absurd htx List.not_mem_nil

theorem trySweep_sends {rest : List Invoice}
    (h : trySweep config cache (mannerOf chain) invoice t answer = some (writes, t')) :
    Sends (.sweeping chain rest (.trying invoice t)) answer writes
      (some (.sweeping chain rest (.trying invoice t'))) := by
  unfold trySweep at h
  split at h <;> cases h
  case h_7.refl =>
    intro tx htx
    rw [List.mem_singleton.mp htx]
    refine ⟨rfl, .inr ⟨_, rfl, ?_⟩⟩
    split
    · exact ⟨rfl, rfl, fun hash heq => Option.some.inj heq⟩
    · exact ⟨rfl, rfl, fun hash heq => Option.some.inj heq⟩
  case h_8.refl =>
    intro tx htx
    rw [List.mem_singleton.mp htx]
    exact ⟨rfl, .inl ⟨_, rfl⟩⟩
  all_goals exact sends_nothing rfl

theorem resume_sends (h : stage.resume config cache answer = some (writes, next?)) :
    Sends stage answer writes next? := by
  rcases (effects_resume h).sends with hnone | ⟨hash, key, -, hcurrent, hanswer⟩
  · exact sends_nothing hnone
  cases stage with
  | ready | listing | scanning => cases hcurrent
  | reconciling chain rest point =>
    rcases hanswer with ⟨amount, rfl⟩ | ⟨message, rfl⟩ <;>
    · cases point <;> cases h
  | sweeping chain rest point =>
    rcases checkAndSweep_cases h with ⟨-, -, rfl, -⟩ | ⟨_, _, -, -, rfl, -⟩ | ⟨_, _, -, rfl, -⟩ |
      ⟨_, _, _, rfl, htry, rfl⟩
    · exact sends_nothing rfl
    · exact sends_nothing rfl
    · exact sends_nothing rfl
    · exact trySweep_sends htry
  | eoa chain point =>
    dsimp only [Stage.resume, checkAndSweepTronEoa] at h
    split at h
    case h_1 => rcases hanswer with ⟨amount, rfl⟩ | ⟨message, rfl⟩ <;> cases h
    case h_2 => cases hcurrent
    case h_6 =>
      cases h
      intro tx htx
      rw [List.mem_singleton.mp htx]
      exact ⟨rfl, .inr ⟨_, rfl, rfl, rfl, fun hash heq => Option.some.inj heq⟩⟩
    case h_7 =>
      cases h
      intro tx htx
      rw [List.mem_singleton.mp htx]
      exact ⟨rfl, .inl ⟨_, rfl⟩⟩
    all_goals cases h
    all_goals exact sends_nothing rfl

-- What is recorded is about the invoice that the pass is at, and the pass leaves it.
def Leaves (stage : Stage) (writes : List Write) (next? : Option Stage) : Prop :=
  ∀ attempt ∈ attemptsOf writes, ∀ stage', next? = some stage' →
    (attempt.key :: stage'.keys).Sublist stage.keys

theorem leaves_nothing (h : attemptsOf writes = []) : Leaves stage writes next? := by
  intro attempt hattempt
  rw [h] at hattempt
  exact absurd hattempt List.not_mem_nil

theorem leaves_one {stage' : Stage} {attempt : SweepAttempt} (h : attemptsOf writes = [attempt])
    (hkeys : (attempt.key :: stage'.keys).Sublist stage.keys) :
    Leaves stage writes (some stage') := by
  intro a ha stage'' heq
  rw [h] at ha
  rw [List.mem_singleton.mp ha, ← Option.some.inj heq]
  exact hkeys

theorem resume_leaves (hkeyed : stage.Keyed)
    (h : stage.resume config cache answer = some (writes, next?)) : Leaves stage writes next? := by
  cases stage with
  | ready => cases h
  | listing =>
    dsimp only [Stage.resume, syncInvoices] at h
    split at h <;> cases h
    · exact leaves_nothing (attemptsOf_upsertInvoice _)
    · exact leaves_nothing rfl
  | reconciling chain rest point =>
    dsimp only [Stage.resume, reconcileReceiverPaymentState] at h
    split at h
    case h_4 =>
      cases h
      split
      · exact leaves_one rfl (List.Sublist.refl _)
      · exact leaves_nothing rfl
    all_goals first | cases h | (split at h <;> cases h)
    all_goals apply leaves_nothing
    all_goals first | rfl | (split <;> rfl)
  | scanning chain point =>
    dsimp only [Stage.resume, scanPaidLogs] at h
    split at h <;> cases h <;> exact leaves_nothing rfl
  | sweeping chain rest point =>
    rcases checkAndSweep_cases h with ⟨-, -, rfl, -⟩ | ⟨_, _, -, -, rfl, -⟩ | ⟨_, _, rfl, rfl, rfl⟩ |
      ⟨_, _, _, rfl, htry, rfl⟩
    · exact leaves_nothing rfl
    · exact leaves_nothing rfl
    · apply leaves_one rfl
      rw [show SweepAttempt.key _ = _ from hkeyed]
      exact List.Sublist.refl _
    · exact leaves_nothing (attemptsOf_trySweep htry)
  | eoa chain point =>
    dsimp only [Stage.resume, checkAndSweepTronEoa] at h
    split at h
    case h_1 =>
      unfold planTronSweepBatch at h
      repeat' split at h
      all_goals cases h
      case isTrue.refl => exact leaves_nothing (attemptsOf_markChecked _)
      all_goals exact leaves_nothing rfl
    all_goals cases h
    case h_2.refl => exact leaves_nothing (attemptsOf_markChecked _)
    case h_7.refl => exact leaves_one rfl (List.Sublist.refl _)
    case h_9.refl => exact leaves_one rfl (List.Sublist.refl _)
    case h_10.refl => exact leaves_one rfl (List.Sublist.refl _)
    case h_11.refl => exact leaves_one rfl (List.Sublist.refl _)
    all_goals exact leaves_nothing rfl

/-! ## Runs -/

structure Orderly (s : State) : Prop where
  one : ∀ m n p q, s.passes m = some p → s.passes n = some q → m = n
  keyed : ∀ n pass, s.passes n = some pass → pass.stage.Keyed
  nodup : ∀ n pass, s.passes n = some pass → pass.stage.keys.Nodup
  unswept : ∀ n pass, s.passes n = some pass → ∀ key ∈ pass.stage.keys,
    hasSuccessfulSweep s.cache key = false
  flying : ∀ tx ∈ s.txs, tx.status = .pending → hasSuccessfulSweep s.cache tx.key = true ∨
    ∃ n pass, s.passes n = some pass ∧ Carries pass.stage tx
  single : ∀ key, s.txs.countP (Tx.flies key) ≤ 1

/-- The pass under way carries what is in flight, except where a sweep is recorded. -/
theorem Orderly.carried {pass : Pass} (h : Orderly s) (hpass : s.passes n = some pass) {tx : Tx}
    (htx : tx ∈ s.txs) (hpending : tx.status = .pending) :
    hasSuccessfulSweep s.cache tx.key = true ∨ Carries pass.stage tx := by
  rcases h.flying tx htx hpending with hswept | ⟨m, p, hp, hcarries⟩
  · exact .inl hswept
  · have hmn := h.one m n p pass hp hpass
    subst hmn
    rw [hpass] at hp
    cases hp
    exact .inr hcarries

theorem keyed_start (task : Task) : (task.start config cache).Keyed := by
  cases task with
  | sync => trivial
  | reconcile chain | scan chain | sweep chain =>
    dsimp only [Task.start]
    split <;> trivial

-- What a step leaves of the pass that is resumed.
structure Left (s' : State) (pass' : Option Pass) : Prop where
  keyed : ∀ p, pass' = some p → p.stage.Keyed
  nodup : ∀ p, pass' = some p → p.stage.keys.Nodup
  unswept : ∀ p, pass' = some p → ∀ key ∈ p.stage.keys, hasSuccessfulSweep s'.cache key = false
  flying : ∀ tx ∈ s'.txs, tx.status = .pending → hasSuccessfulSweep s'.cache tx.key = true ∨
    ∃ p, pass' = some p ∧ Carries p.stage tx
  single : ∀ key, s'.txs.countP (Tx.flies key) ≤ 1

theorem left_start {pass : Pass} {pass' : Option Pass} (h : Orderly s) (hpass : s.passes n = some pass)
    (hready : pass.stage = .ready) (hstart : ∀ p, pass' = some p → ∃ task ∈ pass.tasks,
      p.stage = task.start config s.cache ∧ pass.tasks = task :: p.tasks) : Left s pass' := by
  constructor
  case keyed =>
    intro p hp
    rcases hstart p hp with ⟨task, -, hstage, -⟩
    rw [hstage]
    exact keyed_start task
  case nodup =>
    intro p hp
    rcases hstart p hp with ⟨task, -, hstage, -⟩
    rw [hstage]
    exact (keys_start task).2
  case unswept =>
    intro p hp
    rcases hstart p hp with ⟨task, -, hstage, -⟩
    rw [hstage]
    exact (keys_start task).1
  case flying =>
    intro tx htx hpending
    rcases h.carried hpass htx hpending with hswept | hcarries
    · exact .inl hswept
    · -- the only pass has sent nothing
      have hsent := hcarries.sent
      rw [hready] at hsent
      cases hsent
  case single => exact h.single

theorem left_resume {pass : Pass} (h : Orderly s) (hpass : s.passes n = some pass)
    (hcalm : calm s (.resume n answer) = true)
    (hresume : pass.stage.resume config s.cache answer = some (writes, next?))
    (hwritten : Written n writes s s') :
    Left s' (next?.map fun stage => ⟨pass.tasks, stage⟩) := by
  have hkeyed := h.keyed n pass hpass
  have hleaves := resume_leaves hkeyed hresume
  have hsends := resume_sends hresume
  have hstages : ∀ p : Pass, (next?.map fun stage => (⟨pass.tasks, stage⟩ : Pass)) = some p →
      next? = some p.stage := by
    intro p hp
    rcases Option.map_eq_some_iff.mp hp with ⟨stage', hstage', rfl⟩
    exact hstage'
  constructor
  case keyed => exact fun p hp => resume_keyed hresume p.stage (hstages p hp)
  case nodup =>
    intro p hp
    rcases keys_resume hresume p.stage (hstages p hp) with hsublist | ⟨key, hone, -⟩
    · exact (h.nodup n pass hpass).sublist hsublist
    · rw [hone]
      exact List.nodup_singleton _
  case unswept =>
    intro p hp key hkey
    have hbefore : hasSuccessfulSweep s.cache key = false := by
      rcases keys_resume hresume p.stage (hstages p hp) with hsublist | ⟨key', hone, hnot⟩
      · exact h.unswept n pass hpass key (hsublist.subset hkey)
      · rw [hone, List.mem_singleton] at hkey
        rwa [hkey]
    rw [← Bool.not_eq_true, hasSuccessfulSweep_iff] at hbefore ⊢
    rintro ⟨attempt, hattempt, heq, hstatus⟩
    rw [hwritten.attempts] at hattempt
    rcases List.mem_append.mp hattempt with hold | hnew
    · exact hbefore ⟨attempt, hold, heq, hstatus⟩
    · have hsublist := hleaves attempt hnew p.stage (hstages p hp)
      have hnodup := (h.nodup n pass hpass).sublist hsublist
      exact (List.nodup_cons.mp hnodup).1 (heq ▸ hkey)
  case flying =>
    intro tx htx hpending
    rw [hwritten.txs] at htx
    rcases List.mem_append.mp htx with hold | hnew
    · rcases h.carried hpass hold hpending with hswept | hcarries
      · exact .inl (hwritten.swept hswept)
      · rcases resume_goes hkeyed hcarries hresume with ⟨stage', rfl, hstill⟩ |
          ⟨attempt, hattempt, hstatus, hkey⟩ | ⟨message, rfl, hhash⟩
        · exact .inr ⟨⟨pass.tasks, stage'⟩, rfl, hstill⟩
        · refine .inl (hasSuccessfulSweep_iff.mpr ⟨attempt, ?_, hkey, hstatus⟩)
          rw [hwritten.attempts]
          exact List.mem_append_right _ hattempt
        · -- the call fails, so the transaction is no longer in flight
          unfold calm at hcalm
          dsimp only at hcalm
          rw [hpass, Option.all_some, hhash, Option.all_some] at hcalm
          have hover := List.all_eq_true.mp hcalm tx hold
          simp [hpending] at hover
    · rcases hsends tx hnew with ⟨-, ⟨message, rfl⟩ | ⟨stage', rfl, hcarries⟩⟩
      · cases hcalm
      · exact .inr ⟨⟨pass.tasks, stage'⟩, rfl, hcarries⟩
  case single =>
    intro key
    rw [hwritten.txs, List.countP_append]
    have hold := h.single key
    rcases (effects_resume hresume).sends with hnone | ⟨hash, key', hone, hcurrent, -⟩
    · rw [hnone]
      simpa using hold
    · rw [hone]
      by_cases heq : key' = key
      · -- nothing is in flight yet for the invoice
        subst heq
        have hzero : s.txs.countP (Tx.flies key') = 0 := by
          rw [List.countP_eq_zero]
          intro tx htx hflies
          unfold Tx.flies at hflies
          rw [Bool.and_eq_true, decide_eq_true_iff, decide_eq_true_iff] at hflies
          have hkey : tx.key ∈ pass.stage.keys := hflies.1 ▸ current_mem_keys hcurrent
          have hcarries := (h.carried hpass htx hflies.2).resolve_left (by
            rw [h.unswept n pass hpass tx.key hkey]
            exact Bool.false_ne_true)
          have hnot := (hsends _ (hone ▸ List.mem_singleton_self _)).1
          rw [hcarries.sent] at hnot
          cases hnot
        rw [hzero]
        simp [Tx.flies]
      · simpa [Tx.flies, heq] using hold

theorem orderly_resume (h : Orderly s) (hcalm : calm s (.resume n answer) = true) :
    Orderly (next config s (.resume n answer)) := by
  rcases next_resume config s n answer with hsame |
    ⟨pass, writes, pass', hpass, -, hresume, hnext⟩
  · rwa [hsame]
  rw [hnext]
  have hwritten := written n s writes
  have hleft : Left (s.writes n writes) pass' := by
    rcases Pass.resume_cases hresume with ⟨hready, rfl, hstart⟩ | ⟨next?, hstage, rfl⟩
    · exact left_start h hpass hready hstart
    · exact left_resume h hpass hcalm hstage hwritten
  -- the pass that is resumed is the only one
  have hother : ∀ m p, ((s.writes n writes).put n pass').passes m = some p →
      m = n ∧ pass' = some p := by
    intro m p hp
    have hp' : Function.update (s.writes n writes).passes n pass' m = some p := hp
    rw [Function.update_apply] at hp'
    split at hp'
    · next heq => exact ⟨heq, hp'⟩
    · next hne =>
      rw [hwritten.passes] at hp'
      exact absurd (h.one m n p pass hp' hpass) hne
  constructor
  case one => exact fun m k p q hp hq => (hother m p hp).1.trans (hother k q hq).1.symm
  case keyed => exact fun m p hp => hleft.keyed p (hother m p hp).2
  case nodup => exact fun m p hp => hleft.nodup p (hother m p hp).2
  case unswept => exact fun m p hp => hleft.unswept p (hother m p hp).2
  case flying =>
    intro tx htx hpending
    rcases hleft.flying tx htx hpending with hswept | ⟨p, rfl, hcarries⟩
    · exact .inl hswept
    · refine .inr ⟨n, p, ?_, hcarries⟩
      show Function.update (s.writes n writes).passes n (some p) n = some p
      exact Function.update_self ..
  case single => exact hleft.single

theorem flies_settle {hash : String} {status : TxStatus}
    (h : Tx.flies key (Tx.settle hash status tx) = true) : Tx.flies key tx = true := by
  unfold Tx.settle at h
  split at h
  · next hpending =>
    unfold Tx.flies at h ⊢
    rw [Bool.and_eq_true] at h ⊢
    exact ⟨h.1, decide_eq_true hpending.2⟩
  · exact h

theorem orderly_settle (h : Orderly s) (hash : String) (status : TxStatus) :
    Orderly (next config s (.settle hash status)) := by
  constructor
  case one => exact h.one
  case keyed => exact h.keyed
  case nodup => exact h.nodup
  case unswept => exact h.unswept
  case flying =>
    intro tx' htx' hpending
    rcases List.mem_map.mp htx' with ⟨tx, htx, rfl⟩
    have hflies : Tx.flies (Tx.settle hash status tx).key (Tx.settle hash status tx) = true := by
      simp [Tx.flies, hpending]
    have hbefore := flies_settle hflies
    unfold Tx.flies at hbefore
    rw [Bool.and_eq_true, decide_eq_true_iff, decide_eq_true_iff] at hbefore
    have hhash : (Tx.settle hash status tx).hash = tx.hash := by
      unfold Tx.settle
      split <;> rfl
    rw [← hbefore.1]
    rcases h.flying tx htx hbefore.2 with hswept | ⟨n, pass, hpass, hcarries⟩
    · exact .inl hswept
    · refine .inr ⟨n, pass, hpass, hcarries.sent, ?_, ?_⟩
      · rw [← hbefore.1]
        exact hcarries.current
      · rw [hhash]
        exact hcarries.hash
  case single =>
    intro key
    show (s.txs.map (Tx.settle hash status)).countP (Tx.flies key) ≤ 1
    rw [List.countP_map]
    exact (List.countP_mono_left fun tx _ hflies => flies_settle hflies).trans (h.single key)

theorem orderly_next (h : Orderly s) (hnumbered : Numbered s) (event : Event)
    (hcalm : calm s event = true) : Orderly (next config s event) := by
  cases event with
  | wait ms | move key =>
    exact ⟨h.one, h.keyed, h.nodup, h.unswept, h.flying, h.single⟩
  | settle hash status => exact orderly_settle h hash status
  | resume n answer => exact orderly_resume h hcalm
  | restart =>
    constructor
    case one | keyed | nodup | unswept =>
      intro n
      intros
      contradiction
    case flying =>
      intro tx htx hpending
      have hrecorded := List.all_eq_true.mp hcalm tx htx
      simp only [hpending, ne_eq, not_true_eq_false, decide_false, Bool.false_or] at hrecorded
      exact .inl hrecorded
    case single => exact h.single
  | tick =>
    -- no pass is under way
    have hnone := hnumbered.passes_of_idle hcalm
    have honly : ∀ m p, (next config s .tick).passes m = some p →
        m = s.started ∧ p.stage = .ready := by
      intro m p hp
      have hp' : Function.update s.passes s.started (some ⟨runOnce config, .ready⟩) m = some p := hp
      rw [Function.update_apply] at hp'
      split at hp'
      · next heq =>
        cases hp'
        exact ⟨heq, rfl⟩
      · rw [hnone] at hp'
        cases hp'
    constructor
    case one => exact fun m n p q hp hq => (honly m p hp).1.trans (honly n q hq).1.symm
    case keyed =>
      intro m p hp
      rw [(honly m p hp).2]
      trivial
    case nodup =>
      intro m p hp
      rw [(honly m p hp).2]
      exact List.nodup_nil
    case unswept =>
      intro m p hp
      rw [(honly m p hp).2]
      exact fun key hkey => absurd hkey List.not_mem_nil
    case flying =>
      intro tx htx hpending
      rcases h.flying tx htx hpending with hswept | ⟨n, pass, hpass, -⟩
      · exact .inl hswept
      · rw [hnone] at hpass
        cases hpass
    case single => exact h.single

theorem orderly_initial : Orderly .initial := by
  constructor
  case one | keyed | nodup | unswept =>
    intro n
    intros
    contradiction
  case flying => exact fun tx htx => absurd htx List.not_mem_nil
  case single => exact fun key => Nat.zero_le 1

/-- In a run where passes do not overlap and outcomes are known, no two passes are at one invoice
and no invoice has two transactions in flight. -/
theorem passes_apart (config : Config) (events : List Event)
    (h : Each (fun pre event => calm (after config pre) event = true) events) :
    Apart (after config events) := by
  have horderly : Orderly (after config events) := by
    induction events using List.reverseRecOn with
    | nil => exact orderly_initial
    | append_singleton events event ih =>
      rw [each_concat] at h
      have hstep : Orderly (next config (after config events) event) :=
        orderly_next (ih h.1) (numbered_after config events) event h.2
      unfold after
      rwa [run_concat]
  exact ⟨fun m n p q _ hp hq _ _ => horderly.one m n p q hp hq, horderly.single⟩

-- The first pass hears that its transaction was reverted, the second sends another.
def evmSendsAgain : List Event :=
  .tick :: evmSends 0 "h" ++ .settle "h" .reverted :: .resume 0 (.throws "reverted") ::
    .resume 0 .go :: .resume 0 .go :: .resume 0 .go :: .tick :: evmSends 1 "k"

theorem passes_apart_again :
    (after evmNode evmSendsAgain).started = 2 ∧
      (after evmNode evmSendsAgain).txs.map Tx.status = [.reverted, .pending] ∧
      Apart (after evmNode evmSendsAgain) :=
  ⟨by decide, by decide, passes_apart evmNode _ (each_of_take (by decide))⟩

-- The timer fires again while the first pass waits for its transaction.
theorem second_pass_sends_too : ¬∀ config events, Apart (after config events) := by
  intro h
  have hapart := h evmNode (.tick :: evmSends 0 "h" ++ .tick :: evmSends 1 "k")
  have htwo : (after evmNode (.tick :: evmSends 0 "h" ++ .tick :: evmSends 1 "k")).txs.countP
      (Tx.flies evmInvoice.key) = 2 := by
    decide
  have hone := hapart.txs evmInvoice.key
  omega

end OnchainInvoice.SweepPass
