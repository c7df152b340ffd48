import OnchainInvoice.Recovery.Changes

/-!
# Handlers that wait

What a step adds to the handlers that wait, with what the handler had checked by then.
-/

namespace OnchainInvoice.Recovery

open Lib.Revert Lib.Tables Server WalletLog

variable {env : Env} {s : RecoveryServer} {call : Call} {p : Pending}

/-- How `call` brings about that the handler `p` waits. -/
inductive Spawned (env : Env) (s : RecoveryServer) : Call → Pending → Prop
  | chosen {input : Input} {sessionEmail latest : Option String} {addresses wallets : List String} :
    Spawned env s (.createRecoveryRequest input sessionEmail latest addresses)
      (.chosen input sessionEmail wallets)
  | started {n : Nat} {answer : Answer} {input : Input} {sessionEmail : Option String}
      {wallets : List String} {c : Creation} {db' : RecoveryDb}
      (hpending : s.pending[n]? = some (.chosen input sessionEmail wallets))
      (hstart : startCreation env s.db { input with now := answer.input.now } sessionEmail wallets
        answer.restoreEnabled = (.ok c, db')) :
    Spawned env s (.resume n answer) (.creating c)
  | continued {n : Nat} {answer : Answer} {c : Creation} {wallets : List String}
      (hpending : s.pending[n]? = some (.creating c) ∨
        ∃ wallet, s.pending[n]? = some (.looking c wallet)) :
    Spawned env s (.resume n answer) (.creating { c with wallets := wallets })
  | asked {n : Nat} {answer : Answer} {c : Creation} {wallet : String} {wallets : List String}
      (hpending : s.pending[n]? = some (.creating c)) :
    Spawned env s (.resume n answer) (.looking { c with wallets := wallets } wallet)
  | cancelling {client : Client} {wallet : String} {input : Input} {c : ClientCancel}
      {db' : RecoveryDb} (hrpc : env.rpcUrl = true)
      (hstart : startClientCancel env s.db client wallet input = (.ok c, db')) :
    Spawned env s (.cancelRecovery client wallet input) (.cancelling c)
  | guarding {token : String} {action : GuardianAction} {now : Time} {session : GuardianSession}
      (hfound : s.db.guardianSessions.find? (env.hashToken token) = some session)
      (hlive : now ≤ session.expiresAt) :
    Spawned env s (.guardianRequest (some token) action now) (.guarding session action)

theorem finishRound_pending {db : RecoveryDb} {pending : List Pending} {c : Creation}
    {wallet : String} {existingOwner : Bool} {answer : Answer}
    (hp : p ∈ (finishRound env db pending c wallet existingOwner answer).2.pending) :
    p ∈ pending ∨ p = .creating c := by
  unfold finishRound at hp
  split at hp
  · exact .inl hp
  · dsimp only at hp
    split at hp
    · simpa using hp
    · exact .inl hp

theorem resume_pending {n : Nat} {answer : Answer}
    (hp : p ∈ (resume env s n answer).2.pending) :
    p ∈ s.pending ∨ Spawned env s (.resume n answer) p := by
  have hrest : p ∈ s.pending.eraseIdx n → p ∈ s.pending ∨ Spawned env s (.resume n answer) p :=
    fun h => .inl (List.mem_of_mem_eraseIdx h)
  unfold resume at hp
  split at hp
  · exact .inl hp
  next waiting hwaiting =>
    unfold resumed at hp
    split at hp
    · split at hp
      · exact hrest hp
      next hstart =>
        rcases List.mem_append.mp hp with h | h
        · exact hrest h
        · rw [List.mem_singleton.mp h]
          exact .inr (.started hwaiting hstart)
    next c =>
      split at hp
      · exact hrest hp
      next wallet rest hwallets =>
        dsimp only at hp
        split at hp
        · rcases List.mem_append.mp hp with h | h
          · exact hrest h
          · rw [List.mem_singleton.mp h]
            exact .inr (.continued (.inl hwaiting))
        · split at hp
          · rcases List.mem_append.mp hp with h | h
            · exact hrest h
            · rw [List.mem_singleton.mp h]
              exact .inr (.asked hwaiting)
          · rcases finishRound_pending hp with h | rfl
            · exact hrest h
            · exact .inr (.continued (.inl hwaiting))
    next c wallet =>
      rcases finishRound_pending hp with h | rfl
      · exact hrest h
      · exact .inr (@Spawned.continued env s _ _ c c.wallets (.inr ⟨wallet, hwaiting⟩))
    · exact hrest hp
    · exact hrest hp

/-- A handler that waits after a step waited before, or was brought to wait by it. -/
theorem pending_next (hp : p ∈ (next env s call).pending) :
    p ∈ s.pending ∨ Spawned env s call p := by
  cases call with
  | resume n answer => exact resume_pending hp
  | createRecoveryRequest input sessionEmail latest addresses =>
    change p ∈ (createRecoveryRequest env s input sessionEmail latest addresses).2.pending at hp
    unfold createRecoveryRequest at hp
    split at hp
    · exact .inl hp
    · rcases List.mem_append.mp hp with h | h
      · exact .inl h
      · rw [List.mem_singleton.mp h]
        exact .inr .chosen
  | cancelRecovery client wallet input =>
    change p ∈ (cancelRecovery env s client wallet input).2.pending at hp
    unfold cancelRecovery at hp
    split at hp
    · exact .inl hp
    next hstart =>
      split at hp
      next hrpc =>
        rcases List.mem_append.mp hp with h | h
        · exact .inl h
        · rw [List.mem_singleton.mp h]
          exact .inr (.cancelling hrpc hstart)
      · exact .inl hp
  | guardianRequest token action now =>
    change p ∈ (guardianRequest env s token action now).2.pending at hp
    unfold guardianRequest at hp
    split at hp
    · exact .inl hp
    next token' htoken =>
      obtain ⟨rfl, -⟩ := Option.filter_eq_some_iff.mp htoken
      split at hp
      · exact .inl hp
      next session db hlookup =>
        rcases List.mem_append.mp hp with h | h
        · exact .inl h
        · rw [List.mem_singleton.mp h]
          unfold getGuardianSession at hlookup
          split at hlookup
          · cases hlookup
          next row hfound =>
            split at hlookup
            · cases hlookup
            next hlive =>
              cases hlookup
              exact .inr (.guarding hfound (not_lt.mp hlive))
  | _ => exact .inl hp

end OnchainInvoice.Recovery
