import OnchainInvoice.Identity.Replay
import OnchainInvoice.Session.RouteFrames

/-!
# The method index and the chain

The rows of `identity_methods` stand for methods that the store holds.  A row that the store does
not hold is astray, and no step leads a row astray but the five kinds of `Drift`.  An answered error
leaves the rows as they were, unless it is one of a registration that passed its checks.
-/

namespace OnchainInvoice.IdentityRoutes

open Evm IdentityTypes IdentityStore Lib.Histories Lib.Json Lib.Revert Lib.Tables Server
open WebAuthn (getIdentityMethodByCredentialId)
open WebAuthnSignature (getBytes)
open Lib.Runs (Succeeds commit commit_cases commit_of_ok commit_of_error run_invariant_of_mem)
open WalletLog (IdentityMethod IdentityMethodKind WalletDb deleteIdentityMethod
  insertIdentityMethod)

variable {env : Env} {s s' : IdentityServer} {input : Input} {st : Step} {id : String}
  {inputs : List Bytes}

/-! ## Rows and methods -/

-- The store has the method under the identity of the row.
def OnChain (store : State) (row : IdentityMethod) : Prop :=
  ∃ i m, bytes32 row.identityId = some i ∧ bytes32 row.id = some m ∧ Live store i m

def Astray (s : IdentityServer) (id : String) : Prop :=
  ∃ row, s.db.wallets.methods.find? id = some row ∧ ¬ OnChain s.store row

-- The method that a call of `computeIdentityMethodId` is about.
def methodOf (env : Env) (identityId : String) (kind : IdentityMethodKind) (qx qy eoa : String) :
    Option (Bytes32 × MethodFields) := do
  let i ← bytes32 identityId
  let f ← methodFields env kind qx qy eoa
  return (i, f)

def idOf (env : Env) (i : Bytes32) (f : MethodFields) : String :=
  hex32 (computeMethodId env.contract.crypto i f)

def sessionOf (s : IdentityServer) (input : Input) (credential : String) : Option IdentitySession :=
  input.session.or (((str (field input.body credential)).bind
    (identityFromCredentialId s.db.wallets)).map fun identity =>
      ⟨identity.identityId, identity.email⟩)

-- The method that a call writes a row for, if it gets that far.
def written (env : Env) (s : IdentityServer) (input : Input) :
    Route → Option (Bytes32 × MethodFields)
  | .recoverAddMethod => do
    let recover ← input.recover
    let qx ← bodyQx input.body
    let qy ← bodyQy input.body
    methodOf env recover.identityId (kindOf input.body) qx qy ZERO_ADDRESS
  | .passkeyRegister => do
    let r ← (checkRegister env s input).toOption
    methodOf env r.identity.identityId .webauthn r.qx r.qy ZERO_ADDRESS
  | .postMethods => do
    let session ← sessionOf s input "provingCredentialId"
    methodOf env session.identityId (kindOf input.body) ((bodyQx input.body).getD ZERO_WORD)
      ((bodyQy input.body).getD ZERO_WORD) ((str (field input.body "eoa")).getD ZERO_ADDRESS)
  | .restore => do
    let session ← input.session
    let qx ← bodyQx input.body
    let qy ← bodyQy input.body
    methodOf env session.identityId (kindOf input.body) qx qy ZERO_ADDRESS
  | _ => none

-- What others have mined by the end of the step.
def others : Step → List (Tx IdentityStore.Call)
  | .route _ input => input.rpc.meanwhile
  | .mined tx => [tx]

-- What the step hashes into method ids, on the chain or off it.
def hashed (env : Env) (s : IdentityServer) (st : Step) : List Bytes :=
  (others st).flatMap hashedBy ++
    match st with
    | .route route input => (written env s input route).toList.map fun m => methodIdPreimage m.1 m.2
    | .mined _ => []

def Removes (id : String) (tx : Tx IdentityStore.Call) : Prop :=
  ∃ i m authorization, tx.call = .removeMethod i m authorization ∧ bytes32 id = some m

-- The identity is new to the chain and its registration is confirmed.
structure Registers (env : Env) (s : IdentityServer) (input : Input) (r : Registration) : Prop where
  fresh : ∀ i, bytes32 r.identity.identityId = some i → identityExists s.store i = false
  confirmed : (registerIdentityOnChain env input.rpc s.store r.identity.identityId r.qx r.qy).1 =
    .ok true

-- The steps that can lead the row of the id astray.
inductive Drift (env : Env) (s : IdentityServer) (id : String) : Step → Prop
  | removed {st : Step} {tx : Tx IdentityStore.Call} (hmem : tx ∈ others st)
      (hremoves : Removes id tx) :
    Drift env s id st
  | pending {input : Input} {i : Bytes32} {f : MethodFields}
      (hpay : str (field input.body "pay") = some "pending")
      (hwritten : written env s input .postMethods = some (i, f)) (hid : idOf env i f = id) :
    Drift env s id (.route .postMethods input)
  | unregistered {input : Input} {r : Registration} (hcheck : checkRegister env s input = .ok r)
      (hid : r.methodId = id) (hfails : ¬ Registers env s input r) :
    Drift env s id (.route .passkeyRegister input)
  | delayed {input : Input} {i : Bytes32} {f : MethodFields}
      (hdelay : s.store.restoreDelay ≠ 0 ∨ (input.rpc.before env s.store).restoreDelay ≠ 0)
      (hwritten : written env s input .restore = some (i, f)) (hid : idOf env i f = id) :
    Drift env s id (.route .restore input)
  | lost {input : Input} {session : IdentitySession} {row : IdentityMethod}
      (hlost : input.rpc.delivery = .lost) (hsession : input.session = some session)
      (howned : ownedMethod s input session.identityId = some row) (hid : row.id = id) :
    Drift env s id (.route .deleteMethods input)

theorem hex32_injective {x y : Bytes32} (h : hex32 x = hex32 y) : x = y := by
  have hread := congrArg bytes32 h
  rw [bytes32_hex32, bytes32_hex32] at hread
  exact Option.some.inj hread

theorem computeIdentityMethodId_eq (identityId : String) (kind : IdentityMethodKind)
    (qx qy eoa : String) :
    computeIdentityMethodId env identityId kind qx qy eoa =
      (methodOf env identityId kind qx qy eoa).map fun m => idOf env m.1 m.2 := by
  unfold computeIdentityMethodId methodOf
  cases bytes32 identityId with
  | none => rfl
  | some i => cases methodFields env kind qx qy eoa <;> rfl

/-! ## What is mined meanwhile -/

-- The store after transactions of others and transactions that are `P`.
def Mined (env : Env) (store : State) (meanwhile : List (Tx IdentityStore.Call))
    (P : Tx IdentityStore.Call → Prop) (store' : State) : Prop :=
  ∃ txs, store' = Lib.Runs.run (IdentityStore.step env.contract) store txs ∧
    ∀ tx ∈ txs, tx ∈ meanwhile ∨ P tx

section Mined

variable {store store' : State} {meanwhile : List (Tx IdentityStore.Call)}
  {P Q : Tx IdentityStore.Call → Prop} {rpc : Rpc} {call : IdentityStore.Call} {i m : Bytes32}
  {f : MethodFields}

theorem Mined.refl : Mined env store meanwhile P store := ⟨[], rfl, by simp⟩

theorem Mined.mono (h : Mined env store meanwhile P store') (himp : ∀ tx, P tx → Q tx) :
    Mined env store meanwhile Q store' := by
  obtain ⟨txs, hrun, htxs⟩ := h
  exact ⟨txs, hrun, fun tx htx => (htxs tx htx).imp id (himp tx)⟩

theorem mined_send : Mined env store rpc.meanwhile (· = rpc.transaction env call)
    (send env rpc call store).2 := by
  have hbefore : Mined env store rpc.meanwhile (· = rpc.transaction env call)
      (rpc.before env store) := ⟨rpc.meanwhile, rfl, fun tx htx => .inl htx⟩
  have hown : Mined env store rpc.meanwhile (· = rpc.transaction env call)
      (commit (IdentityStore.step env.contract) (rpc.before env store)
        (rpc.transaction env call)) := by
    refine ⟨rpc.meanwhile ++ [rpc.transaction env call], (Lib.Runs.run_concat ..).symm, ?_⟩
    intro tx htx
    simpa using htx
  unfold send
  dsimp only
  split
  · exact hbefore
  · exact hown
  · exact hown

/-- A transaction whose receipt was not lost is mined without effect, or it is confirmed. -/
theorem mined_of_unconfirmed (hsend : (send env rpc call store).1 = false)
    (hlost : rpc.delivery ≠ .lost) :
    Mined env store rpc.meanwhile P (send env rpc call store).2 := by
  have hbefore : Mined env store rpc.meanwhile P (rpc.before env store) :=
    ⟨rpc.meanwhile, rfl, fun tx htx => .inl htx⟩
  unfold send at hsend ⊢
  cases hdelivery : rpc.delivery with
  | refused => exact hbefore
  | lost => exact absurd hdelivery hlost
  | confirmed =>
    rw [hdelivery] at hsend
    have hfails : ¬ Succeeds (IdentityStore.step env.contract) (rpc.before env store)
        (rpc.transaction env call) := of_decide_eq_false hsend
    have hsame : commit (IdentityStore.step env.contract) (rpc.before env store)
        (rpc.transaction env call) = rpc.before env store := by
      rcases commit_cases (IdentityStore.step env.contract) (rpc.before env store)
        (rpc.transaction env call) with ⟨s', hok, -⟩ | ⟨e, -, hcommit⟩
      · exact absurd ⟨s', hok⟩ hfails
      · exact hcommit
    dsimp only
    rw [hsame]
    exact hbefore

theorem step_of_send (hsend : (send env rpc call store).1 = true) :
    IdentityStore.step env.contract (rpc.before env store) (rpc.transaction env call) =
      .ok (send env rpc call store).2 := by
  unfold send at hsend ⊢
  cases hdelivery : rpc.delivery with
  | refused => rw [hdelivery] at hsend; cases hsend
  | lost => rw [hdelivery] at hsend; cases hsend
  | confirmed =>
    rw [hdelivery] at hsend
    obtain ⟨s', hok⟩ := of_decide_eq_true hsend
    dsimp only
    rw [hok, commit_of_ok hok]

theorem Mined.sound (h : Mined env store meanwhile P store')
    (hsound : Sound env.contract inputs store) (hcf : env.contract.crypto.CollisionFree inputs)
    (hothers : ∀ tx ∈ meanwhile, ∀ p ∈ hashedBy tx, p ∈ inputs)
    (hown : ∀ tx, P tx → ∀ p ∈ hashedBy tx, p ∈ inputs) : Sound env.contract inputs store' := by
  obtain ⟨txs, rfl, htxs⟩ := h
  apply run_invariant_of_mem (I := Sound env.contract inputs)
  · intro store tx store' htx hstore hstep
    have hin : ∀ p ∈ hashedBy tx, p ∈ inputs := (htxs tx htx).elim (hothers tx) (hown tx)
    exact hstore.effect hcf hin (step_effect hstep)
  · exact hsound

/-- A method is lost only to a transaction that removes it. -/
theorem Mined.loss (h : Mined env store meanwhile P store')
    (hsound : Sound env.contract inputs store) (hcf : env.contract.crypto.CollisionFree inputs)
    (hothers : ∀ tx ∈ meanwhile, ∀ p ∈ hashedBy tx, p ∈ inputs)
    (hown : ∀ tx, P tx → ∀ p ∈ hashedBy tx, p ∈ inputs) (hlive : Live store i m)
    (hgone : ¬ Live store' i m) :
    ∃ tx, (tx ∈ meanwhile ∨ P tx) ∧ ∃ authorization, tx.call = .removeMethod i m authorization := by
  obtain ⟨txs, rfl, htxs⟩ := h
  by_contra hnone
  have hboth : Sound env.contract inputs
      (Lib.Runs.run (IdentityStore.step env.contract) store txs) ∧
      Live (Lib.Runs.run (IdentityStore.step env.contract) store txs) i m := by
    apply run_invariant_of_mem (I := fun store => Sound env.contract inputs store ∧ Live store i m)
    · intro store tx store' htx hstore hstep
      have hin : ∀ p ∈ hashedBy tx, p ∈ inputs := (htxs tx htx).elim (hothers tx) (hown tx)
      have heffect := step_effect hstep
      apply And.intro (hstore.1.effect hcf hin heffect)
      by_contra hlost
      obtain ⟨authorization, hcall, -⟩ := heffect.loss hstore.1 hcf hin hstore.2 hlost
      exact hnone ⟨tx, htxs tx htx, authorization, hcall⟩
    · exact ⟨hsound, hlive⟩
  exact hgone hboth.2

/-! ## What the calls on the chain do -/

-- A transaction that puts the method into the store, or starts a restore of it.
structure Puts (i : Bytes32) (f : MethodFields) (tx : Tx IdentityStore.Call) : Prop where
  hashed : hashedBy tx = [methodIdPreimage i f]
  keeps : ∀ j m authorization, tx.call ≠ .removeMethod j m authorization

theorem live_of_register {store store' : State} {tx : Tx IdentityStore.Call} {qx qy : Bytes32}
    (he : Effect env.contract store tx store') (hcall : tx.call = .register i qx qy) :
    Live store' i (computeMethodId env.contract.crypto i (passkeyFields qx qy)) := by
  cases he with
  | register j x y hcall' =>
    cases hcall.symm.trans hcall'
    exact live_registered.mpr (.inl ⟨rfl, rfl⟩)
  | _ => simp_all

theorem live_of_restore {store store' : State} {tx : Tx IdentityStore.Call}
    (he : Effect env.contract store tx store') (hcall : tx.call = .restoreAddMethod i f)
    (hdelay : store.restoreDelay = 0) :
    Live store' i (computeMethodId env.contract.crypto i f) := by
  cases he with
  | restoreAddMethod j g hcall' =>
    cases hcall.symm.trans hcall'
    exact live_added.mpr (.inl ⟨rfl, rfl⟩)
  | _ => simp_all

theorem sendOr_spec (store : State) (hputs : Puts i f (rpc.transaction env call)) :
    Mined env store rpc.meanwhile (Puts i f) (sendOr env rpc call store).2 ∧
      ∀ b, (sendOr env rpc call store).1 = .ok b → Effect env.contract (rpc.before env store)
        (rpc.transaction env call) (sendOr env rpc call store).2 := by
  apply And.intro
  · exact mined_send.mono fun tx htx => htx ▸ hputs
  · intro b hb
    apply step_effect
    apply step_of_send
    by_contra hsend
    rw [Bool.not_eq_true] at hsend
    unfold sendOr at hb
    dsimp only at hb
    rw [hsend] at hb
    cases hb

theorem methodOf_eq_some {identityId qx qy eoa : String} {kind : IdentityMethodKind}
    (h : methodOf env identityId kind qx qy eoa = some (i, f)) :
    bytes32 identityId = some i ∧ methodFields env kind qx qy eoa = some f := by
  obtain ⟨j, hj, h⟩ := Option.bind_eq_some_iff.mp h
  obtain ⟨g, hg, h⟩ := Option.bind_eq_some_iff.mp h
  cases h
  exact ⟨hj, hg⟩

theorem addOnChain_spec (rpc : Rpc) (store : State) (authorization : String)
    {identityId qx qy eoa : String} {kind : IdentityMethodKind}
    (hsigner : hasSigner env = true)
    (hmethod : methodOf env identityId kind qx qy eoa = some (i, f)) :
    let answer := addIdentityMethodOnChain env rpc store identityId kind qx qy eoa authorization
    Mined env store rpc.meanwhile (Puts i f) answer.2 ∧
      ∀ b, answer.1 = .ok b → Live answer.2 i (computeMethodId env.contract.crypto i f) := by
  obtain ⟨hi, hf⟩ := methodOf_eq_some hmethod
  unfold addIdentityMethodOnChain
  rw [hsigner, hi, hf]
  cases getBytes authorization.toList with
  | none => exact ⟨.refl, fun b hb => by cases hb⟩
  | some bytes =>
    have hputs : Puts i f (rpc.transaction env (.addMethod i f bytes)) :=
      ⟨rfl, fun j m a => by simp [Rpc.transaction]⟩
    have hsent := sendOr_spec store hputs
    apply And.intro hsent.1
    intro b hb
    show Live (sendOr env rpc (.addMethod i f bytes) store).2 i _
    rw [((hsent.2 b hb).of_addMethod rfl).2]
    exact live_added.mpr (.inl ⟨rfl, rfl⟩)

theorem registerOnChain_spec (rpc : Rpc) (store : State) {identityId qx qy : String}
    (hsigner : hasSigner env = true)
    (hmethod : methodOf env identityId .webauthn qx qy ZERO_ADDRESS = some (i, f)) :
    let answer := registerIdentityOnChain env rpc store identityId qx qy
    Mined env store rpc.meanwhile (Puts i f) answer.2 ∧
      (identityExists store i = false → ∀ b, answer.1 = .ok b →
        Live answer.2 i (computeMethodId env.contract.crypto i f)) := by
  obtain ⟨hi, hf⟩ := methodOf_eq_some hmethod
  obtain ⟨x, hx, hf⟩ := Option.bind_eq_some_iff.mp hf
  obtain ⟨y, hy, hf⟩ := Option.bind_eq_some_iff.mp hf
  cases hf
  unfold registerIdentityOnChain
  rw [hsigner, hi, hx, hy]
  cases rpc.reads with
  | false => exact ⟨.refl, fun _ b hb => by cases hb⟩
  | true =>
    cases hexists : identityExists store i with
    | true => simp [hexists, Mined.refl]
    | false =>
      have hputs : Puts i (passkeyFields x y) (rpc.transaction env (.register i x y)) :=
        ⟨rfl, fun j m a => by simp [Rpc.transaction]⟩
      have hsent := sendOr_spec store hputs
      simp only [hexists, Bool.not_true, Bool.false_eq_true, if_false]
      exact ⟨hsent.1, fun _ b hb => live_of_register (hsent.2 b hb) rfl⟩

theorem restoreOnChain_spec (rpc : Rpc) (store : State) {identityId qx qy : String}
    {kind : IdentityMethodKind}
    (hsigner : hasSigner env = true)
    (hmethod : methodOf env identityId kind qx qy ZERO_ADDRESS = some (i, f)) :
    let answer := restoreIdentityMethodOnChain env rpc store identityId kind qx qy
    Mined env store rpc.meanwhile (Puts i f) answer.2 ∧
      (store.restoreDelay = 0 → (rpc.before env store).restoreDelay = 0 → ∀ b, answer.1 = .ok b →
        Live answer.2 i (computeMethodId env.contract.crypto i f)) := by
  obtain ⟨hi, hf⟩ := methodOf_eq_some hmethod
  unfold restoreIdentityMethodOnChain
  rw [hsigner, hi, hf]
  cases rpc.reads with
  | false => exact ⟨.refl, fun _ _ b hb => by cases hb⟩
  | true =>
    by_cases hdelay : store.restoreDelay = 0
    · have hputs : Puts i f (rpc.transaction env (.restoreAddMethod i f)) :=
        ⟨rfl, fun j m a => by simp [Rpc.transaction]⟩
      have hsent := sendOr_spec store hputs
      simp only [hdelay, Bool.not_true, Bool.false_eq_true, if_false, if_true]
      exact ⟨hsent.1, fun _ hbefore b hb => live_of_restore (hsent.2 b hb) rfl hbefore⟩
    · have hputs : Puts i f (rpc.transaction env (.initiateRestore i f)) :=
        ⟨rfl, fun j m a => by simp [Rpc.transaction]⟩
      have hsent := sendOr_spec store hputs
      simp only [hdelay, Bool.not_true, Bool.false_eq_true, if_false]
      exact ⟨hsent.1, fun hzero => absurd hzero (by simp)⟩

-- The transaction cannot be encoded.
theorem restoreOnChain_none {identityId qx qy : String} {kind : IdentityMethodKind}
    (hsigner : hasSigner env = true)
    (hmethod : methodOf env identityId kind qx qy ZERO_ADDRESS = none) :
    restoreIdentityMethodOnChain env rpc store identityId kind qx qy =
      (.error rpc.message, store) := by
  unfold restoreIdentityMethodOnChain
  rw [hsigner]
  cases rpc.reads with
  | false => rfl
  | true =>
    unfold methodOf at hmethod
    cases hi : bytes32 identityId with
    | none => rfl
    | some i =>
      rw [hi] at hmethod
      cases hf : methodFields env kind qx qy ZERO_ADDRESS with
      | none => rfl
      | some f =>
        rw [hf] at hmethod
        cases hmethod

theorem removeOnChain_spec (rpc : Rpc) (store : State) (identityId id authorization : String)
    (hsigner : hasSigner env = true) :
    let answer := removeIdentityMethodOnChain env rpc store identityId id authorization
    Mined env store rpc.meanwhile (Removes id) answer.2 ∧
      ((∀ b, answer.1 ≠ .ok b) → rpc.delivery ≠ .lost →
        Mined env store rpc.meanwhile P answer.2) := by
  unfold removeIdentityMethodOnChain
  rw [hsigner]
  simp only [Bool.not_true, Bool.false_eq_true, if_false]
  split
  · next i m bytes hi hm hbytes =>
    apply And.intro
    · exact mined_send.mono fun tx htx => ⟨i, m, bytes, htx ▸ rfl, hm⟩
    · intro herror hlost
      apply mined_of_unconfirmed _ hlost
      by_contra hsend
      rw [Bool.not_eq_false] at hsend
      apply herror true
      unfold sendOr
      dsimp only
      rw [hsend]
      rfl
  · exact ⟨.refl, fun _ _ => .refl⟩

theorem hasProvider_of_hasSigner (hsigner : hasSigner env = true) : hasProvider env = true :=
  (Bool.and_eq_true_iff.mp hsigner).1

/-- A method that is found on the chain belongs to the identity its id was computed for. -/
theorem live_of_found (hsigner : hasSigner env = true) (hsound : Sound env.contract inputs store)
    (hcf : env.contract.crypto.CollisionFree inputs) (hin : methodIdPreimage i f ∈ inputs)
    (hfound : identityMethodExistsOnChain env rpc store (idOf env i f) = true) :
    Live store i (computeMethodId env.contract.crypto i f) := by
  have hprovider := hasProvider_of_hasSigner hsigner
  unfold identityMethodExistsOnChain idOf at hfound
  rw [hprovider, bytes32_hex32] at hfound
  simp only [Bool.not_true, Bool.false_eq_true, if_false] at hfound
  split at hfound
  · cases hfound
  · have hexists : (store.methods (computeMethodId env.contract.crypto i f)).exists_ = true := hfound
    have hsits := hsound.registry.sits _ hexists
    have hsame := hcf _ hin _ (hsound.registry.hashed _ hexists) hsits
    exact ⟨hexists, (methodIdPreimage_inj.mp hsame).1.symm⟩

end Mined

/-! ## What a call does to the index and the store -/

-- What a call can send beside a removal after which the row is deleted.
def Own (env : Env) (s : IdentityServer) (input : Input) (route : Route)
    (tx : Tx IdentityStore.Call) : Prop :=
  (∃ i f, written env s input route = some (i, f) ∧ Puts i f tx) ∨
    ∃ row ∈ s.db.wallets.methods.rows, Removes row.id tx ∧
      Drift env s row.id (.route route input)

def Checked (env : Env) (s : IdentityServer) (input : Input) (route : Route) : Prop :=
  route = .passkeyRegister ∧ ∃ r, checkRegister env s input = .ok r

inductive Touch (env : Env) (s : IdentityServer) (input : Input) (route : Route) (o : Outcome) :
    Prop
  | kept (hmethods : o.server.db.wallets.methods = s.db.wallets.methods)
      (hmined : Mined env s.store input.rpc.meanwhile (Own env s input route) o.server.store)
  | wrote (row : IdentityMethod) (i : Bytes32) (f : MethodFields)
      (hwritten : written env s input route = some (i, f)) (hid : row.id = idOf env i f)
      (hidentity : bytes32 row.identityId = some i)
      (hmethods : o.server.db.wallets.methods =
        (insertIdentityMethod s.db.wallets input.now input.now row).1.methods)
      (hmined : Mined env s.store input.rpc.meanwhile (Puts i f) o.server.store)
      (hsettled : Live o.server.store i (computeMethodId env.contract.crypto i f) ∨
        Drift env s row.id (.route route input))
      (hanswer : o.answer = .ok () ∨ Checked env s input route)
  | deleted {row : IdentityMethod} (hrow : row ∈ s.db.wallets.methods.rows)
      (hmethods : o.server.db.wallets.methods =
        (deleteIdentityMethod s.db.wallets input.now row.id).1.methods)
      (hmined : Mined env s.store input.rpc.meanwhile (Removes row.id) o.server.store)
      (hanswer : o.answer = .ok ())

section Routes

variable {route : Route} {o : Outcome} {i : Bytes32} {f : MethodFields}

theorem Touch.aside (hmethods : o.server.db.wallets.methods = s.db.wallets.methods)
    (hstore : o.server.store = s.store) : Touch env s input route o :=
  .kept hmethods (hstore ▸ .refl)

theorem Touch.of_mined (hwritten : written env s input route = some (i, f))
    (hmethods : o.server.db.wallets.methods = s.db.wallets.methods)
    (hmined : Mined env s.store input.rpc.meanwhile (Puts i f) o.server.store) :
    Touch env s input route o :=
  .kept hmethods (hmined.mono fun _ htx => .inl ⟨i, f, hwritten, htx⟩)

theorem touch_withWallets {wallets : WalletDb} (h : wallets.methods = s.db.wallets.methods) :
    Touch env s input route (accept (s.withWallets wallets)) := .aside h rfl

theorem touch_withSession {credential : String} {rest : IdentitySession → Outcome}
    (hrest : ∀ session, sessionOf s input credential = some session →
      Touch env s input route (rest session)) :
    Touch env s input route (withSession s input credential rest) := by
  unfold withSession
  unfold sessionOf at hrest
  split
  · next session hsession =>
    rw [hsession] at hrest
    exact hrest session rfl
  · next hsession =>
    rw [hsession] at hrest
    split
    · exact .aside rfl rfl
    · next identity hidentity =>
      rw [hidentity] at hrest
      cases hrest _ rfl with
      | kept hmethods hmined => exact .kept hmethods hmined
      | wrote row i f hwritten hid hident hmethods hmined hsettled hanswer =>
        exact .wrote row i f hwritten hid hident hmethods hmined hsettled hanswer
      | deleted hrow hmethods hmined hanswer => exact .deleted hrow hmethods hmined hanswer

theorem payForRecovered_spec (s : IdentityServer) (input : Input) {identityId qx qy : String}
    (hsigner : hasSigner env = true)
    (hmethod : methodOf env identityId (kindOf input.body) qx qy ZERO_ADDRESS = some (i, f))
    (hsound : Sound env.contract inputs s.store) (hcf : env.contract.crypto.CollisionFree inputs)
    (hin : methodIdPreimage i f ∈ inputs) :
    let paid := payForRecovered env s input identityId (idOf env i f) qx qy
    Mined env s.store input.rpc.meanwhile (Puts i f) paid.2 ∧
      (paid.1 = .ok () → Live paid.2 i (computeMethodId env.contract.crypto i f)) := by
  have hprovider := hasProvider_of_hasSigner hsigner
  unfold payForRecovered
  dsimp only
  split
  · split
    · exact ⟨.refl, fun h => by cases h⟩
    · split
      · exact ⟨.refl, fun h => by cases h⟩
      · rw [hprovider, if_neg (by simp)]
        split
        · exact ⟨.refl, fun h => by cases h⟩
        · next authorization hauthorization =>
          have hadded := addOnChain_spec input.rpc s.store authorization hsigner hmethod
          apply And.intro hadded.1
          intro hok
          dsimp only at hok
          split at hok
          · next b hb => exact hadded.2 b hb
          · cases hok
  · split
    · next hfound => exact ⟨.refl, fun _ => live_of_found hsigner hsound hcf hin hfound⟩
    · exact ⟨.refl, fun h => by cases h⟩
  · exact ⟨.refl, fun h => by cases h⟩

theorem touch_recoverAddMethod (hsigner : hasSigner env = true)
    (hsound : Sound env.contract inputs s.store) (hcf : env.contract.crypto.CollisionFree inputs)
    (hin : ∀ p ∈ hashed env s (.route .recoverAddMethod input), p ∈ inputs) :
    Touch env s input .recoverAddMethod (recoverAddMethod env s input) := by
  unfold recoverAddMethod
  split
  · exact .aside rfl rfl
  · next recover hrecover =>
    split
    · next qx qy credentialId hqx hqy hcredential =>
      rw [computeIdentityMethodId_eq]
      cases hmethod : methodOf env recover.identityId (kindOf input.body) qx qy ZERO_ADDRESS with
      | none => exact .aside rfl rfl
      | some m =>
        cases m with
        | mk i f =>
          have hwritten : written env s input .recoverAddMethod = some (i, f) := by
            unfold written
            rw [hrecover, hqx, hqy]
            exact hmethod
          have hmem : methodIdPreimage i f ∈ inputs := by
            apply hin
            simp [hashed, hwritten]
          have hpaid := payForRecovered_spec s input hsigner hmethod hsound hcf hmem
          simp only [Option.map_some]
          split
          · exact .of_mined hwritten rfl hpaid.1
          · next hok =>
            exact .wrote (methodRow (idOf env i f) recover.identityId (kindOf input.body)
              (some credentialId) qx qy) i f hwritten rfl (methodOf_eq_some hmethod).1 rfl hpaid.1
              (.inl (hpaid.2 hok)) (.inl rfl)
    · exact .aside rfl rfl

theorem touch_passkeyRegister (hsigner : hasSigner env = true) :
    Touch env s input .passkeyRegister (passkeyRegister env s input) := by
  unfold passkeyRegister
  split
  · exact .aside rfl rfl
  · next r hcheck =>
    have hchecked : Checked env s input .passkeyRegister := ⟨rfl, r, hcheck⟩
    obtain ⟨i, f, hmethod, hid⟩ : ∃ i f, methodOf env r.identity.identityId .webauthn r.qx r.qy
        ZERO_ADDRESS = some (i, f) ∧ r.methodId = idOf env i f := by
      have h := hcheck
      obtain ⟨session, -, h⟩ := bind_eq_ok.mp h
      obtain ⟨qx, -, h⟩ := bind_eq_ok.mp h
      obtain ⟨qy, -, h⟩ := bind_eq_ok.mp h
      obtain ⟨credentialId, -, h⟩ := bind_eq_ok.mp h
      obtain ⟨_, -, h⟩ := bind_eq_ok.mp h
      obtain ⟨identity, -, h⟩ := bind_eq_ok.mp h
      obtain ⟨methodId, hmethodId, h⟩ := bind_eq_ok.mp h
      cases h
      rw [orRevert_eq_ok, computeIdentityMethodId_eq] at hmethodId
      obtain ⟨m, hm, hid⟩ := Option.map_eq_some_iff.mp hmethodId
      exact ⟨m.1, m.2, hm, hid.symm⟩
    have hwritten : written env s input .passkeyRegister = some (i, f) := by
      unfold written
      rw [hcheck]
      exact hmethod
    have hregistered := registerOnChain_spec input.rpc s.store hsigner hmethod
    have hsettled : ∀ b, (registerIdentityOnChain env input.rpc s.store r.identity.identityId
        r.qx r.qy).1 = .ok b → Live (registerIdentityOnChain env input.rpc s.store
          r.identity.identityId r.qx r.qy).2 i (computeMethodId env.contract.crypto i f) ∨
        Drift env s r.methodId (.route .passkeyRegister input) := by
      intro b hb
      by_cases hfresh : identityExists s.store i = false
      · exact .inl (hregistered.2 hfresh b hb)
      · exact .inr (.unregistered hcheck rfl fun h =>
          hfresh (h.fresh i (methodOf_eq_some hmethod).1))
    let row := methodRow r.methodId r.identity.identityId .webauthn (some r.credentialId) r.qx r.qy
    have hidentity : bytes32 row.identityId = some i := (methodOf_eq_some hmethod).1
    have hstore : (s.insertMethod input.now row).store = s.store := rfl
    dsimp only
    rw [hstore]
    split
    · next herror =>
      refine .wrote row i f hwritten hid hidentity rfl hregistered.1
        (.inr (.unregistered hcheck rfl fun h => ?_)) (.inr hchecked)
      rw [h.confirmed] at herror
      cases herror
    · next b hb =>
      split
      · exact .wrote row i f hwritten hid hidentity rfl hregistered.1 (hsettled b hb) (.inr hchecked)
      · next wallets hwallets =>
        exact .wrote row i f hwritten hid hidentity (sameIndex_firstWallet hwallets).methods
          hregistered.1 (hsettled b hb) (.inl rfl)

theorem payForMethod_spec (s : IdentityServer) (input : Input) {session : IdentitySession}
    {m : NewMethod} (hsigner : hasSigner env = true)
    (hmethod : methodOf env session.identityId m.row.kind m.qx m.qy m.eoa = some (i, f))
    (hid : m.methodId = idOf env i f)
    (hsound : Sound env.contract inputs s.store) (hcf : env.contract.crypto.CollisionFree inputs)
    (hin : methodIdPreimage i f ∈ inputs) :
    let paid := payForMethod env s input session m
    Mined env s.store input.rpc.meanwhile (Puts i f) paid.2 ∧
      (paid.1 = .ok () → Live paid.2 i (computeMethodId env.contract.crypto i f) ∨
        str (field input.body "pay") = some "pending") := by
  have hprovider := hasProvider_of_hasSigner hsigner
  unfold payForMethod
  dsimp only
  split
  · rw [hid]
    split
    · next hfound => exact ⟨.refl, fun _ => .inl (live_of_found hsigner hsound hcf hin hfound)⟩
    · exact ⟨.refl, fun h => by cases h⟩
  · next hpay => exact ⟨.refl, fun _ => .inr hpay⟩
  · split
    · rw [hprovider]
      exact ⟨.refl, fun h => by cases h⟩
    · next authorization hauthorization =>
      have hadded := addOnChain_spec input.rpc s.store authorization hsigner hmethod
      apply And.intro hadded.1
      intro hok
      dsimp only at hok
      split at hok
      · next b hb => exact .inl (hadded.2 b hb)
      · cases hok

theorem newMethod_spec {session : IdentitySession} {m : NewMethod}
    (h : newMethod env input session = some m) : ∃ i f,
      methodOf env session.identityId m.row.kind m.qx m.qy m.eoa = some (i, f) ∧
      methodOf env session.identityId (kindOf input.body) ((bodyQx input.body).getD ZERO_WORD)
        ((bodyQy input.body).getD ZERO_WORD) ((str (field input.body "eoa")).getD ZERO_ADDRESS) =
          some (i, f) ∧
      m.methodId = idOf env i f ∧ m.row.id = idOf env i f ∧
      m.row.identityId = session.identityId := by
  obtain ⟨methodId, hmethodId, h⟩ := Option.bind_eq_some_iff.mp h
  cases h
  rw [computeIdentityMethodId_eq] at hmethodId
  obtain ⟨p, hp, hid⟩ := Option.map_eq_some_iff.mp hmethodId
  exact ⟨p.1, p.2, hp, hp, hid.symm, hid.symm, rfl⟩

theorem touch_postMethods (hsigner : hasSigner env = true)
    (hsound : Sound env.contract inputs s.store) (hcf : env.contract.crypto.CollisionFree inputs)
    (hin : ∀ p ∈ hashed env s (.route .postMethods input), p ∈ inputs) :
    Touch env s input .postMethods (postMethods env s input) := by
  apply touch_withSession
  intro session hsession
  dsimp only
  split
  · exact .aside rfl rfl
  · split
    · exact .aside rfl rfl
    · next m hm =>
      obtain ⟨i, f, hmethod, hbody, hmethodId, hrow, hidentity⟩ := newMethod_spec hm
      have hwritten : written env s input .postMethods = some (i, f) := by
        unfold written
        rw [hsession]
        exact hbody
      have hmem : methodIdPreimage i f ∈ inputs := by
        apply hin
        simp [hashed, hwritten]
      have hpaid := payForMethod_spec s input hsigner hmethod hmethodId hsound hcf hmem
      split
      · exact .of_mined hwritten rfl hpaid.1
      · next hok =>
        have hbytes : bytes32 m.row.identityId = some i := by
          rw [hidentity]
          exact (methodOf_eq_some hmethod).1
        refine .wrote m.row i f hwritten hrow hbytes rfl hpaid.1 ?_ (.inl rfl)
        exact (hpaid.2 hok).imp id fun hpay => .pending hpay hwritten hrow.symm

theorem mem_of_credentialId {db : WalletDb} {credentialId : String} {row : IdentityMethod}
    (h : getIdentityMethodByCredentialId db credentialId = some row) : row ∈ db.methods.rows := by
  unfold getIdentityMethodByCredentialId at h
  dsimp only at h
  split at h
  · next found hfound =>
    cases h
    obtain ⟨variant, -, hvariant⟩ := List.exists_of_findSome?_eq_some hfound
    exact List.mem_of_find?_eq_some hvariant
  · exact (List.mem_filter.mp (List.mem_of_find?_eq_some h)).1

theorem mem_of_ownedMethod {identityId : String} {row : IdentityMethod}
    (h : ownedMethod s input identityId = some row) : row ∈ s.db.wallets.methods.rows := by
  have howned : ∀ {p : IdentityMethod → Bool} {found : IdentityMethod},
      (listIdentityMethods s.db.wallets identityId).find? p = some found →
        found ∈ s.db.wallets.methods.rows :=
    fun hfound => (List.mem_filter.mp (List.mem_of_find?_eq_some hfound)).1
  unfold ownedMethod at h
  dsimp only at h
  rcases Option.or_eq_some_iff.mp h with h | ⟨-, h⟩
  · rcases Option.or_eq_some_iff.mp h with h | ⟨-, h⟩
    · obtain ⟨methodId, -, hfound⟩ := Option.bind_eq_some_iff.mp h
      exact howned hfound
    · obtain ⟨credentialId, -, hfound⟩ := Option.bind_eq_some_iff.mp h
      exact mem_of_credentialId (Option.filter_eq_some_iff.mp hfound).1
  · obtain ⟨qx, -, h⟩ := Option.bind_eq_some_iff.mp h
    obtain ⟨qy, -, hfound⟩ := Option.bind_eq_some_iff.mp h
    exact howned hfound

theorem removeFromChain_spec (s : IdentityServer) (input : Input) (identityId methodId : String)
    (hsigner : hasSigner env = true) {P : Tx IdentityStore.Call → Prop} :
    let removed := removeFromChain env s input identityId methodId
    Mined env s.store input.rpc.meanwhile (Removes methodId) removed.2 ∧
      (removed.1 ≠ .ok () → input.rpc.delivery ≠ .lost →
        Mined env s.store input.rpc.meanwhile P removed.2) := by
  unfold removeFromChain
  split
  · exact ⟨.refl, fun h => absurd rfl h⟩
  · split
    · exact ⟨.refl, fun _ _ => .refl⟩
    · next authorization hauthorization =>
      have hspec := removeOnChain_spec (P := P) input.rpc s.store identityId methodId
        authorization hsigner
      apply And.intro hspec.1
      intro herror hlost
      apply hspec.2 _ hlost
      intro b hb
      -- with a signer the answer is never `false`
      cases b with
      | true =>
        apply herror
        dsimp only
        rw [hb]
      | false =>
        unfold removeIdentityMethodOnChain at hb
        rw [hsigner] at hb
        simp only [Bool.not_true, Bool.false_eq_true, if_false] at hb
        split at hb
        · unfold sendOr at hb
          dsimp only at hb
          split at hb <;> cases hb
        · cases hb

theorem touch_deleteMethods (hsigner : hasSigner env = true) :
    Touch env s input .deleteMethods (deleteMethods env s input) := by
  unfold deleteMethods
  split
  · exact .aside rfl rfl
  · next session hsession =>
    split
    · exact .aside rfl rfl
    · next row howned =>
      split
      · exact .aside rfl rfl
      · have hrow := mem_of_ownedMethod howned
        have hspec := removeFromChain_spec (P := Own env s input .deleteMethods) s input
          session.identityId row.id hsigner
        dsimp only
        split
        · next e herror =>
          refine .kept rfl ?_
          by_cases hlost : input.rpc.delivery = .lost
          · have hdrift : Drift env s row.id (.route .deleteMethods input) :=
              .lost hlost hsession howned rfl
            exact hspec.1.mono fun tx htx => .inr ⟨row, hrow, htx, hdrift⟩
          · apply hspec.2 _ hlost
            rw [herror]
            exact fun h => by cases h
        · exact .deleted hrow rfl hspec.1 rfl

theorem touch_restore (hsigner : hasSigner env = true) :
    Touch env s input .restore (restore env s input) := by
  unfold restore
  split
  · exact .aside rfl rfl
  · next session hsession =>
    split
    · next qx qy hqx hqy =>
      cases hmethod : methodOf env session.identityId (kindOf input.body) qx qy ZERO_ADDRESS with
      | none =>
        dsimp only
        rw [restoreOnChain_none hsigner hmethod]
        exact .aside rfl rfl
      | some m =>
        cases m with
        | mk i f =>
          have hwritten : written env s input .restore = some (i, f) := by
            unfold written
            rw [hsession, hqx, hqy]
            exact hmethod
          have hspec := restoreOnChain_spec input.rpc s.store hsigner hmethod
          dsimp only
          split
          · exact .of_mined hwritten rfl hspec.1
          · next b hb =>
            rw [computeIdentityMethodId_eq, hmethod]
            refine .wrote (methodRow (idOf env i f) session.identityId (kindOf input.body)
              (str (field input.body "credentialId")) qx qy) i f hwritten rfl
              (methodOf_eq_some hmethod).1 rfl hspec.1 ?_ (.inl rfl)
            by_cases hdelay : s.store.restoreDelay ≠ 0 ∨
                (input.rpc.before env s.store).restoreDelay ≠ 0
            · exact .inr (.delayed hdelay hwritten rfl)
            · rw [not_or, not_not, not_not] at hdelay
              exact .inl (hspec.2 hdelay.1 hdelay.2 b hb)
    · exact .aside rfl rfl

theorem touch_emailStart : Touch env s input .emailStart (emailStart env s input) := by
  unfold emailStart
  split
  · exact .aside rfl rfl
  · split
    · exact .aside rfl rfl
    · split
      · exact .aside rfl rfl
      · split
        · exact .aside rfl rfl
        · next db hcreate =>
          obtain ⟨table, -, heq⟩ := Option.bind_eq_some_iff.mp hcreate
          cases heq
          exact .aside rfl rfl

theorem touch_emailVerify : Touch env s input .emailVerify (emailVerify env s input) := by
  unfold emailVerify
  split
  · next email code hemail hcode =>
    have hwallets := wallets_consumeOtp s.db input.now (identityOtpWallet email) email
      (env.hashOtpCode code) .login
    dsimp only
    split
    · exact .aside (congrArg WalletDb.methods hwallets) rfl
    · split
      · exact .aside (congrArg WalletDb.methods hwallets) rfl
      · next identity wallets hcreate =>
        rw [hwallets] at hcreate
        exact .aside (methods_getOrCreate hcreate) rfl
  · exact .aside rfl rfl

theorem touch_googleCallback {q : OAuthReply} :
    Touch env s input (.googleCallback q) (googleCallback env s input q) := by
  unfold googleCallback
  split
  · exact .aside rfl rfl
  · dsimp only
    split
    · exact .aside rfl rfl
    · split
      · exact .aside rfl rfl
      · next identity wallets hidentity =>
        have hmethods := methods_googleIdentity hidentity
        apply Touch.aside
        · dsimp only [issueSession, accept, IdentityServer.withWallets]
          split
          · exact hmethods
          · exact hmethods
        · rfl

theorem touch_recoverProve : Touch env s input .recoverProve (recoverProve env s input) := by
  unfold recoverProve
  dsimp only
  split
  · exact .aside rfl rfl
  · split <;> exact .aside rfl rfl

theorem touch_passkeyLogin : Touch env s input .passkeyLogin (passkeyLogin s input) := by
  unfold passkeyLogin
  split
  · exact .aside rfl rfl
  · split <;> exact .aside rfl rfl

theorem touch_postWallets : Touch env s input .postWallets (postWallets env s input) := by
  apply touch_withSession
  intro session hsession
  dsimp only
  split
  · exact .aside rfl rfl
  · split
    · exact .aside rfl rfl
    · next hcreate => exact touch_withWallets (sameIndex_createWallet hcreate).methods

theorem touch_patchWallets : Touch env s input .patchWallets (patchWallets s input) := by
  apply touch_withSession
  intro session hsession
  split
  · next address label haddress hlabel =>
    split
    · exact touch_withWallets (sameIndex_setLabel s.db.wallets address label).methods
    · exact .aside rfl rfl
  · exact .aside rfl rfl

theorem touch_joinWallet {isSigner : Except HttpError Bool} :
    Touch env s input (.joinWallet isSigner) (joinWallet env s input isSigner) := by
  unfold joinWallet
  split
  · exact .aside rfl rfl
  · split
    · exact .aside rfl rfl
    · split
      · exact .aside rfl rfl
      · split <;> exact .aside rfl rfl

theorem touch_call (hsigner : hasSigner env = true) (hsound : Sound env.contract inputs s.store)
    (hcf : env.contract.crypto.CollisionFree inputs)
    (hin : ∀ p ∈ hashed env s (.route route input), p ∈ inputs) :
    Touch env s input route (call env s input route) := by
  cases route with
  | emailStart => exact touch_emailStart
  | emailVerify => exact touch_emailVerify
  | googleCallback q => exact touch_googleCallback
  | recoverChallenge => exact .aside rfl rfl
  | recoverProve => exact touch_recoverProve
  | recoverAddMethod => exact touch_recoverAddMethod hsigner hsound hcf hin
  | passkeyRegister => exact touch_passkeyRegister hsigner
  | passkeyLogin => exact touch_passkeyLogin
  | postWallets => exact touch_postWallets
  | patchWallets => exact touch_patchWallets
  | joinWallet isSigner => exact touch_joinWallet
  | postMethods => exact touch_postMethods hsigner hsound hcf hin
  | deleteMethods => exact touch_deleteMethods hsigner
  | restore => exact touch_restore hsigner
  | operator requests jobs => exact .aside rfl rfl

end Routes

/-! ## One step -/

-- The store is sound, and every id of a row is written as the server writes it.
structure Indexed (env : Env) (inputs : List Bytes) (s : IdentityServer) : Prop where
  sound : Sound env.contract inputs s.store
  written : Table.All (fun row => ∃ x, row.id = hex32 x) s.db.wallets.methods

theorem hashedBy_of_removes {tx : Tx IdentityStore.Call} (h : Removes id tx) :
    hashedBy tx = [] := by
  obtain ⟨i, m, authorization, hcall, -⟩ := h
  unfold hashedBy
  rw [hcall]

theorem others_hashed (hin : ∀ p ∈ hashed env s st, p ∈ inputs) :
    ∀ tx ∈ others st, ∀ p ∈ hashedBy tx, p ∈ inputs := by
  intro tx htx p hp
  apply hin
  exact List.mem_append_left _ (List.mem_flatMap.mpr ⟨tx, htx, hp⟩)

theorem Puts.hashes {route : Route} {i : Bytes32} {f : MethodFields} {tx : Tx IdentityStore.Call}
    (h : Puts i f tx) (hwritten : IdentityRoutes.written env s input route = some (i, f))
    (hin : ∀ p ∈ IdentityRoutes.hashed env s (.route route input), p ∈ inputs) :
    ∀ p ∈ hashedBy tx, p ∈ inputs := by
  intro p hp
  apply hin
  rw [h.hashed] at hp
  simp [IdentityRoutes.hashed, hwritten, List.mem_singleton.mp hp]

theorem Own.hashes {route : Route} {tx : Tx IdentityStore.Call} (h : Own env s input route tx)
    (hin : ∀ p ∈ hashed env s (.route route input), p ∈ inputs) :
    ∀ p ∈ hashedBy tx, p ∈ inputs := by
  rcases h with ⟨i, f, hwritten, hputs⟩ | ⟨row, -, hremoves, -⟩
  · exact hputs.hashes hwritten hin
  · rw [hashedBy_of_removes hremoves]
    exact fun p hp => absurd hp List.not_mem_nil

theorem Touch.indexed {route : Route} {o : Outcome} (h : Touch env s input route o)
    (hs : Indexed env inputs s) (hcf : env.contract.crypto.CollisionFree inputs)
    (hin : ∀ p ∈ hashed env s (.route route input), p ∈ inputs) :
    Indexed env inputs o.server := by
  have hothers := others_hashed hin
  cases h with
  | kept hmethods hmined =>
    apply Indexed.mk
    · exact hmined.sound hs.sound hcf hothers fun tx htx => htx.hashes hin
    · exact hmethods ▸ hs.written
  | wrote row i f hwritten hid hidentity hmethods hmined hsettled hanswer =>
    apply Indexed.mk
    · exact hmined.sound hs.sound hcf hothers fun tx htx => htx.hashes hwritten hin
    · rw [hmethods]
      exact hs.written.upsert ⟨_, hid⟩ fun old hold => hold
  | @deleted row hrow hmethods hmined hanswer =>
    apply Indexed.mk
    · apply hmined.sound hs.sound hcf hothers
      intro tx htx
      rw [hashedBy_of_removes htx]
      exact fun p hp => absurd hp List.not_mem_nil
    · rw [hmethods]
      unfold deleteIdentityMethod
      split
      · exact hs.written
      · exact hs.written.delete _

/-- The rows that the server writes are told apart by the ids they stand for. -/
theorem Indexed.id_eq (hs : Indexed env inputs s) {row row' : IdentityMethod}
    (hrow : row ∈ s.db.wallets.methods.rows) (hrow' : row' ∈ s.db.wallets.methods.rows)
    {tx : Tx IdentityStore.Call} (h : Removes row.id tx) (h' : Removes row'.id tx) :
    row.id = row'.id := by
  obtain ⟨i, m, authorization, hcall, hm⟩ := h
  obtain ⟨j, m', authorization', hcall', hm'⟩ := h'
  cases hcall.symm.trans hcall'
  obtain ⟨x, hx⟩ := hs.written row hrow
  obtain ⟨y, hy⟩ := hs.written row' hrow'
  rw [hx, bytes32_hex32] at hm
  rw [hy, bytes32_hex32] at hm'
  rw [hx, hy, Option.some.inj (hm.trans hm'.symm)]

theorem Mined.gone {store store' : State} {meanwhile : List (Tx IdentityStore.Call)}
    {P : Tx IdentityStore.Call → Prop} (h : Mined env store meanwhile P store')
    (hsound : Sound env.contract inputs store) (hcf : env.contract.crypto.CollisionFree inputs)
    (hothers : ∀ tx ∈ meanwhile, ∀ p ∈ hashedBy tx, p ∈ inputs)
    (hown : ∀ tx, P tx → ∀ p ∈ hashedBy tx, p ∈ inputs) {row row' : IdentityMethod}
    (hid : row'.id = row.id) (hidentity : row'.identityId = row.identityId)
    (hold : OnChain store row) (hnot : ¬ OnChain store' row') :
    ∃ tx, (tx ∈ meanwhile ∨ P tx) ∧ Removes row.id tx := by
  obtain ⟨i, m, hi, hm, hlive⟩ := hold
  have hgone : ¬ Live store' i m := fun hlive' =>
    hnot ⟨i, m, hidentity ▸ hi, hid ▸ hm, hlive'⟩
  obtain ⟨tx, htx, authorization, hcall⟩ := h.loss hsound hcf hothers hown hlive hgone
  exact ⟨tx, htx, i, m, authorization, hcall, hm⟩

theorem Touch.astray {route : Route} {o : Outcome} (h : Touch env s input route o)
    (hs : Indexed env inputs s) (hcf : env.contract.crypto.CollisionFree inputs)
    (hin : ∀ p ∈ hashed env s (.route route input), p ∈ inputs) (hastray : Astray o.server id) :
    Astray s id ∨ Drift env s id (.route route input) := by
  have hothers := others_hashed hin
  obtain ⟨row', hfound, hnot⟩ := hastray
  cases h with
  | kept hmethods hmined =>
    rw [hmethods] at hfound
    by_cases hold : OnChain s.store row'
    · obtain ⟨tx, htx, hremoves⟩ :=
        hmined.gone hs.sound hcf hothers (fun tx htx => htx.hashes hin) rfl rfl hold hnot
      have hid : row'.id = id := Table.key_of_find? hfound
      rcases htx with hmem | ⟨i, f, -, hputs⟩ | ⟨row, hrow, hremoves', hdrift⟩
      · exact .inr (.removed hmem (hid ▸ hremoves))
      · obtain ⟨i, m, authorization, hcall, -⟩ := hremoves
        exact absurd hcall (hputs.keeps i m authorization)
      · have hsame := hs.id_eq hrow (Table.mem_of_find? hfound) hremoves' hremoves
        exact .inr (hid ▸ hsame ▸ hdrift)
    · exact .inl ⟨row', hfound, hold⟩
  | wrote row i f hwritten hid hidentity hmethods hmined hsettled hanswer =>
    have hkept : ∀ old, s.db.wallets.methods.find? id = some old → row'.id = old.id →
        row'.identityId = old.identityId → Astray s id ∨ Drift env s id (.route route input) := by
      intro old hold hsame hsame'
      by_cases honChain : OnChain s.store old
      · obtain ⟨tx, htx, hremoves⟩ := hmined.gone hs.sound hcf hothers
          (fun tx htx => htx.hashes hwritten hin) hsame hsame' honChain hnot
        rcases htx with hmem | hputs
        · have hkey : old.id = id := Table.key_of_find? hold
          exact .inr (.removed hmem (hkey ▸ hremoves))
        · obtain ⟨i, m, authorization, hcall, -⟩ := hremoves
          exact absurd hcall (hputs.keeps i m authorization)
      · exact .inl ⟨old, hold, honChain⟩
    rw [hmethods] at hfound
    have hfound' := Table.find?_upsert.symm.trans hfound
    by_cases hkey : id = row.id
    · rw [if_pos hkey] at hfound'
      cases hold : s.db.wallets.methods.find? id with
      | some old =>
        rw [hold] at hfound'
        cases hfound'
        exact hkept old hold rfl rfl
      | none =>
        rw [hold] at hfound'
        cases hfound'
        rcases hsettled with hlive | hdrift
        · have hbytes : bytes32 row.id = some (computeMethodId env.contract.crypto i f) := by
            rw [hid, idOf, bytes32_hex32]
          exact absurd ⟨i, _, hidentity, hbytes, hlive⟩ hnot
        · exact .inr (hkey ▸ hdrift)
    · rw [if_neg hkey] at hfound'
      exact hkept row' hfound' rfl rfl
  | @deleted row hrow hmethods hmined hanswer =>
    rw [hmethods] at hfound
    have hrowfound := Table.find?_of_mem hrow
    have hdelete : (deleteIdentityMethod s.db.wallets input.now row.id).1.methods =
        s.db.wallets.methods.delete fun other => other.id = row.id := by
      unfold deleteIdentityMethod
      rw [hrowfound]
    rw [hdelete, Table.find?_delete] at hfound
    obtain ⟨hold, hother⟩ := Option.filter_eq_some_iff.mp hfound
    by_cases honChain : OnChain s.store row'
    · have hown : ∀ tx, Removes row.id tx → ∀ p ∈ hashedBy tx, p ∈ inputs := by
        intro tx htx
        rw [hashedBy_of_removes htx]
        exact fun p hp => absurd hp List.not_mem_nil
      obtain ⟨tx, htx, hremoves⟩ := hmined.gone hs.sound hcf hothers hown rfl rfl honChain hnot
      have hid : row'.id = id := Table.key_of_find? hold
      rcases htx with hmem | hremoves'
      · exact .inr (.removed hmem (hid ▸ hremoves))
      · have hsame := hs.id_eq (Table.mem_of_find? hold) hrow hremoves hremoves'
        simp [hsame] at hother
    · exact .inl ⟨row', hold, honChain⟩

/-! ## Runs -/

theorem mined_tx {tx : Tx IdentityStore.Call} {P : Tx IdentityStore.Call → Prop} :
    Mined env s.store (others (.mined tx)) P
      (commit (IdentityStore.step env.contract) s.store tx) :=
  ⟨[tx], rfl, fun _ hmem => .inl hmem⟩

theorem Indexed.after_step (hs : Indexed env inputs s) (hsigner : hasSigner env = true)
    (hcf : env.contract.crypto.CollisionFree inputs) (hin : ∀ p ∈ hashed env s st, p ∈ inputs) :
    Indexed env inputs (step env s st).server := by
  cases st with
  | route route input => exact (touch_call hsigner hs.sound hcf hin).indexed hs hcf hin
  | mined tx =>
    have hmined : Mined env s.store (others (.mined tx)) (fun _ => False) _ := mined_tx
    exact ⟨hmined.sound hs.sound hcf (others_hashed hin) fun _ h => h.elim, hs.written⟩

theorem Indexed.astray (hs : Indexed env inputs s) (hsigner : hasSigner env = true)
    (hcf : env.contract.crypto.CollisionFree inputs) (hin : ∀ p ∈ hashed env s st, p ∈ inputs)
    (hastray : Astray (step env s st).server id) : Astray s id ∨ Drift env s id st := by
  cases st with
  | route route input => exact (touch_call hsigner hs.sound hcf hin).astray hs hcf hin hastray
  | mined tx =>
    have hmined : Mined env s.store (others (.mined tx)) (fun _ => False) _ := mined_tx
    obtain ⟨row, hfound, hnot⟩ := hastray
    by_cases hold : OnChain s.store row
    · obtain ⟨other, hother, hremoves⟩ :=
        hmined.gone hs.sound hcf (others_hashed hin) (fun _ h => h.elim) rfl rfl hold hnot
      have hid : row.id = id := Table.key_of_find? hfound
      exact .inr (.removed (hother.resolve_right fun h => h) (hid ▸ hremoves))
    · exact .inl ⟨row, hfound, hold⟩

-- An answered error leaves the index as it was, unless a registration has passed its checks.
def KeepsOnError (env : Env) (s : IdentityServer) (st : Step) : Prop :=
  ∀ e, (step env s st).answer = .error e →
    (step env s st).server.db.wallets.methods = s.db.wallets.methods ∨
      ∃ input r, st = .route .passkeyRegister input ∧ checkRegister env s input = .ok r

theorem Indexed.keepsOnError (hs : Indexed env inputs s) (hsigner : hasSigner env = true)
    (hcf : env.contract.crypto.CollisionFree inputs) (hin : ∀ p ∈ hashed env s st, p ∈ inputs) :
    KeepsOnError env s st := by
  intro e herror
  cases st with
  | route route input =>
    cases touch_call hsigner hs.sound hcf hin with
    | kept hmethods hmined => exact .inl hmethods
    | wrote row i f hwritten hid hidentity hmethods hmined hsettled hanswer =>
      rcases hanswer with hok | ⟨rfl, r, hcheck⟩
      · cases hok.symm.trans herror
      · exact .inr ⟨input, r, rfl, hcheck⟩
    | deleted hrow hmethods hmined hanswer => cases hanswer.symm.trans herror
  | mined tx => cases herror

section Runs

variable {recoveryOperator owner : Address} {steps : List Step}

theorem indexed_after (hsigner : hasSigner env = true)
    (hcf : env.contract.crypto.CollisionFree inputs)
    (hin : Each (fun pre st => ∀ p ∈ hashed env (after env (started recoveryOperator owner) pre) st,
      p ∈ inputs) steps) : Indexed env inputs (after env (started recoveryOperator owner) steps) := by
  induction steps using List.reverseRecOn with
  | nil => exact ⟨Sound.deployed inputs recoveryOperator owner, .empty⟩
  | append_singleton steps st ih =>
    rw [each_concat] at hin
    unfold after
    rw [run_concat]
    exact (ih hin.1).after_step hsigner hcf hin.2

theorem not_astray_after (hsigner : hasSigner env = true)
    (hcf : env.contract.crypto.CollisionFree inputs)
    (hin : Each (fun pre st => ∀ p ∈ hashed env (after env (started recoveryOperator owner) pre) st,
      p ∈ inputs) steps)
    (hsteady : Each (fun pre st => ∀ id, ¬ Drift env (after env (started recoveryOperator owner) pre)
      id st) steps) : ¬ Astray (after env (started recoveryOperator owner) steps) id := by
  induction steps using List.reverseRecOn with
  | nil =>
    intro hastray
    obtain ⟨row, hfound, -⟩ := hastray
    cases hfound
  | append_singleton steps st ih =>
    rw [each_concat] at hin hsteady
    unfold after
    rw [run_concat]
    intro hastray
    rcases (indexed_after hsigner hcf hin.1).astray hsigner hcf hin.2 hastray with hbefore | hdrift
    · exact ih hin.1 hsteady.1 hbefore
    · exact hsteady.2 id hdrift

end Runs

-- What a step leaves of the agreement between the index and the store.
structure Accounted (env : Env) (s : IdentityServer) (st : Step) : Prop where
  astray : ∀ id, Astray (step env s st).server id → Astray s id ∨ Drift env s id st
  errors : KeepsOnError env s st

/-- In every run a row goes astray in a step of one of the five kinds only, and an answered error
leaves the rows unless a registration has passed its checks; without such steps the store has the
method of every row. -/
theorem index_follows_chain (env : Env) (recoveryOperator owner : Address) (inputs : List Bytes)
    (steps : List Step) (hsigner : hasSigner env = true)
    (hcf : env.contract.crypto.CollisionFree inputs)
    (hin : Each (fun pre st => ∀ p ∈ hashed env (after env (started recoveryOperator owner) pre) st,
      p ∈ inputs) steps) :
    Each (fun pre st => Accounted env (after env (started recoveryOperator owner) pre) st) steps ∧
      (Each (fun pre st => ∀ id, ¬ Drift env (after env (started recoveryOperator owner) pre) id st)
        steps → ∀ row ∈ (after env (started recoveryOperator owner) steps).db.wallets.methods.rows,
          OnChain (after env (started recoveryOperator owner) steps).store row) := by
  apply And.intro
  · intro pre st hpre
    have hbefore : Indexed env inputs (after env (started recoveryOperator owner) pre) := by
      apply indexed_after hsigner hcf
      intro first t hfirst
      exact hin first t (hfirst.trans ((List.prefix_append pre [st]).trans hpre))
    have hhashes := hin pre st hpre
    exact ⟨fun id => hbefore.astray hsigner hcf hhashes, hbefore.keepsOnError hsigner hcf hhashes⟩
  · intro hsteady row hrow
    by_contra hnot
    exact not_astray_after hsigner hcf hin hsteady ⟨row, Table.find?_of_mem hrow, hnot⟩

def chainEnv : Env := { sampleEnv with
  rpcUrl := some "https://rpc.example.org"
  storeAddress := some "0x1d57"
  deployerPrivateKey := some "0x01" }

def emailSignUp : List Step :=
  [.route .emailStart (sampleInput [("email", "alice@example.org")] none),
    .route .emailVerify (sampleInput [("email", "alice@example.org"), ("code", "123456")] none)]

-- The identity of the email gets its first passkey.
def firstPasskey : Step :=
  .route .passkeyRegister { sampleInput [("qx", hex32 11), ("qy", hex32 12), ("credentialId", "key")]
    (some ⟨hex32 0xA11CE, "alice@example.org"⟩) with
      rpc := { quietRpc with delivery := .confirmed } }

theorem collisionFree_hashed_firstPasskey {s : IdentityServer} :
    chainEnv.contract.crypto.CollisionFree (hashed chainEnv s firstPasskey) := by
  have hone : ∀ m : Option (Bytes32 × MethodFields), chainEnv.contract.crypto.CollisionFree
      (m.toList.map fun m => methodIdPreimage m.1 m.2) := by
    intro m
    cases m with
    | none => exact fun a ha => absurd ha List.not_mem_nil
    | some m =>
      intro a ha b hb _
      exact (List.mem_singleton.mp ha).trans (List.mem_singleton.mp hb).symm
  exact hone _

theorem index_follows_chain_firstPasskey :
    Each (fun pre st => Accounted chainEnv (after chainEnv (started 0 0) pre) st)
      (emailSignUp ++ [firstPasskey]) :=
  (index_follows_chain chainEnv 0 0
    (hashed chainEnv (after chainEnv (started 0 0) emailSignUp) firstPasskey)
    (emailSignUp ++ [firstPasskey]) (by decide) collisionFree_hashed_firstPasskey
    (each_concat.mpr ⟨each_concat.mpr ⟨each_concat.mpr ⟨each_nil, fun p hp =>
      absurd hp List.not_mem_nil⟩, fun p hp => absurd hp List.not_mem_nil⟩, fun p hp => hp⟩)).1

end OnchainInvoice.IdentityRoutes
