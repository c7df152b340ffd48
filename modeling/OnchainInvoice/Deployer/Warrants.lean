import OnchainInvoice.Deployer.Effects
import OnchainInvoice.Identity.Provenance
import OnchainInvoice.Recovery.JobOrigins

/-!
# Whose keys come to an identity

From the call that made a job to the method on chain: a key that is not an owner's choice is that of
a request the guardian approved, or of a client's.
-/

namespace OnchainInvoice.WalletDeployer

open Evm IdentityTypes Lib.Awaits Lib.Runs Recovery WalletLog
open IdentityStore hiding Env Call step
open IdentityRoutes (bytes32)

variable {env : Recovery.Env} {contract : IdentityStore.Env} {s₀ : State} {cfg : Config}
  {script : Nat → Turn Other Info} {w : World env contract s₀} {i id : Bytes32} {f : MethodFields}

/-- The restore is that of a warranted job, for an identity that an account of its wallet had. -/
def Backed (env : Recovery.Env) (calls : List Recovery.Call) (i : Bytes32) (f : MethodFields) :
    Prop :=
  ∃ job address account identityId shown, Warranted env calls job ∧ job.kind = .initiate ∧
    restoreFields job = some f ∧ env.getAddress job.walletAddress = some address ∧
    shown <+: calls ∧ getWalletAccount (runCalls env shown).db address = some account ∧
    account.identityId = some identityId ∧ bytes32 identityId = some i

theorem Backed.mono {calls calls' : List Recovery.Call} (h : Backed env calls i f)
    (hcalls : calls <+: calls') : Backed env calls' i f := by
  obtain ⟨job, address, account, identityId, shown, hwarranted, hkind, hfields, haddress, hshown,
    hrest⟩ := h
  exact ⟨job, address, account, identityId, shown, hwarranted.mono hcalls, hkind, hfields, haddress,
    hshown.trans hcalls, hrest⟩

theorem backed_of_targets {job : Job} (h : Targets w job i f) : Backed env w.calls i f := by
  obtain ⟨identityId, hready, hi, hf⟩ := h
  obtain ⟨calls, hprefix, hfound⟩ := hready.handed
  obtain ⟨address, account, haddress, ⟨shown, hshown, haccount⟩, hidentity⟩ := hready.account
  have hwarranted := (warranted_of_found env calls _ job hfound hready.kind).mono hprefix
  exact ⟨job, address, account, identityId, shown, hwarranted, hready.kind, hf, haddress, hshown,
    haccount, hidentity, hi⟩

/-! ## Runs -/

/-- What the deployer has sent and what the store has seen of it start only backed restores. -/
structure AllBacked (cfg : Config) (w : World env contract s₀) : Prop where
  sent : ∀ sub ∈ w.sent, ∀ call ∈ sub.call, ∀ i f, Restoring call i f → Backed env w.calls i f
  mined : ∀ tx ∈ w.mined, tx.sender = cfg.guardian → ∀ i f, Restoring tx.call i f →
    Backed env w.calls i f

/-- Nobody else sends transactions with the guardian's key. -/
def OwnKey (cfg : Config) (script : Nat → Turn Other Info) : Prop :=
  ∀ n tx, Other.transacts tx ∈ (script n).others → tx.sender ≠ cfg.guardian

theorem AllBacked.serve (h : AllBacked cfg w) (call : Recovery.Call) :
    AllBacked cfg (w.serve call) := by
  have hcalls : w.calls <+: (w.serve call).calls := List.prefix_append ..
  apply AllBacked.mk
  · exact fun sub hsub called hcalled i f hr => (h.sent sub hsub called hcalled i f hr).mono hcalls
  · exact fun tx htx hsender i f hr => (h.mined tx htx hsender i f hr).mono hcalls

theorem AllBacked.receive (h : AllBacked cfg w) (n : Nat) (succeeded : Bool) :
    AllBacked cfg (w.receive n succeeded) := by
  refine ⟨fun sub hsub call hcall => ?_, h.mined⟩
  obtain ⟨m, hm, hget⟩ := List.mem_iff_getElem.mp hsub
  have hm' : m < w.sent.length := by simpa [World.receive] using hm
  have hold : sub.call = w.sent[m].call := by
    rw [← hget]
    simp only [World.receive, List.getElem_modify]
    split <;> rfl
  rw [hold] at hcall
  exact h.sent _ (List.getElem_mem hm') call hcall

theorem AllBacked.mine (h : AllBacked cfg w) {tx : Tx IdentityStore.Call}
    (htx : tx.sender = cfg.guardian → ∀ i f, Restoring tx.call i f → Backed env w.calls i f) :
    AllBacked cfg (w.mine tx) := by
  refine ⟨h.sent, fun t ht => ?_⟩
  rcases List.mem_append.mp ht with hold | hnew
  · exact h.mined t hold
  · cases List.mem_singleton.mp hnew
    exact htx

theorem AllBacked.apply (h : AllBacked cfg w) (hkey : OwnKey cfg script) {n : Nat} {other : Other}
    (hother : other ∈ (script n).others) : AllBacked cfg (w.apply cfg other) := by
  cases other with
  | calls call => exact h.serve call
  | transacts tx => exact h.mine fun hsender => absurd hsender (hkey n tx hother)
  | includes m timestamp succeeded =>
    unfold World.apply
    dsimp only
    split
    · exact h
    · next sub hsub =>
      have hmem : sub ∈ w.sent := List.mem_of_getElem? (Option.filter_eq_some_iff.mp hsub).1
      unfold World.confirm
      cases hcall : sub.call with
      | none => exact h.receive m succeeded
      | some call => exact (h.mine fun _ => h.sent sub hmem call hcall).receive m _

theorem AllBacked.submit (h : AllBacked cfg w) {sub : Submission}
    (hsub : ∀ call ∈ sub.call, ∀ i f, Restoring call i f → Backed env w.calls i f) :
    AllBacked cfg (w.submit sub) := by
  refine ⟨fun other hother => ?_, h.mined⟩
  rcases List.mem_append.mp hother with hold | hnew
  · exact h.sent other hold
  · cases List.mem_singleton.mp hnew
    exact hsub

theorem allBacked_ticks (hkey : OwnKey cfg script) (n : Nat) :
    AllBacked cfg (ticks cfg script n : Waiting (World env contract s₀)).state := by
  apply (reaches_ticks n).invariant (I := AllBacked cfg)
  · intro v v' h hstep
    cases hstep with
    | others hother => exact h.apply hkey hother
    | turn n => exact h
    | asks hcall => exact h.serve _
    | sends hreceipt hother =>
      exact h.submit fun call hcall i f hr => absurd ⟨call, i, f, hcall, hr⟩ hother
    | restores hstarts htargets =>
      refine h.submit fun call hcall j g hr => ?_
      cases hcall
      rcases hr with heq | heq <;> cases heq
      exact backed_of_targets htargets
  · exact ⟨fun _ h => absurd h List.not_mem_nil, fun _ h => absurd h List.not_mem_nil⟩

/-! ## Methods -/

/-- How the method came to the identity: it was registered with it, an owner's method signed for
it, an owner's address sent it, or a restore of the then operator put it there, which is backed
where the operator is the guardian. -/
inductive Entered (env : Recovery.Env) (contract : IdentityStore.Env) (s₀ : State)
    (guardian : Address) (calls : List Recovery.Call) (mined : List (Tx IdentityStore.Call))
    (i id : Bytes32) : Prop
  | registered {pre : List (Tx IdentityStore.Call)} {tx : Tx IdentityStore.Call} {qx qy : Bytes32}
      (hmined : pre ++ [tx] <+: mined) (hcall : tx.call = .register i qx qy)
      (hid : id = computeMethodId contract.crypto i (passkeyFields qx qy))
      (hnew : ((run (IdentityStore.step contract) s₀ pre).identities i).exists_ = false)
  | authorized {pre : List (Tx IdentityStore.Call)} {tx : Tx IdentityStore.Call} {f : MethodFields}
      {authorization : Bytes} {signer : Bytes32} (hmined : pre ++ [tx] <+: mined)
      (hcall : tx.call = .addMethod i f authorization)
      (hid : id = computeMethodId contract.crypto i f)
      (hlive : Live (run (IdentityStore.step contract) s₀ pre) i signer)
      (hverified : VerifiedUnder contract (run (IdentityStore.step contract) s₀ pre)
        (hashAddMethod contract i f) authorization i signer)
  | byEoa {pre : List (Tx IdentityStore.Call)} {tx : Tx IdentityStore.Call} {f : MethodFields}
      {signer : Bytes32} (hmined : pre ++ [tx] <+: mined) (hcall : tx.call = .addMethodByEoa i f)
      (hid : id = computeMethodId contract.crypto i f)
      (hlive : Live (run (IdentityStore.step contract) s₀ pre) i signer)
      (heoa : ((run (IdentityStore.step contract) s₀ pre).methods signer).eoa = tx.sender)
  | restored {pre : List (Tx IdentityStore.Call)} {tx : Tx IdentityStore.Call} {f : MethodFields}
      (hmined : pre ++ [tx] <+: mined) (hid : id = computeMethodId contract.crypto i f)
      (hinit : Initiates (run (IdentityStore.step contract) s₀ pre) tx i f)
      (hbacked : tx.sender = guardian → Backed env calls i f)

theorem entered_of_origin (h : AllBacked cfg w) {pre post : List (Tx IdentityStore.Call)}
    {tx : Tx IdentityStore.Call} (hmined : w.mined = pre ++ tx :: post)
    (horigin : Origin uint64Clock contract s₀ pre tx i id) :
    Entered env contract s₀ cfg.guardian w.calls w.mined i id := by
  have hprefix : pre ++ [tx] <+: w.mined := ⟨post, by rw [hmined, List.append_assoc]; rfl⟩
  cases horigin with
  | registered qx qy hcall hid hnew => exact .registered hprefix hcall hid hnew
  | authorized f authorization signer hcall hid hlive hverified =>
    exact .authorized hprefix hcall hid hlive hverified
  | byEoa f signer hcall hid hlive _ heoa => exact .byEoa hprefix hcall hid hlive heoa
  | restoredAtOnce f hcall hid hinit =>
    have hmem : tx ∈ w.mined := hprefix.subset (by simp)
    exact .restored hprefix hid hinit fun hsender => h.mined tx hmem hsender i f (.inr hcall)
  | restored f before mid ti s₁ hcall hid hpre hstep hinit =>
    have hbefore : before ++ [ti] <+: w.mined :=
      ⟨mid ++ tx :: post, by rw [hmined, hpre]; simp⟩
    have hmem : ti ∈ w.mined := hbefore.subset (by simp)
    exact .restored hbefore hid hinit fun hsender => h.mined ti hmem hsender i f hinit.call

/-- In every run of the server, the store and the deployer, each live method of an identity is an
owner's choice or a restore's, and a restore of the guardian's is backed. -/
theorem methods_entered (env : Recovery.Env) (contract : IdentityStore.Env)
    (operator owner : Address) (hdeploy : deploy operator owner = .ok s₀)
    (cfg : Config) (script : Nat → Turn Other Info)
    (hkey : OwnKey cfg script) (n : Nat)
    (hcf : contract.crypto.CollisionFree
      ((ticks cfg script n : Waiting (World env contract s₀)).state.mined.flatMap hashedBy)) :
    let w := (ticks cfg script n : Waiting (World env contract s₀)).state
    ∀ i id, Live w.store i id → Entered env contract s₀ cfg.guardian w.calls w.mined i id := by
  intro w i id hlive
  have hs₀ := deploy_eq_ok hdeploy
  have hstart : ¬Live s₀ i id := by
    intro hlive₀
    rw [hs₀] at hlive₀
    exact Bool.false_ne_true hlive₀.1
  rw [w.replayed] at hlive
  rcases exists_rise (P := fun s => Live s i id) hstart hlive with
    ⟨pre, tx, s₁, post, hmined, hnot, hstep, hs₁, -⟩
  have hin : ∀ tx ∈ pre, ∀ p ∈ hashedBy tx, p ∈ w.mined.flatMap hashedBy := fun t ht p hp =>
    List.mem_flatMap.mpr ⟨t, by simp [hmined, ht], hp⟩
  have hintx : ∀ p ∈ hashedBy tx, p ∈ w.mined.flatMap hashedBy := fun p hp =>
    List.mem_flatMap.mpr ⟨tx, by simp [hmined], hp⟩
  have hsound := run_sound hdeploy hcf hin
  have hidle : (s₀.pendingRestores i).active = false := by rw [hs₀]; rfl
  have hgain := (step_effect hstep).gain hnot hs₁
  exact entered_of_origin (allBacked_ticks hkey n) hmined (hgain.origin hsound hcf hintx hidle)

/-! ## An approved recovery -/

-- The calls of a recovery up to the guardian's approval, for an account that has an identity.
def approvedRun : List Recovery.Call :=
  .elsewhere ⟨.upsertWalletAccount ⟨"0xw", "salt", Recovery.hex32 '1', Recovery.hex32 '2',
    some "cred", none, some (Recovery.hex32 '7'), none⟩, 1, 1⟩ ::
      approvingRun.drop 1 ++ [.resume 0 (toyAnswer "job")]

def sampleConfig : Config where
  workerId := "worker"
  chain := ⟨"1", "key", none, some "0xstore", 0⟩
  addressOfKey _ := 0x0BE0

def sampleIdentity : Bytes32 := 0x7777777777777777777777777777777777777777777777777777777777777777

def restoredKey : MethodFields :=
  passkeyFields 0x3333333333333333333333333333333333333333333333333333333333333333
    0x4444444444444444444444444444444444444444444444444444444444444444

-- The identity is registered and its recovery approved before the deployer looks; what it sends is
-- included while it waits.
def sampleScript (n : Nat) : Turn Other Info where
  others :=
    if n = 0 then .transacts ⟨9, 1, .register sampleIdentity 1 2⟩ :: approvedRun.map .calls
    else [.includes 0 2 true, .includes 1 2 true]
  fate := .answered
  info := ⟨1, 2, true, 0, none, none, [], "hash", fun _ => "execution reverted"⟩
  message := "call failed"

def sampleWorld : World Recovery.toyEnv IdentityStore.toyEnv toyStore :=
  (ticks sampleConfig sampleScript 1).state

def sampleMined : List (Tx IdentityStore.Call) :=
  [⟨9, 1, .register sampleIdentity 1 2⟩, ⟨0x0BE0, 2, .initiateRestore sampleIdentity restoredKey⟩,
    ⟨0x0BE0, 2, .executeRestore sampleIdentity⟩]

deriving instance DecidableEq for Tx

theorem sampleWorld_eq : (ticks sampleConfig sampleScript 1).state = sampleWorld := rfl

theorem sampleWorld_mined : sampleWorld.mined = sampleMined := by decide +kernel

theorem ownKey_sample : OwnKey sampleConfig sampleScript := by
  intro n tx htx
  unfold sampleScript at htx
  dsimp only at htx
  split at htx
  · rcases List.mem_cons.mp htx with heq | hmem
    · cases heq
      decide
    · obtain ⟨call, -, heq⟩ := List.mem_map.mp hmem
      cases heq
  · simp at htx

theorem methods_entered_sample :
    Live sampleWorld.store sampleIdentity
        (computeMethodId Crypto.toy sampleIdentity restoredKey) ∧
      Entered Recovery.toyEnv IdentityStore.toyEnv toyStore sampleConfig.guardian sampleWorld.calls
        sampleWorld.mined sampleIdentity
        (computeMethodId Crypto.toy sampleIdentity restoredKey) := by
  have hlive : Live sampleWorld.store sampleIdentity
      (computeMethodId Crypto.toy sampleIdentity restoredKey) := by
    have hstore := sampleWorld.replayed
    rw [sampleWorld_mined] at hstore
    rw [hstore]
    decide +kernel
  have hcf : IdentityStore.toyEnv.crypto.CollisionFree (sampleWorld.mined.flatMap hashedBy) := by
    rw [sampleWorld_mined]
    decide +kernel
  have hdeploy : deploy 0x0BE0 0x0A11CE = .ok toyStore := rfl
  have hentered := methods_entered Recovery.toyEnv IdentityStore.toyEnv 0x0BE0 0x0A11CE hdeploy
    sampleConfig sampleScript ownKey_sample 1
  rw [sampleWorld_eq] at hentered
  exact ⟨hlive, hentered hcf sampleIdentity _ hlive⟩

end OnchainInvoice.WalletDeployer
