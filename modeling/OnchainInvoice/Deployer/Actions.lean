import Mathlib.Logic.Relation
import OnchainInvoice.Deployer.WalletDeployer
import OnchainInvoice.Recovery.LifeCycle

/-!
# What can happen while the deployer works

All that happens is one of a few things, and the deployer starts a restore only for a job that the
server has handed it and an account that the server has shown it.
-/

namespace OnchainInvoice.WalletDeployer

open Evm IdentityTypes Lib.Awaits Lib.Handlers Recovery Relation Server WalletLog
open IdentityRoutes (bytes32)

variable {env : Recovery.Env} {contract : IdentityStore.Env} {s₀ : IdentityStore.State}
  {cfg : Config} {script : Nat → Turn Other Info} {w w' : World env contract s₀}

/-! ## What the server has shown -/

def Handed (w : World env contract s₀) (job : Job) : Prop :=
  ∃ calls, calls <+: w.calls ∧ (runCalls env calls).db.jobs.find? job.id = some job

def Shown (w : World env contract s₀) (address : String) (account : WalletAccount) : Prop :=
  ∃ calls, calls <+: w.calls ∧ getWalletAccount (runCalls env calls).db address = some account

/-- The server has handed out the job to initiate a recovery, and shown an account of its wallet
with the identity. -/
structure Ready (w : World env contract s₀) (job : Job) (identityId : String) : Prop where
  handed : Handed w job
  kind : job.kind = .initiate
  account : ∃ address account, env.getAddress job.walletAddress = some address ∧
    Shown w address account ∧ account.identityId = some identityId

/-- The restore that a job stands for: its key, and the identity of the account of its wallet. -/
def Targets (w : World env contract s₀) (job : Job) (i : Bytes32) (f : MethodFields) : Prop :=
  ∃ identityId, Ready w job identityId ∧ bytes32 identityId = some i ∧ restoreFields job = some f

theorem Handed.mono {job : Job} (h : Handed w job) (hcalls : w.calls <+: w'.calls) :
    Handed w' job := by
  obtain ⟨calls, hprefix, hfound⟩ := h
  exact ⟨calls, hprefix.trans hcalls, hfound⟩

theorem Shown.mono {address : String} {account : WalletAccount} (h : Shown w address account)
    (hcalls : w.calls <+: w'.calls) : Shown w' address account := by
  obtain ⟨calls, hprefix, hfound⟩ := h
  exact ⟨calls, hprefix.trans hcalls, hfound⟩

theorem Ready.mono {job : Job} {identityId : String} (h : Ready w job identityId)
    (hcalls : w.calls <+: w'.calls) : Ready w' job identityId := by
  obtain ⟨address, account, haddress, hshown, hidentity⟩ := h.account
  exact ⟨h.handed.mono hcalls, h.kind,
    ⟨address, account, haddress, hshown.mono hcalls, hidentity⟩⟩

theorem handed_of_found {job : Job} {id : String} (h : w.server.db.jobs.find? id = some job) :
    Handed w job := by
  rw [w.served] at h
  cases Lib.Tables.Table.key_of_find? h
  exact ⟨w.calls, List.prefix_rfl, h⟩

theorem shown_of_found {address : String} {account : WalletAccount}
    (h : getWalletAccount w.server.db address = some account) : Shown w address account := by
  rw [w.served] at h
  exact ⟨w.calls, List.prefix_rfl, h⟩

/-! ## Steps -/

def World.submit (w : World env contract s₀) (sub : Submission) : World env contract s₀ :=
  { w with sent := w.sent ++ [sub] }

-- The calls that start a restore.
def Restoring (call : IdentityStore.Call) (i : Bytes32) (f : MethodFields) : Prop :=
  call = .initiateRestore i f ∨ call = .restoreAddMethod i f

def Submission.restores (sub : Submission) : Prop :=
  ∃ call i f, sub.call = some call ∧ Restoring call i f

-- The calls of the deployer; `requeues` are the jobs that it may put back.
inductive Asks (requeues : String → Prop) : Recovery.Call → Prop
  | claim (input : ClaimJob) (now : Time) : Asks requeues (.claimJob true input now)
  | track (input : TrackJob) (now : Time)
      (hrequeues : input.status = some .pending → requeues input.id) :
    Asks requeues (.trackJob true input now)
  | deployed (address chainId : String) (now : Time) :
    Asks requeues (.elsewhere ⟨.markWalletDeployed address chainId, now, now⟩)

/-- One thing that happens; `starts` are the jobs whose restore the deployer may start. -/
inductive Happens (cfg : Config) (script : Nat → Turn Other Info)
    (starts requeues : String → Prop) :
    Waiting (World env contract s₀) → Waiting (World env contract s₀) → Prop
  | others {w : World env contract s₀} {n turn : Nat} {other : Other}
      (hother : other ∈ (script n).others) :
    Happens cfg script starts requeues ⟨w, turn⟩ ⟨w.apply cfg other, turn⟩
  | turn {w : World env contract s₀} {turn : Nat} (n : Nat) :
    Happens cfg script starts requeues ⟨w, turn⟩ ⟨w, n⟩
  | asks {w : World env contract s₀} {turn : Nat} {call : Recovery.Call}
      (hcall : Asks requeues call) :
    Happens cfg script starts requeues ⟨w, turn⟩ ⟨w.serve call, turn⟩
  | sends {w : World env contract s₀} {turn : Nat} {sub : Submission}
      (hreceipt : sub.receipt = none) (hother : ¬ sub.restores) :
    Happens cfg script starts requeues ⟨w, turn⟩ ⟨w.submit sub, turn⟩
  | restores {w : World env contract s₀} {turn : Nat} {job : Job} {i : Bytes32} {f : MethodFields}
      (hstarts : starts job.id) (htargets : Targets w job i f) :
    Happens cfg script starts requeues ⟨w, turn⟩
      ⟨w.submit ⟨job.id, some (.initiateRestore i f), none⟩, turn⟩

abbrev Reaches (cfg : Config) (script : Nat → Turn Other Info)
    (starts requeues : String → Prop) :
    Waiting (World env contract s₀) → Waiting (World env contract s₀) → Prop :=
  ReflTransGen (Happens cfg script starts requeues)

variable {starts requeues : String → Prop} {v v' : Waiting (World env contract s₀)}

/-- What everything that happens keeps is kept throughout. -/
theorem Reaches.invariant {I : World env contract s₀ → Prop}
    (hstep : ∀ v v', I v.state → Happens cfg script starts requeues v v' → I v'.state)
    (h : Reaches cfg script starts requeues v v') (hv : I v.state) : I v'.state := by
  induction h with
  | refl => exact hv
  | tail _ hlast ih => exact hstep _ _ ih hlast

theorem Asks.mono {requeues' : String → Prop} {call : Recovery.Call}
    (hrequeues : ∀ id, requeues id → requeues' id) (h : Asks requeues call) :
    Asks requeues' call := by
  cases h with
  | claim input now => exact .claim input now
  | track input now hpending => exact .track input now fun h => hrequeues _ (hpending h)
  | deployed address chainId now => exact .deployed address chainId now

theorem Happens.mono {starts' requeues' : String → Prop} (hstarts : ∀ id, starts id → starts' id)
    (hrequeues : ∀ id, requeues id → requeues' id) (h : Happens cfg script starts requeues v v') :
    Happens cfg script starts' requeues' v v' := by
  cases h with
  | others hother => exact .others hother
  | turn n => exact .turn n
  | asks hcall => exact .asks (hcall.mono hrequeues)
  | sends hreceipt hother => exact .sends hreceipt hother
  | restores hstart htargets => exact .restores (hstarts _ hstart) htargets

theorem Reaches.mono {starts' requeues' : String → Prop} (hstarts : ∀ id, starts id → starts' id)
    (hrequeues : ∀ id, requeues id → requeues' id) (h : Reaches cfg script starts requeues v v') :
    Reaches cfg script starts' requeues' v v' :=
  ReflTransGen.mono (fun _ _ hstep => hstep.mono hstarts hrequeues) _ _ h

/-! ## What only grows -/

@[simp] theorem calls_submit (w : World env contract s₀) (sub : Submission) :
    (w.submit sub).calls = w.calls := rfl

@[simp] theorem calls_mine (w : World env contract s₀) (tx : Tx IdentityStore.Call) :
    (w.mine tx).calls = w.calls := rfl

@[simp] theorem calls_receive (w : World env contract s₀) (n : Nat) (b : Bool) :
    (w.receive n b).calls = w.calls := rfl

theorem calls_apply (w : World env contract s₀) (other : Other) :
    w.calls <+: (w.apply cfg other).calls := by
  cases other with
  | calls call => exact List.prefix_append ..
  | transacts tx => exact List.prefix_rfl
  | includes n timestamp succeeded =>
    unfold World.apply
    dsimp only
    split
    · exact List.prefix_rfl
    · unfold World.confirm
      split <;> exact List.prefix_rfl

theorem Reaches.calls (h : Reaches cfg script starts requeues v v') :
    v.state.calls <+: v'.state.calls := by
  apply h.invariant (I := fun w => v.state.calls <+: w.calls) _ List.prefix_rfl
  intro a b ha hstep
  cases hstep with
  | others hother => exact ha.trans (calls_apply _ _)
  | turn n => exact ha
  | asks hcall => exact ha.trans (List.prefix_append ..)
  | sends hreceipt hother => exact ha
  | restores hstarts htargets => exact ha

/-! ## Turns -/

theorem reaches_others {n turn : Nat} {others : List Other}
    (h : ∀ other ∈ others, other ∈ (script n).others) (w : World env contract s₀) :
    Reaches cfg script starts requeues ⟨w, turn⟩ ⟨others.foldl (World.apply cfg) w, turn⟩ := by
  induction others generalizing w with
  | nil => exact .refl
  | cons other others ih =>
    rw [List.foldl_cons]
    have hhead : Reaches cfg script starts requeues ⟨w, turn⟩ ⟨w.apply cfg other, turn⟩ :=
      .single (.others (h other (List.mem_cons_self ..)))
    exact hhead.trans (ih (fun o ho => h o (List.mem_cons_of_mem other ho)) _)

theorem reaches_afterWait (v : Waiting (World env contract s₀)) :
    Reaches cfg script starts requeues v (afterWait (World.apply cfg) script v) :=
  .tail (reaches_others (fun _ ho => ho) v.state) (.turn _)

end OnchainInvoice.WalletDeployer
