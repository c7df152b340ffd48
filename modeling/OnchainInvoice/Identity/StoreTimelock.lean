import OnchainInvoice.Identity.Effects

/-!
# The `IdentityStoreTimelock` contract

The owner of an `IdentityStore` that changes the recovery operator and the restore delay only a
delay after its proposer has scheduled the change.  The two parameters are scheduled and executed in
the same way, each in a slot of its own.
-/

namespace OnchainInvoice.IdentityStoreTimelock

open Evm Lib.Revert Lib.Runs

-- The errors of the contract, and those that the store reverts with.
inductive Error
  | notProposer | zeroAddress | invalidThreshold | timelockNotScheduled | timelockNotReady | panic
  | store (e : IdentityTypes.Error)
deriving DecidableEq

-- `pendingOperator`, `operatorReadyAt` and `operatorPending`, or the same three for the delay
structure Slot (α : Type) where
  value : α
  readyAt : Uint64
  pending : Bool
deriving DecidableEq

structure State where
  proposer : Address
  delay : Uint64
  operator : Slot Address
  restoreDelay : Slot Uint64
deriving DecidableEq

def deployed (proposer : Address) (delay : Uint64) : State :=
  ⟨proposer, delay, ⟨0, 0, false⟩, ⟨0, 0, false⟩⟩

-- The constructor.
def deploy (store proposer : Address) (delay : Uint64) : Except Error State := do
  revertIf (store == 0 || proposer == 0) .zeroAddress
  revertIf (delay == 0) .invalidThreshold
  return deployed proposer delay

/-! ## Slots -/

def onlyProposer (s : State) (sender : Address) : Except Error Unit :=
  revertIf (sender != s.proposer) .notProposer

def schedule {α : Type} (s : State) (timestamp : Uint256) (next : α) :
    Except Error (Slot α) := do
  let readyAt ← checkedAdd .panic (uint64 timestamp) s.delay
  return ⟨next, readyAt, true⟩

variable {α : Type} [DecidableEq α]

def Slot.execute (slot : Slot α) (timestamp : Uint256) (next : α) : Except Error (Slot α) := do
  revertIf (!slot.pending || slot.value != next) .timelockNotScheduled
  revertIf (timestamp.toNat < slot.readyAt.toNat) .timelockNotReady
  return { slot with pending := false }

/-! ## Functions -/

-- The store that the calls go to, and the address of the contract.
structure Env where
  store : IdentityStore.Env
  this : Address

structure System where
  timelock : State
  store : IdentityStore.State

variable (env : Env) (w : System)

def callStore {β : Type} : Except IdentityTypes.Error β → Except Error β := Except.mapError .store

def setProposer (sender next : Address) : Except Error System := do
  onlyProposer w.timelock sender
  revertIf (next == 0) .zeroAddress
  return { w with timelock := { w.timelock with proposer := next } }

def scheduleRecoveryOperator (sender : Address) (timestamp : Uint256) (next : Address) :
    Except Error System := do
  onlyProposer w.timelock sender
  let operator ← schedule w.timelock timestamp next
  return { w with timelock := { w.timelock with operator := operator } }

def executeRecoveryOperator (timestamp : Uint256) (next : Address) : Except Error System := do
  let operator ← w.timelock.operator.execute timestamp next
  let store ← callStore (IdentityStore.setRecoveryOperator w.store env.this next)
  return ⟨{ w.timelock with operator := operator }, store⟩

def scheduleRestoreDelay (sender : Address) (timestamp : Uint256) (next : Uint64) :
    Except Error System := do
  onlyProposer w.timelock sender
  let restoreDelay ← schedule w.timelock timestamp next
  return { w with timelock := { w.timelock with restoreDelay := restoreDelay } }

def executeRestoreDelay (timestamp : Uint256) (next : Uint64) : Except Error System := do
  let restoreDelay ← w.timelock.restoreDelay.execute timestamp next
  let store ← callStore (IdentityStore.setRestoreDelay w.store env.this next)
  return ⟨{ w.timelock with restoreDelay := restoreDelay }, store⟩

/-! ## Transactions -/

inductive Call
  | setProposer (next : Address)
  | scheduleRecoveryOperator (next : Address)
  | executeRecoveryOperator (next : Address)
  | scheduleRestoreDelay (next : Uint64)
  | executeRestoreDelay (next : Uint64)
  | store (call : IdentityStore.Call)
deriving DecidableEq

def step (tx : Tx Call) : Except Error System :=
  match tx.call with
  | .setProposer next => setProposer w tx.sender next
  | .scheduleRecoveryOperator next => scheduleRecoveryOperator w tx.sender tx.timestamp next
  | .executeRecoveryOperator next => executeRecoveryOperator env w tx.timestamp next
  | .scheduleRestoreDelay next => scheduleRestoreDelay w tx.sender tx.timestamp next
  | .executeRestoreDelay next => executeRestoreDelay env w tx.timestamp next
  | .store call => do
    let store ← callStore (IdentityStore.step env.store w.store ⟨tx.sender, tx.timestamp, call⟩)
    return { w with store := store }

-- The contract calls the store in its own functions only.
def SentByOthers (tx : Tx Call) : Prop := ∀ call, tx.call = .store call → tx.sender ≠ env.this

/-! ## What a transaction does -/

-- What scheduling a value leaves in a slot.
def Slot.scheduled {α : Type} (s : State) (timestamp : Uint256) (next : α) : Slot α :=
  ⟨next, uint64 timestamp + s.delay, true⟩

-- The checks of scheduling.
structure CanSchedule (s : State) (tx : Tx Call) : Prop where
  sender : tx.sender = s.proposer
  noOverflow : (uint64 tx.timestamp).toNat + s.delay.toNat < 2 ^ 64

-- The checks of executing the value of a slot.
structure CanExecute {α : Type} (slot : Slot α) (tx : Tx Call) (next : α) : Prop where
  pending : slot.pending = true
  value : slot.value = next
  ready : slot.readyAt.toNat ≤ tx.timestamp.toNat

def Slot.executed {α : Type} (slot : Slot α) : Slot α := { slot with pending := false }

inductive Effect (env : Env) (w : System) (tx : Tx Call) : System → Prop
  | setProposer (next : Address) (hcall : tx.call = .setProposer next) :
      Effect env w tx { w with timelock := { w.timelock with proposer := next } }
  | scheduleRecoveryOperator (next : Address) (hcall : tx.call = .scheduleRecoveryOperator next)
      (hcan : CanSchedule w.timelock tx) : Effect env w tx { w with timelock :=
        { w.timelock with operator := .scheduled w.timelock tx.timestamp next } }
  | executeRecoveryOperator (next : Address) (hcall : tx.call = .executeRecoveryOperator next)
      (hcan : CanExecute w.timelock.operator tx next) : Effect env w tx
        ⟨{ w.timelock with operator := w.timelock.operator.executed },
          { w.store with recoveryOperator := next }⟩
  | scheduleRestoreDelay (next : Uint64) (hcall : tx.call = .scheduleRestoreDelay next)
      (hcan : CanSchedule w.timelock tx) : Effect env w tx { w with timelock :=
        { w.timelock with restoreDelay := .scheduled w.timelock tx.timestamp next } }
  | executeRestoreDelay (next : Uint64) (hcall : tx.call = .executeRestoreDelay next)
      (hcan : CanExecute w.timelock.restoreDelay tx next) : Effect env w tx
        ⟨{ w.timelock with restoreDelay := w.timelock.restoreDelay.executed },
          { w.store with restoreDelay := next }⟩
  | store (call : IdentityStore.Call) (store : IdentityStore.State) (hcall : tx.call = .store call)
      (hstep : IdentityStore.step env.store w.store ⟨tx.sender, tx.timestamp, call⟩ = .ok store) :
      Effect env w tx { w with store := store }

variable {env w} {w' : System} {tx : Tx Call} {s : State} {sender : Address} {timestamp : Uint256}
  {next : α}

theorem callStore_eq_ok {β : Type} {x : Except IdentityTypes.Error β} {r : β} :
    callStore x = .ok r ↔ x = .ok r := by
  unfold callStore
  cases x <;> simp [Except.mapError]

theorem schedule_eq_ok {α : Type} {next : α} {slot : Slot α} :
    schedule s timestamp next = .ok slot ↔
      (uint64 timestamp).toNat + s.delay.toNat < 2 ^ 64 ∧ slot = .scheduled s timestamp next := by
  unfold schedule Slot.scheduled
  simp only [bind_eq_ok, checkedAdd_eq_ok, pure_eq_ok]
  apply Iff.intro
  · rintro ⟨_, ⟨hfit, rfl⟩, rfl⟩
    exact ⟨hfit, rfl⟩
  · rintro ⟨hfit, rfl⟩
    exact ⟨_, ⟨hfit, rfl⟩, rfl⟩

theorem execute_eq_ok {slot slot' : Slot α} (h : slot.execute tx.timestamp next = .ok slot') :
    CanExecute slot tx next ∧ slot' = slot.executed := by
  unfold Slot.execute at h
  simp only [bind_eq_ok, revertIf_eq_ok, pure_eq_ok, exists_const, Bool.or_eq_false_iff,
    Bool.not_eq_false', bne_eq_false_iff_eq, decide_eq_false_iff_not, not_lt] at h
  rcases h with ⟨⟨hpending, hvalue⟩, hready, rfl⟩
  exact ⟨⟨hpending, hvalue, hready⟩, rfl⟩

theorem onlyProposer_eq_ok {u : Unit} : onlyProposer s sender = .ok u ↔ sender = s.proposer := by
  unfold onlyProposer
  rw [revertIf_eq_ok, bne_eq_false_iff_eq]

theorem step_effect (h : step env w tx = .ok w') : Effect env w tx w' := by
  unfold step at h
  split at h
  · next next hcall =>
    unfold setProposer at h
    simp only [bind_eq_ok, pure_eq_ok] at h
    rcases h with ⟨-, -, -, -, rfl⟩
    exact .setProposer next hcall
  · next next hcall =>
    unfold scheduleRecoveryOperator at h
    simp only [bind_eq_ok, onlyProposer_eq_ok, schedule_eq_ok, pure_eq_ok] at h
    rcases h with ⟨-, hsender, _, ⟨hfit, rfl⟩, rfl⟩
    exact .scheduleRecoveryOperator next hcall ⟨hsender, hfit⟩
  · next next hcall =>
    unfold executeRecoveryOperator IdentityStore.setRecoveryOperator at h
    simp only [bind_eq_ok, callStore_eq_ok, pure_eq_ok] at h
    rcases h with ⟨_, hexecute, _, ⟨-, -, rfl⟩, rfl⟩
    rcases execute_eq_ok hexecute with ⟨hcan, rfl⟩
    exact .executeRecoveryOperator next hcall hcan
  · next next hcall =>
    unfold scheduleRestoreDelay at h
    simp only [bind_eq_ok, onlyProposer_eq_ok, schedule_eq_ok, pure_eq_ok] at h
    rcases h with ⟨-, hsender, _, ⟨hfit, rfl⟩, rfl⟩
    exact .scheduleRestoreDelay next hcall ⟨hsender, hfit⟩
  · next next hcall =>
    unfold executeRestoreDelay IdentityStore.setRestoreDelay at h
    simp only [bind_eq_ok, callStore_eq_ok, pure_eq_ok] at h
    rcases h with ⟨_, hexecute, _, ⟨-, -, rfl⟩, rfl⟩
    rcases execute_eq_ok hexecute with ⟨hcan, rfl⟩
    exact .executeRestoreDelay next hcall hcan
  · next call hcall =>
    simp only [bind_eq_ok, callStore_eq_ok, pure_eq_ok] at h
    rcases h with ⟨store, hstep, rfl⟩
    exact .store call store hcall hstep

-- A store that another owns keeps its parameters and its owner.
theorem store_step {store store' : IdentityStore.State} {tx : Tx IdentityStore.Call}
    (h : IdentityStore.step env.store store tx = .ok store') (hsender : tx.sender ≠ store.owner) :
    store'.owner = store.owner ∧ store'.recoveryOperator = store.recoveryOperator ∧
      store'.restoreDelay = store.restoreDelay := by
  cases IdentityStore.step_effect h with
  | configure owner recoveryOperator restoreDelay hcall howner => exact absurd howner hsender
  | disableRestore identityId =>
    unfold IdentityStore.restoreDisabled
    split
    · exact ⟨rfl, rfl, rfl⟩
    · exact ⟨rfl, rfl, rfl⟩
  | _ => exact ⟨rfl, rfl, rfl⟩

/-! ## Parameters -/

structure Parameter (α : Type) where
  slot : State → Slot α
  value : IdentityStore.State → α
  schedule : α → Call
  execute : α → Call

def operator : Parameter Address where
  slot := State.operator
  value := IdentityStore.State.recoveryOperator
  schedule := .scheduleRecoveryOperator
  execute := .executeRecoveryOperator

def restoreDelay : Parameter Uint64 where
  slot := State.restoreDelay
  value := IdentityStore.State.restoreDelay
  schedule := .scheduleRestoreDelay
  execute := .executeRestoreDelay

/-- What a transaction does to one parameter. -/
inductive Parameter.Effect {α : Type} (P : Parameter α) (env : Env) (w : System) (tx : Tx Call)
    (w' : System) : Prop
  | schedule (next : α) (hcall : tx.call = P.schedule next) (hcan : CanSchedule w.timelock tx)
      (hslot : P.slot w'.timelock = .scheduled w.timelock tx.timestamp next)
      (hvalue : P.value w'.store = P.value w.store)
  | execute (next : α) (hcall : tx.call = P.execute next)
      (hcan : CanExecute (P.slot w.timelock) tx next)
      (hslot : P.slot w'.timelock = (P.slot w.timelock).executed)
      (hvalue : P.value w'.store = next)
  | other (hschedule : ∀ next, tx.call ≠ P.schedule next)
      (hexecute : ∀ next, tx.call ≠ P.execute next)
      (hslot : P.slot w'.timelock = P.slot w.timelock)
      (hvalue : w.store.owner = env.this → P.value w'.store = P.value w.store)

/-- The calls of the parameter, and no others, write its slot and change its value. -/
structure Parameter.Lawful {α : Type} (P : Parameter α) : Prop where
  effect : ∀ env w tx w', step env w tx = .ok w' → SentByOthers env tx → P.Effect env w tx w'
  execute_inj : ∀ v v', P.execute v = P.execute v' → v = v'
  distinct : ∀ v v', P.execute v ≠ P.schedule v'
  idle : ∀ proposer delay, (P.slot (deployed proposer delay)).pending = false

theorem operator_lawful : operator.Lawful := by
  apply Parameter.Lawful.mk
  · intro env w tx w' h hsent
    cases step_effect h with
    | scheduleRecoveryOperator next hcall hcan => exact .schedule next hcall hcan rfl rfl
    | executeRecoveryOperator next hcall hcan => exact .execute next hcall hcan rfl rfl
    | store call store hcall hstep =>
      refine .other (fun v hv => ?_) (fun v hv => ?_) rfl ?_
      · cases hcall.symm.trans hv
      · cases hcall.symm.trans hv
      · intro howner
        exact (store_step hstep (howner ▸ hsent call hcall)).2.1
    | setProposer next hcall | scheduleRestoreDelay next hcall | executeRestoreDelay next hcall =>
      refine .other (fun v hv => ?_) (fun v hv => ?_) rfl (fun _ => rfl)
      · cases hcall.symm.trans hv
      · cases hcall.symm.trans hv
  · intro v v' h
    cases h
    rfl
  · intro v v' h
    cases h
  · intro proposer delay
    rfl

theorem restoreDelay_lawful : restoreDelay.Lawful := by
  apply Parameter.Lawful.mk
  · intro env w tx w' h hsent
    cases step_effect h with
    | scheduleRestoreDelay next hcall hcan => exact .schedule next hcall hcan rfl rfl
    | executeRestoreDelay next hcall hcan => exact .execute next hcall hcan rfl rfl
    | store call store hcall hstep =>
      refine .other (fun v hv => ?_) (fun v hv => ?_) rfl ?_
      · cases hcall.symm.trans hv
      · cases hcall.symm.trans hv
      · intro howner
        exact (store_step hstep (howner ▸ hsent call hcall)).2.2
    | setProposer next hcall | scheduleRecoveryOperator next hcall
      | executeRecoveryOperator next hcall =>
      refine .other (fun v hv => ?_) (fun v hv => ?_) rfl (fun _ => rfl)
      · cases hcall.symm.trans hv
      · cases hcall.symm.trans hv
  · intro v v' h
    cases h
    rfl
  · intro v v' h
    cases h
  · intro proposer delay
    rfl

theorem delay_of_step (h : step env w tx = .ok w') : w'.timelock.delay = w.timelock.delay := by
  cases step_effect h <;> rfl

end OnchainInvoice.IdentityStoreTimelock
