import OnchainInvoice.Identity.Effects

/-!
# What the `IdentityStore` operations leave alone

The flags, counters and pending restores of an identity after each change that does not aim at them.
-/

namespace OnchainInvoice.IdentityStore

open Evm IdentityTypes Function

variable {env : Env} {s s' : State} {tx : Tx Call} {i : Bytes32}

def IsKind (kind : Uint8) : Prop :=
  kind = METHOD_WEBAUTHN ∨ kind = METHOD_YUBIKEY ∨ kind = METHOD_EOA

/-! ## Counters -/

section Counters

variable (idn : Identity) (kind count : Uint8)

@[simp] theorem setKindCount_exists_ : (Identity.setKindCount idn kind count).exists_ = idn.exists_ := by
  unfold Identity.setKindCount
  split_ifs <;> rfl

@[simp] theorem setKindCount_restoreEnabled :
    (Identity.setKindCount idn kind count).restoreEnabled = idn.restoreEnabled := by
  unfold Identity.setKindCount
  split_ifs <;> rfl

@[simp] theorem setKindCount_methodCount :
    (Identity.setKindCount idn kind count).methodCount = idn.methodCount := by
  unfold Identity.setKindCount
  split_ifs <;> rfl

variable {kind} in
theorem kindCount_setKindCount {kind' : Uint8} (hk : IsKind kind) (hk' : IsKind kind') :
    Identity.kindCount (Identity.setKindCount idn kind count) kind' =
      if kind' = kind then count else Identity.kindCount idn kind' := by
  rcases hk with rfl | rfl | rfl <;> rcases hk' with rfl | rfl | rfl <;> rfl

variable {kind} in
theorem kindCount_countAdded {kind' : Uint8} (hk : IsKind kind) (hk' : IsKind kind') :
    Identity.kindCount (countAdded idn kind) kind' =
      if kind' = kind then Identity.kindCount idn kind + 1 else Identity.kindCount idn kind' := by
  unfold countAdded
  rw [kindCount_setKindCount _ _ hk hk']
  rfl

variable {kind} in
theorem kindCount_countRemoved {kind' : Uint8} (hk : IsKind kind) (hk' : IsKind kind') :
    Identity.kindCount (countRemoved idn kind) kind' =
      if kind' = kind then Identity.kindCount idn kind - 1 else Identity.kindCount idn kind' := by
  unfold countRemoved
  rw [kindCount_setKindCount _ _ hk hk']
  rfl

end Counters

/-! ## Flags and pending restores -/

section Frames

variable (env s) (i j qx qy : Bytes32) (f : MethodFields)

@[simp] theorem added_exists_ :
    ((added env s i f).identities j).exists_ = (s.identities j).exists_ := by
  simp only [added, storeMethod, update_apply]
  split_ifs with hj
  · simp [hj, countAdded]
  · rfl

@[simp] theorem added_restoreEnabled :
    ((added env s i f).identities j).restoreEnabled = (s.identities j).restoreEnabled := by
  simp only [added, storeMethod, update_apply]
  split_ifs with hj
  · simp [hj, countAdded]
  · rfl

@[simp] theorem removed_exists_ :
    ((removed s i qx).identities j).exists_ = (s.identities j).exists_ := by
  simp only [removed, update_apply]
  split_ifs with hj
  · simp [hj, countRemoved]
  · rfl

@[simp] theorem removed_restoreEnabled :
    ((removed s i qx).identities j).restoreEnabled = (s.identities j).restoreEnabled := by
  simp only [removed, update_apply]
  split_ifs with hj
  · simp [hj, countRemoved]
  · rfl

@[simp] theorem added_pendingRestores : (added env s i f).pendingRestores = s.pendingRestores := rfl

@[simp] theorem removed_pendingRestores : (removed s i qx).pendingRestores = s.pendingRestores := rfl

@[simp] theorem registered_pendingRestores :
    (registered env s i qx qy).pendingRestores = s.pendingRestores := rfl

@[simp] theorem clearPending_self : ((clearPending s i).pendingRestores i).active = false := by
  simp [clearPending, PendingRestore.zero]

variable {i j} in
theorem clearPending_of_ne (h : j ≠ i) :
    (clearPending s i).pendingRestores j = s.pendingRestores j := by
  simp [clearPending, update_of_ne h]

@[simp] theorem restoreDisabled_self :
    ((restoreDisabled s i).pendingRestores i).active = false := by
  unfold restoreDisabled
  split_ifs with hactive
  · exact clearPending_self _ i
  · exact Bool.eq_false_iff.mpr hactive

variable {i j} in
theorem restoreDisabled_of_ne (h : j ≠ i) :
    (restoreDisabled s i).pendingRestores j = s.pendingRestores j := by
  unfold restoreDisabled
  split_ifs
  · exact clearPending_of_ne _ h
  · rfl

theorem restoreDisabled_identities :
    (restoreDisabled s i).identities =
      update s.identities i { s.identities i with restoreEnabled := false } := by
  unfold restoreDisabled
  split_ifs <;> rfl

@[simp] theorem restoreDisabled_methods : (restoreDisabled s i).methods = s.methods := by
  unfold restoreDisabled
  split_ifs <;> rfl

@[simp] theorem restoreDisabled_methodIds : (restoreDisabled s i).methodIds = s.methodIds := by
  unfold restoreDisabled
  split_ifs <;> rfl

end Frames

/-! ## One transaction -/

-- No step deletes an identity.
theorem Effect.keeps_exists (he : Effect env s tx s') (h : (s.identities i).exists_ = true) :
    (s'.identities i).exists_ = true := by
  cases he with
  | register j qx qy hcall hid hnew hkey =>
    by_cases hij : i = j
    · simp [registered, storeMethod, hij]
    · simpa [registered, storeMethod, update_of_ne hij] using h
  | disableRestore j hcall hexists henabled heoa =>
    rw [restoreDisabled_identities]
    by_cases hij : i = j
    · simp [hij, hexists]
    · rwa [update_of_ne hij]
  | addMethod j f authorization hcall hverify hcan => simpa using h
  | addMethodByEoa j f hcall heoa hcan => simpa using h
  | removeMethod j id' authorization hcall hlive hmember hcount hkind hverify => simpa using h
  | initiateRestore j f hcall hcan => exact h
  | restoreAddMethod j f hcall hdelay hinit hcan => simpa [clearPending] using h
  | cancelRestore j authorization hcall hactive hverify => exact h
  | executeRestore j hcall hready hcan => simpa [clearPending] using h
  | configure owner recoveryOperator restoreDelay hcall howner => exact h

end OnchainInvoice.IdentityStore
