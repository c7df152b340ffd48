import Mathlib.Data.Set.Card
import OnchainInvoice.Identity.Frames

/-!
# The representation invariant of `IdentityStore`

`Registry` ties the id lists, the counters and the method mapping together; `PendingSound` ties the
pending restores to the identities.  Both are kept by every effect.  Method ids are hashes, so the
registry is kept as long as the hash has no collision among the method fields of the run.
-/

namespace OnchainInvoice.IdentityStore

open Evm IdentityTypes Lib.Runs Lib.SwapPop Function

variable {env : Env} {s s' : State}

/-! ## The invariant -/

structure Registry (env : Env) (inputs : List Bytes) (s : State) : Prop where
  listed : ∀ i id, id ∈ s.methodIds i ↔
    (s.methods id).exists_ = true ∧ (s.methods id).identityId = i
  nodup : ∀ i, (s.methodIds i).Nodup
  sits : ∀ id, (s.methods id).exists_ = true →
    id = computeMethodId env.crypto (s.methods id).identityId (s.methods id).toMethodFields
  hashed : ∀ id, (s.methods id).exists_ = true →
    methodIdPreimage (s.methods id).identityId (s.methods id).toMethodFields ∈ inputs
  valid : ∀ id, (s.methods id).exists_ = true → ValidFields (s.methods id).toMethodFields
  counts : ∀ i kind, IsKind kind → (Identity.kindCount (s.identities i) kind).toNat =
    (s.methodIds i).countP (fun id ↦ (s.methods id).kind == kind)
  total : ∀ i, (s.identities i).methodCount.toNat = (s.methodIds i).length
  present : ∀ i, (s.identities i).exists_ = true →
    1 ≤ (s.methodIds i).length ∧ (s.methodIds i).length ≤ 32
  absent : ∀ i, (s.identities i).exists_ = false → s.methodIds i = []
  zero : (s.identities 0).exists_ = false

structure PendingSound (inputs : List Bytes) (s : State) : Prop where
  exists_ : ∀ i, (s.pendingRestores i).active = true → (s.identities i).exists_ = true
  enabled : ∀ i, (s.pendingRestores i).active = true → (s.identities i).restoreEnabled = true
  valid : ∀ i, (s.pendingRestores i).active = true →
    ValidFields (s.pendingRestores i).toMethodFields
  hashed : ∀ i, (s.pendingRestores i).active = true →
    methodIdPreimage i (s.pendingRestores i).toMethodFields ∈ inputs

-- A live method belongs to an identity that exists.
theorem Registry.exists_of_live {inputs : List Bytes} (h : Registry env inputs s) {id : Bytes32}
    (hlive : (s.methods id).exists_ = true) :
    (s.identities (s.methods id).identityId).exists_ = true := by
  by_contra hno
  have hnil := h.absent _ (Bool.eq_false_iff.mpr hno)
  have hmem := (h.listed (s.methods id).identityId id).mpr ⟨hlive, rfl⟩
  rw [hnil] at hmem
  exact List.not_mem_nil hmem

-- The ids of an identity that does not exist have never been used.
theorem Registry.fresh_of_absent {inputs : List Bytes} (h : Registry env inputs s)
    (hcf : env.crypto.CollisionFree inputs) {i : Bytes32} {f : MethodFields}
    (hin : methodIdPreimage i f ∈ inputs) (hno : (s.identities i).exists_ = false) :
    (s.methods (computeMethodId env.crypto i f)).exists_ = false := by
  by_contra hlive
  have hlive := Bool.not_eq_false _ ▸ hlive
  have heq := hcf _ hin _ (h.hashed _ hlive) (h.sits _ hlive)
  have hi := (methodIdPreimage_inj.mp heq).1
  have hexists := h.exists_of_live hlive
  rw [← hi, hno] at hexists
  exact Bool.false_ne_true hexists

/-- The ids that a write leaves alone keep their kinds. -/
theorem countP_kind_update {ids : List Bytes32} {id : Bytes32} (hids : id ∉ ids)
    (methods : Bytes32 → Method) (m : Method) (kind : Uint8) :
    ids.countP (fun x ↦ (update methods id m x).kind == kind) =
      ids.countP (fun x ↦ (methods x).kind == kind) := by
  apply List.countP_congr
  intro x hx
  have hxid : x ≠ id := ne_of_mem_of_not_mem hx hids
  rw [update_of_ne hxid]

/-- Storing a fresh method keeps the registry when the identity's record counts one more. -/
theorem Registry.stored {inputs : List Bytes} (h : Registry env inputs s) {i : Bytes32}
    {f : MethodFields} {idn : Identity} (hi : i ≠ 0)
    (hfresh : (s.methods (computeMethodId env.crypto i f)).exists_ = false)
    (hvalid : ValidFields f) (hin : methodIdPreimage i f ∈ inputs) (hexists : idn.exists_ = true)
    (hroom : (s.identities i).methodCount.toNat < 32)
    (htotal : idn.methodCount.toNat = (s.identities i).methodCount.toNat + 1)
    (hcounts : ∀ kind, IsKind kind → (Identity.kindCount idn kind).toNat =
      (Identity.kindCount (s.identities i) kind).toNat + if f.kind = kind then 1 else 0) :
    Registry env inputs (storeMethod { s with identities := update s.identities i idn }
      (computeMethodId env.crypto i f) i f) := by
  have hnotin : ∀ j, computeMethodId env.crypto i f ∉ s.methodIds j := by
    intro j hmem
    have hlive := ((h.listed j _).mp hmem).1
    rw [hfresh] at hlive
    exact Bool.false_ne_true hlive
  constructor
  case listed =>
    intro j id
    simp only [storeMethod, update_apply]
    by_cases hid : id = computeMethodId env.crypto i f
    · subst hid
      by_cases hj : j = i
      · simp [hj]
      · simp [hj, hnotin j, Ne.symm hj]
    · by_cases hj : j = i
      · subst hj
        simp [hid, h.listed]
      · simp [hid, hj, h.listed]
  case nodup =>
    intro j
    simp only [storeMethod, update_apply]
    split_ifs with hj
    · subst hj
      simpa using (h.nodup j).concat (hnotin j)
    · exact h.nodup j
  case sits =>
    intro id
    simp only [storeMethod, update_apply]
    split_ifs with hid
    · intro _
      exact hid
    · exact h.sits id
  case hashed =>
    intro id
    simp only [storeMethod, update_apply]
    split_ifs with hid
    · intro _
      exact hin
    · exact h.hashed id
  case valid =>
    intro id
    simp only [storeMethod, update_apply]
    split_ifs with hid
    · intro _
      exact hvalid
    · exact h.valid id
  case counts =>
    intro j kind hkind
    by_cases hj : j = i
    · subst hj
      simp only [storeMethod, update_self]
      rw [hcounts kind hkind, h.counts j kind hkind, List.countP_append,
        countP_kind_update (hnotin j)]
      simp [List.countP_cons]
    · simp only [storeMethod, update_of_ne hj]
      rw [h.counts j kind hkind, countP_kind_update (hnotin j)]
  case total =>
    intro j
    by_cases hj : j = i
    · subst hj
      simp [storeMethod, htotal, h.total]
    · simp [storeMethod, update_of_ne hj, h.total]
  case present =>
    intro j
    by_cases hj : j = i
    · subst hj
      intro _
      have hlen := h.total j
      simp only [storeMethod, update_self, List.length_append, List.length_singleton]
      omega
    · simpa [storeMethod, update_of_ne hj] using h.present j
  case absent =>
    intro j
    by_cases hj : j = i
    · subst hj
      simp [storeMethod, hexists]
    · simpa [storeMethod, update_of_ne hj] using h.absent j
  case zero =>
    show (update s.identities i idn 0).exists_ = false
    rw [update_of_ne hi.symm]
    exact h.zero

theorem Registry.added {inputs : List Bytes} (h : Registry env inputs s) {i : Bytes32}
    {f : MethodFields} (hcan : CanAdd env s i f) (hin : methodIdPreimage i f ∈ inputs) :
    Registry env inputs (added env s i f) := by
  have hi : i ≠ 0 := by
    intro hzero
    have hexists := hcan.exists_
    rw [hzero, h.zero] at hexists
    exact Bool.false_ne_true hexists
  have hroom := hcan.room
  refine h.stored hi hcan.fresh hcan.valid hin ?_ hroom ?_ ?_
  · simpa [countAdded] using hcan.exists_
  · rw [countAdded, setKindCount_methodCount, BitVec.toNat_add]
    show ((s.identities i).methodCount.toNat + 1) % 2 ^ 8 = _
    omega
  · intro kind hkind
    rw [kindCount_countAdded _ hcan.valid.kind_cases hkind]
    have hk := hcan.noOverflow
    by_cases heq : f.kind = kind
    · subst heq
      rw [if_pos rfl, if_pos rfl, BitVec.toNat_add]
      show ((Identity.kindCount (s.identities i) f.kind).toNat + 1) % 2 ^ 8 = _
      omega
    · rw [if_neg (Ne.symm heq), if_neg heq, Nat.add_zero]

theorem Registry.registered {inputs : List Bytes} (h : Registry env inputs s)
    (hcf : env.crypto.CollisionFree inputs) {i qx qy : Bytes32} (hi : i ≠ 0)
    (hnew : (s.identities i).exists_ = false) (hkey : ValidP256 qx qy)
    (hin : methodIdPreimage i (passkeyFields qx qy) ∈ inputs) :
    Registry env inputs (registered env s i qx qy) := by
  have hnil := h.absent i hnew
  have htotal := h.total i
  rw [hnil, List.length_nil] at htotal
  refine h.stored hi (h.fresh_of_absent hcf hin hnew) (.inr ⟨.inl rfl, rfl, hkey⟩) hin rfl
    (by omega) ?_ ?_
  · rw [htotal]
    rfl
  · intro kind hkind
    rw [h.counts i kind hkind, hnil, List.countP_nil]
    rcases hkind with rfl | rfl | rfl <;> rfl

theorem Registry.removed {inputs : List Bytes} (h : Registry env inputs s) {i id : Bytes32}
    (hlive : (s.methods id).exists_ = true) (hmember : (s.methods id).identityId = i)
    (hcount : 1 < (s.identities i).methodCount.toNat)
    (hkind : 1 ≤ (Identity.kindCount (s.identities i) (s.methods id).kind).toNat) :
    Registry env inputs (removed s i id) := by
  have hmem : id ∈ s.methodIds i := (h.listed i id).mpr ⟨hlive, hmember⟩
  have hexists : (s.identities i).exists_ = true := hmember ▸ h.exists_of_live hlive
  have hdead : ∀ x, (update s.methods id Method.zero x).exists_ = true →
      x ≠ id ∧ (s.methods x).exists_ = true := by
    intro x hx
    by_cases hxid : x = id
    · rw [hxid, update_self] at hx
      exact absurd hx (by decide)
    · rw [update_of_ne hxid] at hx
      exact ⟨hxid, hx⟩
  constructor
  case listed =>
    intro j x
    simp only [IdentityStore.removed, update_apply]
    by_cases hx : x = id
    · by_cases hj : j = i
      · subst hj
        simp [hx, mem_swapPop (h.nodup j), Method.zero]
      · have hout : id ∉ s.methodIds j := by
          rw [h.listed]
          intro hlisted
          exact hj (hlisted.2.symm.trans hmember)
        simp [hx, hj, hout, Method.zero]
    · by_cases hj : j = i
      · subst hj
        simp [hx, mem_swapPop (h.nodup j), h.listed]
      · simp [hx, hj, h.listed]
  case nodup =>
    intro j
    simp only [IdentityStore.removed, update_apply]
    split_ifs with hj
    · exact nodup_swapPop id (h.nodup i)
    · exact h.nodup j
  case sits =>
    intro x hx
    have hx := hdead x hx
    simpa [IdentityStore.removed, update_of_ne hx.1] using h.sits x hx.2
  case hashed =>
    intro x hx
    have hx := hdead x hx
    simpa [IdentityStore.removed, update_of_ne hx.1] using h.hashed x hx.2
  case valid =>
    intro x hx
    have hx := hdead x hx
    simpa [IdentityStore.removed, update_of_ne hx.1] using h.valid x hx.2
  case counts =>
    intro j kind hk
    have hvalid : IsKind (s.methods id).kind := (h.valid id hlive).kind_cases
    by_cases hj : j = i
    · subst hj
      have hgone : id ∉ swapPop (s.methodIds j) id := by simp [mem_swapPop (h.nodup j)]
      have hsplit := countP_swapPop (fun x ↦ (s.methods x).kind == kind) hmem
      have hcnt := h.counts j kind hk
      simp only [IdentityStore.removed, update_self]
      rw [countP_kind_update hgone, kindCount_countRemoved _ hvalid hk]
      by_cases heq : kind = (s.methods id).kind
      · subst heq
        simp only [beq_self_eq_true, if_true] at hsplit
        have hle : (1 : Uint8) ≤ Identity.kindCount (s.identities j) (s.methods id).kind :=
          BitVec.le_def.mpr hkind
        rw [if_pos rfl, BitVec.toNat_sub_of_le hle]
        show (Identity.kindCount (s.identities j) (s.methods id).kind).toNat - 1 = _
        omega
      · have hbeq : ((s.methods id).kind == kind) = false := beq_eq_false_iff_ne.mpr (Ne.symm heq)
        rw [hbeq, if_neg Bool.false_ne_true] at hsplit
        rw [if_neg heq]
        omega
    · have hout : id ∉ s.methodIds j := by
        rw [h.listed]
        intro hlisted
        exact hj (hlisted.2.symm.trans hmember)
      simp only [IdentityStore.removed, update_of_ne hj]
      rw [h.counts j kind hk, countP_kind_update hout]
  case total =>
    intro j
    by_cases hj : j = i
    · subst hj
      have htotal := h.total j
      have hle : (1 : Uint8) ≤ (s.identities j).methodCount := BitVec.le_def.mpr (by
        show 1 ≤ (s.identities j).methodCount.toNat
        omega)
      simp only [IdentityStore.removed, update_self, length_swapPop hmem, countRemoved,
        setKindCount_methodCount]
      rw [BitVec.toNat_sub_of_le hle]
      show (s.identities j).methodCount.toNat - 1 = _
      omega
    · simp [IdentityStore.removed, update_of_ne hj, h.total]
  case present =>
    intro j
    by_cases hj : j = i
    · subst hj
      intro _
      have htotal := h.total j
      have hbound := h.present j hexists
      simp only [IdentityStore.removed, update_self, length_swapPop hmem]
      omega
    · simpa [IdentityStore.removed, update_of_ne hj] using h.present j
  case absent =>
    intro j
    by_cases hj : j = i
    · subst hj
      simp [IdentityStore.removed, countRemoved, hexists]
    · simpa [IdentityStore.removed, update_of_ne hj] using h.absent j
  case zero =>
    have hi : i ≠ 0 := by
      intro hzero
      rw [hzero, h.zero] at hexists
      exact Bool.false_ne_true hexists
    show (update s.identities i _ 0).exists_ = false
    rw [update_of_ne hi.symm]
    exact h.zero

/-! ## Pending restores -/

-- The registry does not look at `restoreEnabled`.
theorem Registry.restoreDisabled {inputs : List Bytes} (h : Registry env inputs s) (i : Bytes32) :
    Registry env inputs (restoreDisabled s i) := by
  have hsame : ∀ j, ((IdentityStore.restoreDisabled s i).identities j).exists_ =
        (s.identities j).exists_ ∧
      ((IdentityStore.restoreDisabled s i).identities j).methodCount =
        (s.identities j).methodCount ∧
      ∀ kind, Identity.kindCount ((IdentityStore.restoreDisabled s i).identities j) kind =
        Identity.kindCount (s.identities j) kind := by
    intro j
    rw [restoreDisabled_identities]
    by_cases hj : j = i
    · subst hj
      rw [update_self]
      exact ⟨rfl, rfl, fun kind => rfl⟩
    · rw [update_of_ne hj]
      exact ⟨rfl, rfl, fun kind => rfl⟩
  constructor
  case listed => simpa using h.listed
  case nodup => simpa using h.nodup
  case sits => simpa using h.sits
  case hashed => simpa using h.hashed
  case valid => simpa using h.valid
  case counts =>
    intro j kind hkind
    rw [(hsame j).2.2, restoreDisabled_methodIds, restoreDisabled_methods]
    exact h.counts j kind hkind
  case total =>
    intro j
    rw [(hsame j).2.1, restoreDisabled_methodIds]
    exact h.total j
  case present =>
    intro j
    rw [(hsame j).1, restoreDisabled_methodIds]
    exact h.present j
  case absent =>
    intro j
    rw [(hsame j).1, restoreDisabled_methodIds]
    exact h.absent j
  case zero =>
    rw [(hsame 0).1]
    exact h.zero

-- Neither do the other changes of a pending restore touch it.
theorem Registry.of_pendingRestores {inputs : List Bytes} (h : Registry env inputs s)
    (pending : Bytes32 → PendingRestore) :
    Registry env inputs { s with pendingRestores := pending } :=
  ⟨h.listed, h.nodup, h.sits, h.hashed, h.valid, h.counts, h.total, h.present, h.absent, h.zero⟩

/-- A state change that keeps the flags of every identity and at most deletes pending restores. -/
theorem PendingSound.of_frame {inputs : List Bytes} (h : PendingSound inputs s)
    (hexists : ∀ i, (s.identities i).exists_ = true → (s'.identities i).exists_ = true)
    (henabled : ∀ i, (s'.pendingRestores i).active = true → (s.identities i).exists_ = true →
      (s.identities i).restoreEnabled = true → (s'.identities i).restoreEnabled = true)
    (hpending : ∀ i, (s'.pendingRestores i).active = true →
      s'.pendingRestores i = s.pendingRestores i) : PendingSound inputs s' := by
  have hactive : ∀ i, (s'.pendingRestores i).active = true →
      (s.pendingRestores i).active = true := fun i hi => hpending i hi ▸ hi
  constructor
  case exists_ => exact fun i hi => hexists i (h.exists_ i (hactive i hi))
  case enabled =>
    exact fun i hi => henabled i hi (h.exists_ i (hactive i hi)) (h.enabled i (hactive i hi))
  case valid => exact fun i hi => hpending i hi ▸ h.valid i (hactive i hi)
  case hashed => exact fun i hi => hpending i hi ▸ h.hashed i (hactive i hi)

theorem PendingSound.clearPending {inputs : List Bytes} (h : PendingSound inputs s) (i : Bytes32) :
    PendingSound inputs (clearPending s i) := by
  refine h.of_frame (fun j hj => hj) (fun j _ _ hj => hj) ?_
  intro j hactive
  by_cases hji : j = i
  · rw [hji, clearPending_self] at hactive
    exact absurd hactive Bool.false_ne_true
  · exact clearPending_of_ne s hji

/-! ## Every transaction keeps the invariant -/

-- The method fields a transaction hashes.
def hashedBy (tx : Tx Call) : List Bytes :=
  match tx.call with
  | .register identityId qx qy => [methodIdPreimage identityId (passkeyFields qx qy)]
  | .addMethod identityId f _ => [methodIdPreimage identityId f]
  | .addMethodByEoa identityId f =>
    [methodIdPreimage identityId f, methodIdPreimage identityId (eoaFields tx.sender)]
  | .disableRestore identityId => [methodIdPreimage identityId (eoaFields tx.sender)]
  | .restoreAddMethod identityId f => [methodIdPreimage identityId f]
  | .initiateRestore identityId f => [methodIdPreimage identityId f]
  | _ => []

structure Sound (env : Env) (inputs : List Bytes) (s : State) : Prop where
  registry : Registry env inputs s
  pending : PendingSound inputs s

-- Completing a restore deletes the record and adds its method.
theorem Sound.restored {inputs : List Bytes} (h : Sound env inputs s) {i : Bytes32}
    {f : MethodFields} (hcan : CanAdd env s i f) (hin : methodIdPreimage i f ∈ inputs) :
    Sound env inputs (added env (clearPending s i) i f) :=
  ⟨(h.registry.of_pendingRestores _).added (canAdd_clearPending.mpr hcan) hin,
    (h.pending.clearPending i).of_frame (by simp) (by simp) (by simp)⟩

theorem Sound.effect {inputs : List Bytes} {tx : Tx Call} (h : Sound env inputs s)
    (hcf : env.crypto.CollisionFree inputs) (hin : ∀ p ∈ hashedBy tx, p ∈ inputs)
    (he : Effect env s tx s') : Sound env inputs s' := by
  have hkeeps := fun j (hj : (s.identities j).exists_ = true) => he.keeps_exists hj
  cases he with
  | register i qx qy hcall hid hnew hkey =>
    have hmem := hin (methodIdPreimage i (passkeyFields qx qy)) (by simp [hashedBy, hcall])
    refine ⟨h.registry.registered hcf hid hnew hkey hmem, h.pending.of_frame hkeeps ?_ (by simp)⟩
    intro j _ _ hj
    by_cases hji : j = i
    · simp [registered, storeMethod, hji]
    · simpa [registered, storeMethod, update_of_ne hji] using hj
  | addMethod i f authorization hcall hverify hcan =>
    have hmem := hin (methodIdPreimage i f) (by simp [hashedBy, hcall])
    exact ⟨h.registry.added hcan hmem, h.pending.of_frame hkeeps (by simp) (by simp)⟩
  | addMethodByEoa i f hcall heoa hcan =>
    have hmem := hin (methodIdPreimage i f) (by simp [hashedBy, hcall])
    exact ⟨h.registry.added hcan hmem, h.pending.of_frame hkeeps (by simp) (by simp)⟩
  | removeMethod i id authorization hcall hlive hmember hcount hkind hverify =>
    exact ⟨h.registry.removed hlive hmember hcount hkind,
      h.pending.of_frame hkeeps (by simp) (by simp)⟩
  | disableRestore i hcall hexists henabled heoa =>
    refine ⟨h.registry.restoreDisabled i, h.pending.of_frame hkeeps ?_ ?_⟩
    · intro j hactive _ hj
      have hji : j ≠ i := by
        intro heq
        rw [heq, restoreDisabled_self] at hactive
        exact Bool.false_ne_true hactive
      rwa [restoreDisabled_identities, update_of_ne hji]
    · intro j hactive
      by_cases hji : j = i
      · rw [hji, restoreDisabled_self] at hactive
        exact absurd hactive Bool.false_ne_true
      · exact restoreDisabled_of_ne s hji
  | initiateRestore i f hcall hcan =>
    have hmem : methodIdPreimage i f ∈ inputs := by
      apply hin
      rcases hcall with hcall | hcall
      · simp [hashedBy, hcall]
      · simp [hashedBy, hcall.1]
    refine ⟨h.registry.of_pendingRestores _, ?_⟩
    constructor
    case exists_ =>
      intro j hactive
      by_cases hji : j = i
      · exact hji ▸ hcan.exists_
      · exact h.pending.exists_ j (by simpa [initiated, update_of_ne hji] using hactive)
    case enabled =>
      intro j hactive
      by_cases hji : j = i
      · exact hji ▸ hcan.enabled
      · exact h.pending.enabled j (by simpa [initiated, update_of_ne hji] using hactive)
    case valid =>
      intro j hactive
      by_cases hji : j = i
      · simpa [initiated, hji] using hcan.valid
      · simp only [initiated, update_of_ne hji] at hactive ⊢
        exact h.pending.valid j hactive
    case hashed =>
      intro j hactive
      by_cases hji : j = i
      · simpa [initiated, hji] using hmem
      · simp only [initiated, update_of_ne hji] at hactive ⊢
        exact h.pending.hashed j hactive
  | restoreAddMethod i f hcall hdelay hinit hcan =>
    have hmem := hin (methodIdPreimage i f) (by simp [hashedBy, hcall])
    exact h.restored hcan hmem
  | cancelRestore i authorization hcall hactive hverify =>
    exact ⟨h.registry.of_pendingRestores _, h.pending.clearPending i⟩
  | executeRestore i hcall hready hcan =>
    exact h.restored hcan (h.pending.hashed i hready.active)
  | configure owner recoveryOperator restoreDelay hcall howner =>
    exact ⟨⟨h.registry.1, h.registry.2, h.registry.3, h.registry.4, h.registry.5, h.registry.6,
      h.registry.7, h.registry.8, h.registry.9, h.registry.10⟩,
      h.pending.of_frame hkeeps (by simp) (by simp)⟩

theorem Sound.deployed (inputs : List Bytes) (recoveryOperator owner : Address) :
    Sound env inputs (deployed recoveryOperator owner) := by
  have hempty : ∀ id, ((IdentityStore.deployed recoveryOperator owner).methods id).exists_ =
    false := fun id => rfl
  constructor
  · constructor
    case listed => simp [IdentityStore.deployed, Method.zero]
    case nodup => simp [IdentityStore.deployed]
    case counts =>
      intro i kind hkind
      rcases hkind with rfl | rfl | rfl <;> rfl
    case total => exact fun i => rfl
    case present => simp [IdentityStore.deployed, Identity.zero]
    case absent => exact fun i _ => rfl
    case zero => rfl
    all_goals
      intro id hlive
      rw [hempty] at hlive
      exact absurd hlive Bool.false_ne_true
  · constructor <;> simp [IdentityStore.deployed, PendingRestore.zero]

theorem deploy_eq_ok {recoveryOperator initialOwner : Address} {s₀ : State}
    (h : deploy recoveryOperator initialOwner = .ok s₀) :
    s₀ = deployed recoveryOperator initialOwner := by
  rcases Lib.Revert.bind_eq_ok.mp h with ⟨_, -, hs₀⟩
  exact (Lib.Revert.pure_eq_ok.mp hs₀).symm

/-- Every state a run reaches satisfies the invariant, relative to the inputs the run hashes. -/
theorem run_sound {recoveryOperator initialOwner : Address} {s₀ : State}
    (hdeploy : deploy recoveryOperator initialOwner = .ok s₀) {txs : List (Tx Call)}
    {inputs : List Bytes} (hcf : env.crypto.CollisionFree inputs)
    (hin : ∀ tx ∈ txs, ∀ p ∈ hashedBy tx, p ∈ inputs) : Sound env inputs (run (step env) s₀ txs) := by
  have hs₀ := deploy_eq_ok hdeploy
  apply run_invariant_of_mem (I := Sound env inputs)
  · intro s tx s' htx hs hstep
    exact hs.effect hcf (hin tx htx) (step_effect hstep)
  · exact hs₀ ▸ Sound.deployed inputs recoveryOperator initialOwner

/-! ## The invariant in the contract's own terms -/

-- The stored methods of an identity that have a kind.
def methodsOfKind (s : State) (identityId : Bytes32) (kind : Uint8) : Set Bytes32 :=
  {id | (s.methods id).exists_ = true ∧ (s.methods id).identityId = identityId ∧
    (s.methods id).kind = kind}

structure Represents (env : Env) (s : State) (identityId : Bytes32) : Prop where
  count_length : (s.identities identityId).methodCount.toNat = (s.methodIds identityId).length
  count_sum : (s.identities identityId).methodCount.toNat =
    (s.identities identityId).webauthnCount.toNat + (s.identities identityId).yubikeyCount.toNat +
      (s.identities identityId).eoaCount.toNat
  webauthn : (s.identities identityId).webauthnCount.toNat =
    (methodsOfKind s identityId METHOD_WEBAUTHN).ncard
  yubikey : (s.identities identityId).yubikeyCount.toNat =
    (methodsOfKind s identityId METHOD_YUBIKEY).ncard
  eoa : (s.identities identityId).eoaCount.toNat = (methodsOfKind s identityId METHOD_EOA).ncard
  nodup : (s.methodIds identityId).Nodup
  listed : ∀ id, id ∈ s.methodIds identityId ↔
    (s.methods id).exists_ = true ∧ (s.methods id).identityId = identityId
  sits : ∀ id, (s.methods id).exists_ = true → (s.methods id).identityId = identityId →
    id = computeMethodId env.crypto identityId (s.methods id).toMethodFields
  bounds : (s.identities identityId).exists_ = true →
    1 ≤ (s.identities identityId).methodCount ∧
      (s.identities identityId).methodCount ≤ MAX_METHODS
  pending : (s.pendingRestores identityId).active = true →
    (s.identities identityId).exists_ = true ∧ (s.identities identityId).restoreEnabled = true

theorem Registry.ncard_methodsOfKind {inputs : List Bytes} (h : Registry env inputs s)
    (i : Bytes32) {kind : Uint8} (hkind : IsKind kind) :
    (Identity.kindCount (s.identities i) kind).toNat = (methodsOfKind s i kind).ncard := by
  have hset : methodsOfKind s i kind =
      ((s.methodIds i).filter (fun id ↦ (s.methods id).kind == kind)).toFinset := by
    ext id
    simp [methodsOfKind, h.listed, and_assoc]
  rw [hset, Set.ncard_coe_finset, List.toFinset_card_of_nodup ((h.nodup i).filter _),
    ← List.countP_eq_length_filter]
  exact h.counts i kind hkind

-- Every listed method has exactly one of the three kinds.
theorem length_eq_countP_kinds (methods : Bytes32 → Method) (ids : List Bytes32)
    (h : ∀ id ∈ ids, IsKind (methods id).kind) :
    ids.length = ids.countP (fun id ↦ (methods id).kind == METHOD_WEBAUTHN) +
      ids.countP (fun id ↦ (methods id).kind == METHOD_YUBIKEY) +
      ids.countP (fun id ↦ (methods id).kind == METHOD_EOA) := by
  induction ids with
  | nil => rfl
  | cons id ids ih =>
    have htail := ih (fun x hx => h x (List.mem_cons_of_mem id hx))
    simp only [List.countP_cons, List.length_cons]
    have hwy : METHOD_WEBAUTHN ≠ METHOD_YUBIKEY := by decide
    have hwe : METHOD_WEBAUTHN ≠ METHOD_EOA := by decide
    have hye : METHOD_YUBIKEY ≠ METHOD_EOA := by decide
    rcases h id (List.mem_cons_self ..) with hk | hk | hk <;>
      simp only [hk, beq_iff_eq, hwy, hwe, hye, hwy.symm, hwe.symm, hye.symm, if_true, if_false] <;>
      omega

theorem Sound.represents {inputs : List Bytes} (h : Sound env inputs s) (i : Bytes32) :
    Represents env s i := by
  have hr := h.registry
  constructor
  case count_length => exact hr.total i
  case count_sum =>
    have hkinds : ∀ id ∈ s.methodIds i, IsKind (s.methods id).kind :=
      fun id hid => (hr.valid id ((hr.listed i id).mp hid).1).kind_cases
    rw [hr.total i, length_eq_countP_kinds s.methods _ hkinds, ← hr.counts i _ (.inl rfl),
      ← hr.counts i _ (.inr (.inl rfl)), ← hr.counts i _ (.inr (.inr rfl))]
    rfl
  case webauthn => exact hr.ncard_methodsOfKind i (.inl rfl)
  case yubikey => exact hr.ncard_methodsOfKind i (.inr (.inl rfl))
  case eoa => exact hr.ncard_methodsOfKind i (.inr (.inr rfl))
  case nodup => exact hr.nodup i
  case listed => exact hr.listed i
  case sits =>
    intro id hlive hmember
    have hid := hr.sits id hlive
    rwa [hmember] at hid
  case bounds =>
    intro hexists
    have hlen := hr.present i hexists
    rw [← hr.total i] at hlen
    exact ⟨BitVec.le_def.mpr hlen.1, BitVec.le_def.mpr hlen.2⟩
  case pending => exact fun hactive => ⟨h.pending.exists_ i hactive, h.pending.enabled i hactive⟩

/-- The representation invariant holds of every identity in every reachable state. -/
theorem representation_invariant (env : Env) (recoveryOperator initialOwner : Address) (s₀ : State)
    (hdeploy : deploy recoveryOperator initialOwner = .ok s₀) (txs : List (Tx Call))
    (hcf : env.crypto.CollisionFree (txs.flatMap hashedBy)) (identityId : Bytes32) :
    Represents env (run (step env) s₀ txs) identityId := by
  have hin : ∀ tx ∈ txs, ∀ p ∈ hashedBy tx, p ∈ txs.flatMap hashedBy :=
    fun tx htx p hp => List.mem_flatMap.mpr ⟨tx, htx, hp⟩
  exact (run_sound hdeploy hcf hin).represents identityId

def toyEnv : Env := ⟨Crypto.toy, 0x1D57, 8453⟩

def toyStore : State := deployed 0x0BE0 0x0A11CE

-- Register with a passkey, let it add an EOA, let the EOA add a YubiKey, restore a passkey.
def toyRun : List (Tx Call) :=
  let eoaMethod := eoaFields 0xE0A
  let digest := hashAddMethod toyEnv 1 eoaMethod
  let authorization := passkeyBlob toyEnv 1 11 12 digest
  [⟨0xCA11, 100, .register 1 11 12⟩,
    ⟨0xCA11, 101, .addMethod 1 eoaMethod authorization⟩,
    ⟨0xE0A, 102, .addMethodByEoa 1 ⟨METHOD_YUBIKEY, 21, 22, 0⟩⟩,
    ⟨0x0BE0, 103, .restoreAddMethod 1 (passkeyFields 31 32)⟩]

example : ((run (step toyEnv) toyStore toyRun).identities 1).methodCount = 4 := by decide +kernel

theorem representation_invariant_toyRun :
    Represents toyEnv (run (step toyEnv) toyStore toyRun) 1 :=
  representation_invariant toyEnv 0x0BE0 0x0A11CE toyStore rfl toyRun
    (by decide +kernel) 1

end OnchainInvoice.IdentityStore
