import Mathlib.Logic.Function.Basic
import OnchainInvoice.Lib.SwapPop
import OnchainInvoice.Wallet.Types

/-!
# `P256OwnerRegistry`

The owners of a simple wallet and their 1-of-N signature check, with the key storage that `Wallet`
supplies for it.
-/

namespace OnchainInvoice.P256OwnerRegistry

open Evm AdvancedWalletTypes WalletEip712 Lib.Revert Lib.SwapPop Function

structure OwnerKey where
  qx : Bytes32
  qy : Bytes32
deriving DecidableEq

structure OwnerRegistry where
  owners : Bytes32 → Bool
  ownerIds : List Bytes32
  ownerCount : Uint256
  ownerKeys : Bytes32 → OwnerKey

def OwnerRegistry.empty : OwnerRegistry := ⟨fun _ => false, [], 0, fun _ => ⟨0, 0⟩⟩

variable (env : Env) (r : OwnerRegistry)

def ownerId (qx qy : Bytes32) : Bytes32 := env.crypto.keccak256 (wordBytes qx ++ wordBytes qy)

def storeOwnerKey (id qx qy : Bytes32) : OwnerRegistry :=
  { r with ownerKeys := update r.ownerKeys id ⟨qx, qy⟩ }

def removeOwnerId (id : Bytes32) : OwnerRegistry :=
  { r with
    ownerKeys := update r.ownerKeys id ⟨0, 0⟩
    ownerIds := swapPop r.ownerIds id }

def addOwnerKey (qx qy : Bytes32) : Except Error OwnerRegistry := do
  revertIf (qx == 0 && qy == 0) .invalidOwnerKey
  let id := ownerId env qx qy
  revertIf (r.owners id) .ownerAlreadyExists
  let ownerCount ← checkedAdd .panic r.ownerCount 1
  return storeOwnerKey
    { r with
      owners := update r.owners id true
      ownerIds := r.ownerIds ++ [id]
      ownerCount := ownerCount } id qx qy

def removeOwnerKey (qx qy : Bytes32) : Except Error OwnerRegistry := do
  let id := ownerId env qx qy
  revertIf (!r.owners id) .ownerNotFound
  revertIf (r.ownerCount ≤ 1) .lastOwner
  let ownerCount ← checkedSub .panic r.ownerCount 1
  return removeOwnerId
    { r with
      owners := update r.owners id false
      ownerCount := ownerCount } id

def validateWebAuthn (digest : Bytes32) (signature : Bytes) (qx qy : Bytes32) : Bool :=
  match env.crypto.tryDecodeAuth signature with
  | none => false
  | some auth => env.crypto.webAuthnVerify (wordBytes digest) auth qx qy

-- One round of the loop of `_validateAnyOwner`.
def validateOwner (digest : Bytes32) (signature : Bytes) (id : Bytes32) : Bool :=
  if r.owners id = false then false
  else
    let key := r.ownerKeys id
    if isEoaOwnerQy env key.qy then
      recoverUserOp env env.this digest (eoaFromQx key.qx) signature
    else validateWebAuthn env digest signature key.qx key.qy

def validateAnyOwner (digest : Bytes32) (signature : Bytes) : Bool :=
  r.ownerIds.any (validateOwner env r digest signature)

/-! ## The two operations -/

def ownerAdded (qx qy : Bytes32) : OwnerRegistry :=
  storeOwnerKey
    { r with
      owners := update r.owners (ownerId env qx qy) true
      ownerIds := r.ownerIds ++ [ownerId env qx qy]
      ownerCount := r.ownerCount + 1 } (ownerId env qx qy) qx qy

def ownerRemoved (qx qy : Bytes32) : OwnerRegistry :=
  removeOwnerId
    { r with
      owners := update r.owners (ownerId env qx qy) false
      ownerCount := r.ownerCount - 1 } (ownerId env qx qy)

variable {env r} {r' : OwnerRegistry} {qx qy : Bytes32}

theorem addOwnerKey_eq_ok : addOwnerKey env r qx qy = .ok r' ↔
    ¬(qx = 0 ∧ qy = 0) ∧ r.owners (ownerId env qx qy) = false ∧
      r.ownerCount.toNat + 1 < 2 ^ 256 ∧ r' = ownerAdded env r qx qy := by
  unfold addOwnerKey
  simp only [bind_eq_ok, revertIf_eq_ok, checkedAdd_eq_ok, pure_eq_ok, exists_const]
  apply Iff.intro
  · rintro ⟨hkey, hnew, count, ⟨hlt, hcount⟩, hr⟩
    refine ⟨by simpa using hkey, hnew, hlt, ?_⟩
    rw [← hr, ← hcount]
    rfl
  · rintro ⟨hkey, hnew, hlt, hr⟩
    exact ⟨by simpa using hkey, hnew, _, ⟨hlt, rfl⟩, hr.symm⟩

theorem removeOwnerKey_eq_ok : removeOwnerKey env r qx qy = .ok r' ↔
    r.owners (ownerId env qx qy) = true ∧ 1 < r.ownerCount.toNat ∧
      r' = ownerRemoved env r qx qy := by
  unfold removeOwnerKey
  simp only [bind_eq_ok, revertIf_eq_ok, checkedSub_eq_ok, pure_eq_ok, exists_const,
    Bool.not_eq_false', decide_eq_false_iff_not]
  apply Iff.intro
  · rintro ⟨howner, hcount, count, ⟨_, hsub⟩, hr⟩
    refine ⟨howner, BitVec.lt_def.mp (BitVec.not_le.mp hcount), ?_⟩
    rw [← hr, ← hsub]
    rfl
  · rintro ⟨howner, hcount, hr⟩
    refine ⟨howner, BitVec.not_le.mpr (BitVec.lt_def.mpr hcount), _, ⟨?_, rfl⟩, hr.symm⟩
    show 1 ≤ r.ownerCount.toNat
    omega

end OnchainInvoice.P256OwnerRegistry
