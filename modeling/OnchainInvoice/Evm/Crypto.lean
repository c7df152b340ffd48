import OnchainInvoice.Evm.Abi

/-!
# What the contracts take from the EVM and from OpenZeppelin

The hash function and the two signature schemes are parameters of every model: a `Crypto` is any
choice of them, with the two facts the contracts rely on (a successful recovery never yields the
zero address, and the empty byte string is no signature of either kind).
-/

namespace Evm

structure WebAuthnAuth where
  r : Bytes32
  s : Bytes32
  challengeIndex : Uint256
  typeIndex : Uint256
  authenticatorData : Bytes
  clientDataJSON : Bytes
deriving DecidableEq

-- `abi.decode(sig, (bytes32, bytes32, uint256, uint256, bytes, string))`
def decodeWebAuthnAuth (sig : Bytes) : Option WebAuthnAuth := do
  let r ← Abi.wordAt sig 0
  let s ← Abi.wordAt sig 32
  let challengeIndex ← Abi.wordAt sig 64
  let typeIndex ← Abi.wordAt sig 96
  let authenticatorData ← Abi.dynamicAt Abi.bytesAt sig 0 128
  let clientDataJSON ← Abi.dynamicAt Abi.bytesAt sig 0 160
  return ⟨r, s, challengeIndex, typeIndex, authenticatorData, clientDataJSON⟩

structure Crypto where
  keccak256 : Bytes → Bytes32
  -- `ECDSA.tryRecover`: the signer, or `none` for any `RecoverError`.
  tryRecover : Bytes32 → Bytes → Option Address
  -- `WebAuthn.verify(challenge, auth, qx, qy)`
  webAuthnVerify : Bytes → WebAuthnAuth → Bytes32 → Bytes32 → Bool
  -- `WebAuthn.tryDecodeAuth`, which never reverts.
  tryDecodeAuth : Bytes → Option WebAuthnAuth
  tryRecover_ne_zero : ∀ digest sig a, tryRecover digest sig = some a → a ≠ 0
  tryRecover_nil : ∀ digest, tryRecover digest [] = none
  tryDecodeAuth_nil : tryDecodeAuth [] = none

def Crypto.toTypedDataHash (crypto : Crypto) (domainSeparator structHash : Bytes32) : Bytes32 :=
  crypto.keccak256 ([0x19, 0x01] ++ wordBytes domainSeparator ++ wordBytes structHash)

/-- The hash function has no collision among these inputs. -/
def Crypto.CollisionFree (crypto : Crypto) (inputs : List Bytes) : Prop :=
  ∀ a ∈ inputs, ∀ b ∈ inputs, crypto.keccak256 a = crypto.keccak256 b → a = b

instance (crypto : Crypto) (inputs : List Bytes) : Decidable (crypto.CollisionFree inputs) :=
  inferInstanceAs (Decidable (∀ a ∈ inputs, ∀ b ∈ inputs, _))

structure Tx (Call : Type) where
  sender : Address
  timestamp : Uint256
  call : Call

/-! ## A choice that computes

A polynomial hash, and signatures that show their signer: an ECDSA signature is the digest, the
address and 13 more bytes, and an assertion names its key and carries the challenge. -/

def toyHash (bytes : Bytes) : Bytes32 :=
  BitVec.ofNat 256 (bytes.foldl (fun acc b => (acc * 257 + b.toNat + 1) % (2 ^ 255 - 19)) 7)

def toySign (digest : Bytes32) (signer : Address) : Bytes :=
  wordBytes digest ++ addressBytes signer ++ List.replicate 13 0

def toyRecover (digest : Bytes32) (sig : Bytes) : Option Address :=
  let signer : Address := BitVec.ofNat 160 (beNat ((sig.drop 32).take 20))
  if sig.length = 65 ∧ sig.take 32 = wordBytes digest ∧ signer ≠ 0 then some signer else none

def toyAssertion (qx qy digest : Bytes32) : Bytes :=
  encodeWords [qx, qy, 0, 0, 0xC0, 0x100] ++ Abi.encodeBytes (wordBytes digest) ++ Abi.encodeBytes []

def Crypto.toy : Crypto where
  keccak256 := toyHash
  tryRecover := toyRecover
  webAuthnVerify challenge auth qx qy :=
    decide (auth.r = qx ∧ auth.s = qy ∧ auth.authenticatorData = challenge)
  tryDecodeAuth := decodeWebAuthnAuth
  tryRecover_ne_zero digest sig a h := by
    simp only [toyRecover] at h
    split at h
    · rename_i hsig
      cases h
      exact hsig.2.2
    · cases h
  tryRecover_nil digest := by simp [toyRecover]
  tryDecodeAuth_nil := by decide +kernel

end Evm
