import OnchainInvoice.Evm.Crypto

/-!
# Typed data

EIP-712 hashes of structures whose members are words or texts.  The hash of a structure fixes its
type and the words of its members, and the hash that is signed fixes those of the domain and of the
message, as far as the hash function has no collision among what is hashed.
-/

namespace Evm.TypedData

open Evm

inductive Value
  | word (w : Uint256)
  | text (s : String)
deriving DecidableEq

structure Member where
  type : String
  name : String
  value : Value
deriving DecidableEq

structure Struct where
  name : String
  members : List Member
deriving DecidableEq

def Member.declaration (m : Member) : String := m.type ++ " " ++ m.name

def Struct.encodeType (s : Struct) : String :=
  s.name ++ "(" ++ ",".intercalate (s.members.map Member.declaration) ++ ")"

variable (crypto : Crypto)

def Value.encode : Value → Uint256
  | .word w => w
  | .text s => crypto.keccak256 (utf8 s)

def Struct.words (s : Struct) : List Uint256 := s.members.map fun m => m.value.encode crypto

def Struct.encodeData (s : Struct) : Bytes :=
  encodeWords (crypto.keccak256 (utf8 s.encodeType) :: s.words crypto)

def hashStruct (s : Struct) : Bytes32 := crypto.keccak256 (s.encodeData crypto)

def hash (domain message : Struct) : Bytes32 :=
  crypto.toTypedDataHash (hashStruct crypto domain) (hashStruct crypto message)

/-! ## What is hashed -/

def Value.hashed : Value → List Bytes
  | .word _ => []
  | .text s => [utf8 s]

def Struct.hashed (s : Struct) : List Bytes :=
  s.encodeData crypto :: utf8 s.encodeType :: s.members.flatMap fun m => m.value.hashed

def hashed (domain message : Struct) : List Bytes :=
  ([0x19, 0x01] ++ wordBytes (hashStruct crypto domain) ++ wordBytes (hashStruct crypto message)) ::
    (domain.hashed crypto ++ message.hashed crypto)

variable {crypto} {inputs : List Bytes} {s s' domain domain' message message' : Struct}

theorem toList_loop (bs : ByteArray) (i : Nat) (r : List UInt8) :
    ByteArray.toList.loop bs i r = r.reverse ++ bs.data.toList.drop i := by
  fun_induction ByteArray.toList.loop bs i r with
  | case1 i r h ih =>
    have hi : i < bs.data.toList.length := h
    have hget : bs.get! i = bs.data[i] := getElem!_pos bs.data i h
    rw [ih, List.drop_eq_getElem_cons hi, hget]
    simp
  | case2 i r h =>
    rw [List.drop_of_length_le (Nat.not_lt.mp h), List.append_nil]

theorem utf8_string_injective {a b : String} (h : utf8 a = utf8 b) : a = b := by
  have htoList : ∀ bs : ByteArray, bs.toList = bs.data.toList := fun bs => toList_loop bs 0 []
  unfold utf8 at h
  rw [htoList, htoList] at h
  exact String.toByteArray_inj.mp (ByteArray.ext (Array.toList_inj.mp h))

theorem encode_text_inj (hcf : crypto.CollisionFree inputs) {a b : String} (ha : utf8 a ∈ inputs)
    (hb : utf8 b ∈ inputs) (h : (Value.text a).encode crypto = (Value.text b).encode crypto) :
    a = b :=
  utf8_string_injective (hcf _ ha _ hb h)

theorem Struct.encodeData_mem (s : Struct) : s.encodeData crypto ∈ s.hashed crypto :=
  List.mem_cons_self ..

theorem Struct.encodeType_mem (s : Struct) : utf8 s.encodeType ∈ s.hashed crypto :=
  List.mem_cons_of_mem _ (List.mem_cons_self ..)

/-- The hash of a structure fixes its type and its words. -/
theorem hashStruct_inj (hcf : crypto.CollisionFree inputs) (hs : s.hashed crypto ⊆ inputs)
    (hs' : s'.hashed crypto ⊆ inputs) (h : hashStruct crypto s = hashStruct crypto s') :
    s.encodeType = s'.encodeType ∧ s.words crypto = s'.words crypto := by
  have hdata := hcf _ (hs s.encodeData_mem) _ (hs' s'.encodeData_mem) h
  unfold Struct.encodeData at hdata
  have hlength := congrArg List.length hdata
  rw [length_encodeWords, length_encodeWords] at hlength
  have hwords := encodeWords_injective (by omega) hdata
  obtain ⟨htype, hwords⟩ := List.cons_eq_cons.mp hwords
  exact ⟨utf8_string_injective (hcf _ (hs s.encodeType_mem) _ (hs' s'.encodeType_mem) htype),
    hwords⟩

/-- What is signed fixes the domain and the message. -/
theorem hash_inj (hcf : crypto.CollisionFree inputs)
    (hleft : hashed crypto domain message ⊆ inputs)
    (hright : hashed crypto domain' message' ⊆ inputs)
    (h : hash crypto domain message = hash crypto domain' message') :
    (domain.encodeType = domain'.encodeType ∧ domain.words crypto = domain'.words crypto) ∧
      message.encodeType = message'.encodeType ∧ message.words crypto = message'.words crypto := by
  unfold hashed at hleft hright
  rw [List.cons_subset, List.append_subset] at hleft hright
  have hbytes := hcf _ hleft.1 _ hright.1 h
  obtain ⟨hfront, hmessage⟩ := List.append_inj' hbytes (by simp)
  obtain ⟨-, hdomain⟩ := List.append_inj' hfront (by simp)
  exact ⟨hashStruct_inj hcf hleft.2.1 hright.2.1 (wordBytes_injective hdomain),
    hashStruct_inj hcf hleft.2.2 hright.2.2 (wordBytes_injective hmessage)⟩

end Evm.TypedData
