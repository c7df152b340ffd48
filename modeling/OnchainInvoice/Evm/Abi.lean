import Mathlib.Data.List.Induction
import OnchainInvoice.Evm.Words

/-!
# Reading ABI-encoded bytes

`abi.decode` as the compiler generates it: every position is checked against the end of the data,
an offset or a length of `2^64` or more is rejected, and padding is not looked at.  A failed check
reverts, here `none`.  The encoders write the canonical layout, and the round trips say that what
they write is read back wherever it stands in a larger buffer.
-/

namespace Evm.Abi

open Evm

variable {α : Type}

def wordAt (data : Bytes) (pos : Nat) : Option Uint256 :=
  if pos + 32 ≤ data.length then some (BitVec.ofNat 256 (beNat ((data.drop pos).take 32))) else none

-- A `uint8` head slot is rejected when the word has higher bits.
def uint8At (data : Bytes) (pos : Nat) : Option Uint8 := do
  let x ← wordAt data pos
  if x.toNat < 2 ^ 8 then some (x.setWidth 8) else none

-- Offsets and lengths have to fit in 64 bits.
def offsetAt (data : Bytes) (pos : Nat) : Option Nat := do
  let x ← wordAt data pos
  if x.toNat < 2 ^ 64 then some x.toNat else none

def bytesAt (data : Bytes) (pos : Nat) : Option Bytes := do
  let len ← offsetAt data pos
  if pos + 32 + len ≤ data.length then some ((data.drop (pos + 32)).take len) else none

/-- A dynamic component: the head slot at `head` holds an offset from `base`. -/
def dynamicAt (decode : Bytes → Nat → Option α) (data : Bytes) (base head : Nat) : Option α := do
  let offset ← offsetAt data head
  decode data (base + offset)

-- The items of an array of dynamic items whose offset slots start at `start`.
def itemsAt (decode : Bytes → Nat → Option α) (data : Bytes) (start len : Nat) : Option (List α) :=
  (List.range len).mapM fun i => dynamicAt decode data start (start + 32 * i)

def arrayAt (decode : Bytes → Nat → Option α) (data : Bytes) (pos : Nat) : Option (List α) := do
  let len ← offsetAt data pos
  if pos + 32 + 32 * len ≤ data.length then itemsAt decode data (pos + 32) len else none

/-! ## Canonical encodings -/

def encodeBytes (bytes : Bytes) : Bytes :=
  wordBytes (BitVec.ofNat 256 bytes.length) ++ bytes ++
    List.replicate ((32 - bytes.length % 32) % 32) 0

/-- The offset slots of items that are laid out one after the other from `offset` on. -/
def encodeOffsets (offset : Nat) : List Bytes → Bytes
  | [] => []
  | item :: items =>
    wordBytes (BitVec.ofNat 256 offset) ++ encodeOffsets (offset + item.length) items

def encodeArray (items : List Bytes) : Bytes :=
  wordBytes (BitVec.ofNat 256 items.length) ++ encodeOffsets (32 * items.length) items ++
    items.flatten

/-! ## Reading back -/

-- `x` stands in `data` from `pos` on.
def Holds (data : Bytes) (pos : Nat) (x : Bytes) : Prop := x <+: data.drop pos

section Holds

variable {data x y : Bytes} {pos : Nat}

theorem Holds.append : Holds data pos (x ++ y) ↔ Holds data pos x ∧ Holds data (pos + x.length) y := by
  unfold Holds
  rw [← List.drop_drop]
  apply Iff.intro
  · rintro ⟨rest, h⟩
    rw [List.append_assoc] at h
    exact ⟨⟨y ++ rest, h⟩, ⟨rest, by rw [← h, List.drop_left]⟩⟩
  · rintro ⟨⟨tail, hx⟩, hy⟩
    rw [← hx, List.drop_left] at hy
    rcases hy with ⟨rest, hy⟩
    exact ⟨rest, by rw [← hx, ← hy, List.append_assoc]⟩

theorem Holds.take (h : Holds data pos x) : (data.drop pos).take x.length = x :=
  (List.prefix_iff_eq_take.mp h).symm

theorem Holds.length_le (h : Holds data pos x) : x.length ≤ data.length - pos := by
  have hle := List.IsPrefix.length_le h
  rwa [List.length_drop] at hle

theorem wordAt_of_holds {w : Uint256} (h : Holds data pos (wordBytes w)) :
    wordAt data pos = some w := by
  have hle := h.length_le
  rw [length_wordBytes] at hle
  have htake := h.take
  rw [length_wordBytes] at htake
  unfold wordAt
  rw [if_pos (by omega), htake, beNat_wordBytes]
  simp

theorem offsetAt_of_holds {n : Nat} (hn : n < 2 ^ 64)
    (h : Holds data pos (wordBytes (BitVec.ofNat 256 n))) : offsetAt data pos = some n := by
  have hround : (BitVec.ofNat 256 n).toNat = n := by
    rw [BitVec.toNat_ofNat, Nat.mod_eq_of_lt]
    exact hn.trans (by decide)
  unfold offsetAt
  rw [wordAt_of_holds h]
  simp only [bind, Option.bind, hround, if_pos hn]

theorem le_of_wordAt {w : Uint256} (h : wordAt data pos = some w) : pos + 32 ≤ data.length := by
  unfold wordAt at h
  by_contra hshort
  rw [if_neg hshort] at h
  cases h

theorem bytesAt_of_holds {bytes : Bytes} (hlen : bytes.length < 2 ^ 64)
    (h : Holds data pos (encodeBytes bytes)) : bytesAt data pos = some bytes := by
  unfold encodeBytes at h
  rw [Holds.append, Holds.append, length_wordBytes] at h
  rcases h with ⟨⟨hword, hbytes⟩, -⟩
  have hle := hbytes.length_le
  have hhead := le_of_wordAt (wordAt_of_holds hword)
  unfold bytesAt
  rw [offsetAt_of_holds hlen hword]
  simp only [bind, Option.bind]
  rw [if_pos (by omega), hbytes.take]

theorem dynamicAt_of_holds {decode : Bytes → Nat → Option α} {base head n : Nat} {a : α}
    (hn : n < 2 ^ 64) (h : Holds data head (wordBytes (BitVec.ofNat 256 n)))
    (hdecode : decode data (base + n) = some a) : dynamicAt decode data base head = some a := by
  unfold dynamicAt
  rw [offsetAt_of_holds hn h]
  exact hdecode

@[simp] theorem length_encodeOffsets (offset : Nat) (items : List Bytes) :
    (encodeOffsets offset items).length = 32 * items.length := by
  induction items generalizing offset with
  | nil => rfl
  | cons item items ih =>
    rw [encodeOffsets, List.length_append, length_wordBytes, ih, List.length_cons]
    omega

theorem length_encodeArray (items : List Bytes) :
    (encodeArray items).length = 32 + 32 * items.length + items.flatten.length := by
  rw [encodeArray, List.length_append, List.length_append, length_wordBytes, length_encodeOffsets]

theorem length_le_encodeBytes (bytes : Bytes) : bytes.length ≤ (encodeBytes bytes).length := by
  rw [encodeBytes, List.length_append, List.length_append]
  omega

-- Slot `i` of the offsets and item `i` itself, when the items start at `start + offset`.
theorem holds_item {items : List Bytes} {slots start offset : Nat}
    (hslots : Holds data slots (encodeOffsets offset items))
    (hitems : Holds data (start + offset) items.flatten) {i : Nat} {item : Bytes}
    (hi : items[i]? = some item) : ∃ n, n ≤ offset + items.flatten.length ∧
      Holds data (slots + 32 * i) (wordBytes (BitVec.ofNat 256 n)) ∧
      Holds data (start + n) item := by
  induction items generalizing slots offset i with
  | nil => simp at hi
  | cons first items ih =>
    rw [encodeOffsets, Holds.append, length_wordBytes] at hslots
    rw [List.flatten_cons, Holds.append] at hitems
    cases i with
    | zero =>
      have hfirst : first = item := by simpa using hi
      rw [← hfirst]
      exact ⟨offset, Nat.le_add_right .., hslots.1, hitems.1⟩
    | succ i =>
      rw [Nat.add_assoc] at hitems
      rw [List.getElem?_cons_succ] at hi
      rcases ih hslots.2 hitems.2 hi with ⟨n, hn, hslot, hitem⟩
      refine ⟨n, ?_, ?_, hitem⟩
      · rw [List.flatten_cons, List.length_append]
        omega
      · rw [show slots + 32 * (i + 1) = slots + 32 + 32 * i by omega]
        exact hslot

theorem mapM_range {f : Nat → Option α} {values : List α}
    (h : ∀ i a, values[i]? = some a → f i = some a) :
    (List.range values.length).mapM f = some values := by
  induction values using List.reverseRecOn with
  | nil => simp
  | append_singleton values a ih =>
    have hinit : ∀ i b, values[i]? = some b → f i = some b := by
      intro i b hi
      apply h
      rw [List.getElem?_append_left (List.getElem?_eq_some_iff.mp hi).1, hi]
    have hlast : f values.length = some a := h _ a (by simp)
    rw [List.length_append, List.length_singleton, List.range_succ, List.mapM_append, ih hinit]
    simp [hlast]

/-- Reading back an array whose items are read back wherever they stand. -/
theorem arrayAt_of_holds {decode : Bytes → Nat → Option α} {encode : α → Bytes} {values : List α}
    (hdecode : ∀ a ∈ values, ∀ pos, Holds data pos (encode a) → decode data pos = some a)
    (hsize : 32 * values.length + (values.map encode).flatten.length < 2 ^ 64)
    (h : Holds data pos (encodeArray (values.map encode))) :
    arrayAt decode data pos = some values := by
  unfold encodeArray at h
  rw [Holds.append, Holds.append, List.length_append, length_wordBytes, length_encodeOffsets,
    List.length_map] at h
  rcases h with ⟨⟨hlen, hslots⟩, hitems⟩
  have hhead := le_of_wordAt (wordAt_of_holds hlen)
  have hle := hslots.length_le
  rw [length_encodeOffsets, List.length_map] at hle
  unfold arrayAt
  rw [offsetAt_of_holds (by omega) hlen]
  simp only [bind, Option.bind]
  rw [if_pos (by omega)]
  unfold itemsAt
  have hread : ∀ i a, values[i]? = some a →
      dynamicAt decode data (pos + 32) (pos + 32 + 32 * i) = some a := by
    intro i a hi
    have hitem : (values.map encode)[i]? = some (encode a) := by rw [List.getElem?_map, hi]; rfl
    rw [← Nat.add_assoc] at hitems
    rcases holds_item hslots hitems hitem with ⟨n, hn, hslot, hheld⟩
    have hmem := List.mem_of_getElem? hi
    exact dynamicAt_of_holds (by omega) hslot (hdecode a hmem _ hheld)
  exact mapM_range hread

end Holds

end Evm.Abi
