import Mathlib.Algebra.Ring.Nat
import Mathlib.Data.List.Basic
import Mathlib.Tactic.Common
import OnchainInvoice.Lib.ByteTexts

/-!
# UTF-8, and where a text stands in its bytes

The bytes of a text, the text that a decoder with replacement makes of any bytes, and the places
where an ASCII text occurs.  A JavaScript index counts UTF-16 units, so it is a place in the bytes
only where nothing but ASCII comes before it.
-/

namespace Lib.Utf8

open Lib.ByteTexts

/-! ## Encoding and decoding -/

def utf8 (t : Text) : Bytes := t.flatMap String.utf8EncodeChar

-- The bytes that a character still needs, the range of the next one, and the bits so far.
structure Pending where
  needed : Nat
  lower : Nat
  upper : Nat
  bits : Nat

def lead (b : UInt8) : Char ⊕ Pending :=
  let n := b.toNat
  if n < 0x80 then .inl (Char.ofNat n)
  else if 0xC2 ≤ n ∧ n ≤ 0xDF then .inr ⟨1, 0x80, 0xBF, n % 0x20⟩
  else if 0xE0 ≤ n ∧ n ≤ 0xEF then
    .inr ⟨2, if n = 0xE0 then 0xA0 else 0x80, if n = 0xED then 0x9F else 0xBF, n % 0x10⟩
  else if 0xF0 ≤ n ∧ n ≤ 0xF4 then
    .inr ⟨3, if n = 0xF0 then 0x90 else 0x80, if n = 0xF4 then 0x8F else 0xBF, n % 0x08⟩
  else .inl '\uFFFD'

-- A byte that cannot follow ends the character before it and is read anew.
def decodeFrom : Option Pending → Bytes → Text
  | none, [] => []
  | some _, [] => ['\uFFFD']
  | none, b :: bytes =>
    match lead b with
    | .inl c => c :: decodeFrom none bytes
    | .inr p => decodeFrom (some p) bytes
  | some p, b :: bytes =>
    if p.lower ≤ b.toNat ∧ b.toNat ≤ p.upper then
      let bits := p.bits * 0x40 + b.toNat % 0x40
      if p.needed = 1 then Char.ofNat bits :: decodeFrom none bytes
      else decodeFrom (some ⟨p.needed - 1, 0x80, 0xBF, bits⟩) bytes
    else
      match lead b with
      | .inl c => '\uFFFD' :: c :: decodeFrom none bytes
      | .inr p => '\uFFFD' :: decodeFrom (some p) bytes

def decodeUtf8 (bytes : Bytes) : Text := decodeFrom none bytes

variable {t needle before after x : Text} {c : Char} {bytes : Bytes} {k : Nat}

theorem length_decodeFrom (p : Option Pending) (bytes : Bytes) :
    (decodeFrom p bytes).length ≤ bytes.length + if p.isSome then 1 else 0 := by
  induction bytes generalizing p with
  | nil => cases p <;> simp [decodeFrom]
  | cons b bytes ih =>
    have hnone := ih none
    have hsome := fun p => ih (some p)
    simp only [Option.isSome_none, Option.isSome_some, Bool.false_eq_true, if_false,
      if_true] at hnone hsome
    cases p with
    | none =>
      unfold decodeFrom
      split
      · simpa using hnone
      · next p _ => simpa using hsome p
    | some p =>
      unfold decodeFrom
      dsimp only
      split
      · split
        · simp only [List.length_cons, Option.isSome_some, if_true]
          omega
        · exact Nat.le_succ_of_le (hsome _)
      · split
        · simp only [List.length_cons, Option.isSome_some, if_true]
          omega
        · next p _ =>
          have := hsome p
          simp only [List.length_cons, Option.isSome_some, if_true]
          omega

theorem length_decodeUtf8 (bytes : Bytes) : (decodeUtf8 bytes).length ≤ bytes.length :=
  length_decodeFrom none bytes

/-! ## One character -/

theorem utf8EncodeChar_ascii (h : c.toNat < 128) :
    String.utf8EncodeChar c = [UInt8.ofNat c.toNat] := by
  unfold String.utf8EncodeChar
  exact if_pos (Nat.le_of_lt_succ h)

-- UTF-16 units
def units (c : Char) : Nat := if c.toNat < 0x10000 then 1 else 2

theorem utf8EncodeChar_wide (h : 128 ≤ c.toNat) : (∀ b ∈ String.utf8EncodeChar c, 128 ≤ b.toNat) ∧
    units c < (String.utf8EncodeChar c).length := by
  have hlt : c.val.toNat < 0x110000 := by
    have hvalid := c.valid
    unfold UInt32.isValidChar Nat.isValidChar at hvalid
    omega
  have hwide : 128 ≤ c.val.toNat := h
  unfold String.utf8EncodeChar units Char.toNat
  dsimp only
  rw [if_neg (by omega)]
  by_cases htwo : c.val.toNat ≤ 0x7ff
  · rw [if_pos htwo, if_pos (by omega)]
    simp only [List.forall_mem_cons, List.not_mem_nil, UInt8.toNat_ofNat', List.length_cons,
      List.length_nil]
    exact ⟨⟨by omega, by omega, by simp⟩, by omega⟩
  · rw [if_neg htwo]
    by_cases hthree : c.val.toNat ≤ 0xffff
    · rw [if_pos hthree, if_pos (by omega)]
      simp only [List.forall_mem_cons, List.not_mem_nil, UInt8.toNat_ofNat', List.length_cons,
        List.length_nil]
      exact ⟨⟨by omega, by omega, by omega, by simp⟩, by omega⟩
    · rw [if_neg hthree, if_neg (by omega)]
      simp only [List.forall_mem_cons, List.not_mem_nil, UInt8.toNat_ofNat', List.length_cons,
        List.length_nil]
      exact ⟨⟨by omega, by omega, by omega, by omega, by simp⟩, by omega⟩

theorem length_utf8EncodeChar_le (c : Char) : (String.utf8EncodeChar c).length ≤ 4 := by
  rw [String.length_utf8EncodeChar]
  exact c.utf8Size_le_four

/-! ## Texts -/

@[simp] theorem utf8_nil : utf8 [] = [] := rfl

@[simp] theorem utf8_cons (c : Char) (t : Text) :
    utf8 (c :: t) = String.utf8EncodeChar c ++ utf8 t := rfl

theorem utf8_append (s t : Text) : utf8 (s ++ t) = utf8 s ++ utf8 t := List.flatMap_append

theorem length_utf8_le (t : Text) : (utf8 t).length ≤ 4 * t.length := by
  induction t with
  | nil => exact Nat.le_refl 0
  | cons c t ih =>
    have hc := length_utf8EncodeChar_le c
    rw [utf8_cons, List.length_append, List.length_cons]
    omega

theorem utf8_injective : Function.Injective utf8 := by
  intro s t h
  have hbytes : (String.ofList s).toByteArray = (String.ofList t).toByteArray :=
    congrArg List.toByteArray h
  exact String.ofList_injective (String.toByteArray_inj.mp hbytes)

-- The length of a JavaScript string.
def unitLength (t : Text) : Nat := (t.map units).sum

def Ascii (t : Text) : Prop := ∀ c ∈ t, c.toNat < 128

instance (t : Text) : Decidable (Ascii t) := List.decidableBAll (fun c : Char => c.toNat < 128) t

@[simp] theorem unitLength_cons (c : Char) (t : Text) :
    unitLength (c :: t) = units c + unitLength t := rfl

/-- Counting units and counting bytes differ as soon as there is another character than ASCII. -/
theorem unitLength_le (t : Text) :
    unitLength t ≤ (utf8 t).length ∧ (unitLength t = (utf8 t).length ↔ Ascii t) := by
  induction t with
  | nil => exact ⟨Nat.le_refl 0, iff_of_true rfl fun c hc => by cases hc⟩
  | cons c t ih =>
    obtain ⟨hle, hiff⟩ := ih
    unfold Ascii at hiff ⊢
    rw [unitLength_cons, utf8_cons, List.length_append, List.forall_mem_cons, ← hiff]
    by_cases hc : c.toNat < 128
    · have hunits : units c = 1 := if_pos (by omega)
      rw [utf8EncodeChar_ascii hc, hunits, List.length_singleton]
      omega
    · have hmore := (utf8EncodeChar_wide (Nat.le_of_not_lt hc)).2
      omega

/-! ## Reading back -/

theorem decodeFrom_lead {b : UInt8} {p : Pending} (h : lead b = .inr p) (bytes : Bytes) :
    decodeFrom none (b :: bytes) = decodeFrom (some p) bytes := by
  rw [decodeFrom, h]

theorem decodeFrom_more {p : Pending} {k : Nat} (hlow : p.lower ≤ k % 0x40 + 0x80)
    (hhigh : k % 0x40 + 0x80 ≤ p.upper) (hneeded : p.needed ≠ 1) (bytes : Bytes) :
    decodeFrom (some p) (UInt8.ofNat (k % 0x40 + 0x80) :: bytes) =
      decodeFrom (some ⟨p.needed - 1, 0x80, 0xBF, p.bits * 0x40 + k % 0x40⟩) bytes := by
  have hbyte : (UInt8.ofNat (k % 0x40 + 0x80)).toNat = k % 0x40 + 0x80 := by
    rw [UInt8.toNat_ofNat']
    omega
  have hbits : (k % 0x40 + 0x80) % 0x40 = k % 0x40 := by omega
  rw [decodeFrom]
  dsimp only
  rw [hbyte, if_pos ⟨hlow, hhigh⟩, if_neg hneeded, hbits]

theorem decodeFrom_last {p : Pending} {k : Nat} (hlow : p.lower ≤ k % 0x40 + 0x80)
    (hhigh : k % 0x40 + 0x80 ≤ p.upper) (hneeded : p.needed = 1) (bytes : Bytes) :
    decodeFrom (some p) (UInt8.ofNat (k % 0x40 + 0x80) :: bytes) =
      Char.ofNat (p.bits * 0x40 + k % 0x40) :: decodeFrom none bytes := by
  have hbyte : (UInt8.ofNat (k % 0x40 + 0x80)).toNat = k % 0x40 + 0x80 := by
    rw [UInt8.toNat_ofNat']
    omega
  have hbits : (k % 0x40 + 0x80) % 0x40 = k % 0x40 := by omega
  rw [decodeFrom]
  dsimp only
  rw [hbyte, if_pos ⟨hlow, hhigh⟩, if_pos hneeded, hbits]

theorem lead_two {n : Nat} (hlow : 0xC2 ≤ n) (hhigh : n ≤ 0xDF) :
    lead (UInt8.ofNat n) = .inr ⟨1, 0x80, 0xBF, n % 0x20⟩ := by
  unfold lead
  rw [UInt8.toNat_ofNat', Nat.mod_eq_of_lt (by omega), if_neg (by omega), if_pos ⟨hlow, hhigh⟩]

theorem lead_three {n : Nat} (hlow : 0xE0 ≤ n) (hhigh : n ≤ 0xEF) :
    lead (UInt8.ofNat n) = .inr ⟨2, if n = 0xE0 then 0xA0 else 0x80,
      if n = 0xED then 0x9F else 0xBF, n % 0x10⟩ := by
  unfold lead
  rw [UInt8.toNat_ofNat', Nat.mod_eq_of_lt (by omega), if_neg (by omega), if_neg (by omega),
    if_pos ⟨hlow, hhigh⟩]

theorem lead_four {n : Nat} (hlow : 0xF0 ≤ n) (hhigh : n ≤ 0xF4) :
    lead (UInt8.ofNat n) = .inr ⟨3, if n = 0xF0 then 0x90 else 0x80,
      if n = 0xF4 then 0x8F else 0xBF, n % 0x08⟩ := by
  unfold lead
  rw [UInt8.toNat_ofNat', Nat.mod_eq_of_lt (by omega), if_neg (by omega), if_neg (by omega),
    if_neg (by omega), if_pos ⟨hlow, hhigh⟩]

/-- The bounds on the bytes that follow exclude what no character is written as, and only that. -/
theorem decodeFrom_utf8EncodeChar (c : Char) (bytes : Bytes) :
    decodeFrom none (String.utf8EncodeChar c ++ bytes) = c :: decodeFrom none bytes := by
  have hofNat : Char.ofNat c.val.toNat = c := Char.ofNat_toNat c
  have hvalid := c.valid
  unfold UInt32.isValidChar Nat.isValidChar at hvalid
  unfold String.utf8EncodeChar
  generalize c.val.toNat = v at hofNat hvalid
  dsimp only
  by_cases hone : v ≤ 0x7f
  · rw [if_pos hone, List.singleton_append, decodeFrom, lead]
    rw [UInt8.toNat_ofNat', Nat.mod_eq_of_lt (by omega), if_pos (by omega), hofNat]
  · rw [if_neg hone]
    by_cases htwo : v ≤ 0x7ff
    · have hbits : (v / 64 % 0x20 + 0xc0) % 0x20 * 0x40 + v % 0x40 = v := by omega
      rw [if_pos htwo]
      simp only [List.cons_append, List.nil_append]
      rw [decodeFrom_lead (lead_two (by omega) (by omega)),
        decodeFrom_last (by dsimp only; omega) (by dsimp only; omega) rfl, hbits, hofNat]
    · rw [if_neg htwo]
      by_cases hthree : v ≤ 0xffff
      · have hbits : ((v / 4096 % 0x10 + 0xe0) % 0x10 * 0x40 + v / 64 % 0x40) * 0x40 + v % 0x40 =
            v := by omega
        rw [if_pos hthree]
        simp only [List.cons_append, List.nil_append]
        rw [decodeFrom_lead (lead_three (by omega) (by omega)),
          decodeFrom_more (by dsimp only; split <;> omega) (by dsimp only; split <;> omega)
            (by dsimp only; omega),
          decodeFrom_last (by dsimp only; omega) (by dsimp only; omega) rfl]
        dsimp only
        rw [hbits, hofNat]
      · have hbits : (((v / 262144 % 0x08 + 0xf0) % 0x08 * 0x40 + v / 4096 % 0x40) * 0x40 +
            v / 64 % 0x40) * 0x40 + v % 0x40 = v := by omega
        rw [if_neg hthree]
        simp only [List.cons_append, List.nil_append]
        rw [decodeFrom_lead (lead_four (by omega) (by omega)),
          decodeFrom_more (by dsimp only; split <;> omega) (by dsimp only; split <;> omega)
            (by dsimp only; omega),
          decodeFrom_more (by dsimp only; omega) (by dsimp only; omega) (by dsimp only; omega),
          decodeFrom_last (by dsimp only; omega) (by dsimp only; omega) rfl]
        dsimp only
        rw [hbits, hofNat]

theorem decodeUtf8_utf8 (t : Text) : decodeUtf8 (utf8 t) = t := by
  unfold decodeUtf8
  induction t with
  | nil => rfl
  | cons c t ih => rw [utf8_cons, decodeFrom_utf8EncodeChar, ih]
/-! ## Occurrences -/

-- The text before the first occurrence, and what follows it.
def cut (needle : Text) : Text → Option (Text × Text)
  | [] => none
  | c :: t =>
    if needle.isPrefixOf (c :: t) then some ([], (c :: t).drop needle.length)
    else (cut needle t).map fun p => (c :: p.1, p.2)

-- `t.indexOf(needle)`, for a text that is not empty; `none` is -1.
def indexOf (needle t : Text) : Option Nat := (cut needle t).map fun p => unitLength p.1

theorem cut_eq_append (h : cut needle t = some (before, after)) :
    t = before ++ needle ++ after := by
  induction t generalizing before with
  | nil => cases h
  | cons c t ih =>
    unfold cut at h
    split at h
    · next hfound =>
      cases h
      obtain ⟨rest, hrest⟩ := List.isPrefixOf_iff_prefix.mp hfound
      rw [← hrest, List.drop_left, List.nil_append]
    · obtain ⟨p, hp, heq⟩ := Option.map_eq_some_iff.mp h
      cases heq
      rw [ih hp, List.cons_append, List.cons_append]

/-- No occurrence comes before the first one. -/
theorem cut_first {other rest : Text} (h : cut needle t = some (before, after))
    (hother : t = other ++ needle ++ rest) : before <+: other := by
  induction t generalizing before other with
  | nil => cases h
  | cons c t ih =>
    unfold cut at h
    split at h
    · cases h
      exact List.nil_prefix
    · next hfound =>
      obtain ⟨p, hp, heq⟩ := Option.map_eq_some_iff.mp h
      cases heq
      cases other with
      | nil =>
        rw [List.isPrefixOf_iff_prefix] at hfound
        exact absurd ⟨rest, hother.symm⟩ hfound
      | cons d other =>
        rw [List.cons_append, List.cons_append] at hother
        obtain ⟨rfl, htail⟩ := List.cons.inj hother
        exact (List.prefix_cons_inj c).mpr (ih hp htail)

/-- An ASCII text at the start of the bytes is at the start of the text. -/
theorem prefix_of_utf8 (hascii : Ascii needle) (h : utf8 needle <+: utf8 t) :
    needle <+: t := by
  induction needle generalizing t with
  | nil => exact List.nil_prefix
  | cons a needle ih =>
    obtain ⟨ha, htail⟩ := List.forall_mem_cons.mp hascii
    rw [utf8_cons, utf8EncodeChar_ascii ha, List.singleton_append] at h
    cases t with
    | nil => exact absurd (List.prefix_nil.mp h) (List.cons_ne_nil _ _)
    | cons c t =>
      rw [utf8_cons] at h
      by_cases hc : c.toNat < 128
      · rw [utf8EncodeChar_ascii hc, List.singleton_append, List.cons_prefix_cons] at h
        have hsame : a = c := by
          have := congrArg UInt8.toNat h.1
          rw [UInt8.toNat_ofNat', UInt8.toNat_ofNat'] at this
          exact Char.toNat_inj.mp (by omega)
        rw [hsame]
        exact (List.prefix_cons_inj c).mpr (ih htail h.2)
      · -- the first byte of another character is no ASCII
        obtain ⟨hhigh, hlength⟩ := utf8EncodeChar_wide (Nat.le_of_not_lt hc)
        cases hbytes : String.utf8EncodeChar c with
        | nil => exact absurd hbytes String.utf8EncodeChar_ne_nil
        | cons b bytes =>
          rw [hbytes, List.cons_append, List.cons_prefix_cons] at h
          have hb := hhigh b (hbytes ▸ List.mem_cons_self)
          rw [← h.1, UInt8.toNat_ofNat'] at hb
          omega

/-- An ASCII text stands in the bytes only where it stands in the text. -/
theorem occurrence_of_utf8 (hne : needle ≠ []) (hascii : Ascii needle)
    (h : utf8 needle <+: (utf8 t).drop k) :
    ∃ before after, t = before ++ needle ++ after ∧ (utf8 before).length = k := by
  induction t generalizing k with
  | nil =>
    rw [utf8_nil, List.drop_nil, List.prefix_nil] at h
    cases needle with
    | nil => exact absurd rfl hne
    | cons a needle =>
      rw [utf8_cons, List.append_eq_nil_iff] at h
      exact absurd h.1 String.utf8EncodeChar_ne_nil
  | cons c t ih =>
    by_cases hk : k = 0
    · rw [hk, List.drop_zero] at h
      obtain ⟨after, heq⟩ := prefix_of_utf8 hascii h
      exact ⟨[], after, heq.symm, hk.symm⟩
    · rw [utf8_cons, List.drop_append] at h
      by_cases hinside : k < (String.utf8EncodeChar c).length
      · -- inside a character there are only bytes that are no ASCII
        have hc : 128 ≤ c.toNat := by
          by_contra hc
          rw [utf8EncodeChar_ascii (Nat.lt_of_not_le hc), List.length_singleton] at hinside
          omega
        have hhigh := (utf8EncodeChar_wide hc).1
        cases needle with
        | nil => exact absurd rfl hne
        | cons a needle =>
          have ha := (List.forall_mem_cons.mp hascii).1
          rw [utf8_cons, utf8EncodeChar_ascii ha, List.singleton_append,
            List.drop_eq_getElem_cons hinside, List.cons_append, List.cons_prefix_cons] at h
          have hb := hhigh _ (List.getElem_mem hinside)
          rw [← h.1, UInt8.toNat_ofNat'] at hb
          omega
      · rw [List.drop_eq_nil_of_le (Nat.le_of_not_lt hinside), List.nil_append] at h
        obtain ⟨before, after, heq, hlength⟩ := ih h
        refine ⟨c :: before, after, by rw [heq]; rfl, ?_⟩
        rw [utf8_cons, List.length_append, hlength]
        omega

/-- What follows the first occurrence stands in the bytes at the place that the index names, if and
only if nothing but ASCII comes before it. -/
theorem utf8_prefix_at_index (hne : needle ≠ []) (hneedle : Ascii needle) (hx : Ascii x)
    (h : cut needle t = some (before, after)) :
    utf8 (needle ++ x) <+: (utf8 t).drop (unitLength before) ↔ Ascii before ∧ x <+: after := by
  obtain ⟨hle, hiff⟩ := unitLength_le before
  have heq := cut_eq_append h
  apply Iff.intro
  · intro hfound
    have hneedle' : utf8 needle <+: (utf8 t).drop (unitLength before) := by
      rw [utf8_append] at hfound
      exact (List.prefix_append _ _).trans hfound
    obtain ⟨other, rest, hother, hlength⟩ := occurrence_of_utf8 hne hneedle hneedle'
    obtain ⟨more, rfl⟩ := cut_first h hother
    rw [utf8_append, List.length_append] at hlength
    have hbefore : Ascii before := hiff.mp (by omega)
    refine ⟨hbefore, ?_⟩
    rw [hiff.mpr hbefore, heq, List.append_assoc, utf8_append before, List.drop_left] at hfound
    have hboth : Ascii (needle ++ x) := List.forall_mem_append.mpr ⟨hneedle, hx⟩
    exact (List.prefix_append_right_inj needle).mp (prefix_of_utf8 hboth hfound)
  · rintro ⟨hbefore, rest, rfl⟩
    rw [hiff.mpr hbefore, heq, List.append_assoc, utf8_append before, List.drop_left,
      ← List.append_assoc, utf8_append (needle ++ x)]
    exact List.prefix_append _ _

end Lib.Utf8
