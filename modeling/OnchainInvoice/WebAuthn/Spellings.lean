import OnchainInvoice.WebAuthn.CredentialIds

/-!
# The spellings of a credential id

A spelling is read back as the credential that it spells, unless it is a base64 text that begins
like a hexadecimal one.
-/

namespace OnchainInvoice.WebAuthn

open Lib.ByteTexts Lib.Tables Lib.Trimming Server WalletLog
open Lib.Casing (isWhite)

/-! ## Spellings -/

-- Base64 in either alphabet, padded or not, and hexadecimal digits of either case.
inductive Spells (x : Bytes) : String → Prop
  | base64 (url padded : Bool) :
    Spells x (String.ofList (encode url x ++ if padded then padding x else []))
  | hex {t : Text} (digits : Hex x t) : Spells x (String.ofList ('0' :: 'x' :: t))

-- There are bytes, and base64 does not begin with `0x`.
def Readable (x : Bytes) : Prop := x ≠ [] ∧ ¬['0', 'x'] <+: encode false x

instance (x : Bytes) : Decidable (Readable x) := inferInstanceAs (Decidable (_ ∧ ¬_))

variable {x y : Bytes} {a b : String} {S : Set Bytes}

theorem trim_of_no_space {t : Text} (h : ∀ c ∈ t, isWhite c = false) :
    trim (String.ofList t) = String.ofList t := by
  have hbare : Bare isWhite t :=
    ⟨fun c hc => h c (List.mem_of_mem_head? hc), fun c hc => h c (List.mem_of_mem_getLast? hc)⟩
  have htrim : trimmed isWhite ([] ++ t ++ []) = t :=
    trimmed_of_bare (fun _ hc => absurd hc List.not_mem_nil)
      (fun _ hc => absurd hc List.not_mem_nil) hbare
  rw [List.nil_append, List.append_nil] at htrim
  rw [trim, String.toList_ofList, htrim]

theorem isWhite_digit (url : Bool) {n : Nat} (h : n < 64) :
    isWhite (digit url n) = false := by
  have hall : ∀ url : Bool, ∀ n : Fin 64, isWhite (digit url n) = false := by decide
  exact hall url ⟨n, h⟩

theorem isWhite_of_hexValue {c : Char} {n : Nat} (h : hexValue c = some n) :
    isWhite c = false := by
  have hnone : ∀ w ∈ Lib.Casing.WHITE, hexValue w = none :=
    Lib.Casing.forall_of_all (by decide)
  rw [← Bool.not_eq_true]
  intro hwhite
  rw [hnone c (Lib.Casing.mem_white hwhite)] at h
  cases h

theorem no_space_of_hex {t : Text} (h : Hex x t) : ∀ c ∈ t, isWhite c = false := by
  induction h with
  | nil => simp
  | cons high low _ ih =>
    rw [List.forall_mem_cons, List.forall_mem_cons]
    exact ⟨isWhite_of_hexValue high, isWhite_of_hexValue low, ih⟩

theorem Spells.trim (h : Spells x a) : trim a = a := by
  cases h with
  | base64 url padded =>
    apply trim_of_no_space
    intro c hc
    rcases List.mem_append.mp hc with hc | hc
    · rcases List.mem_map.mp hc with ⟨n, hn, rfl⟩
      exact isWhite_digit url (lt_of_mem_sextets n hn)
    · cases padded with
      | false => exact absurd hc List.not_mem_nil
      | true =>
        rw [List.eq_of_mem_replicate hc]
        decide
  | hex digits =>
    apply trim_of_no_space
    rw [List.forall_mem_cons, List.forall_mem_cons]
    exact ⟨by decide, by decide, no_space_of_hex digits⟩

/-! ## Reading a spelling -/

theorem hexToBytes_of_hex {t : Text} (h : Hex x t) : hexToBytes t = x := by
  induction h with
  | nil => rfl
  | @cons a c d bytes t high low _ ih =>
    have ha := a.toNat_lt
    rw [hexToBytes, ih, parseByte, high]
    dsimp only
    rw [low]
    dsimp only
    rw [show UInt8.ofNat (a.toNat / 16 * 16 + a.toNat % 16) = a from ofNat_eq (by omega)]

theorem length_hexToBytes (t : Text) : (hexToBytes t).length = t.length / 2 := by
  induction t using hexToBytes.induct with
  | case1 c d t ih =>
    rw [hexToBytes, List.length_cons, ih, List.length_cons, List.length_cons]
    omega
  | case2 t h =>
    cases t with
    | nil => rfl
    | cons c t =>
      cases t with
      | nil => simp [hexToBytes]
      | cons d t => exact absurd rfl (h c d t)

theorem isPrefixOf_iff {p t : Text} : p.isPrefixOf t = true ↔ p <+: t := List.isPrefixOf_iff_prefix

theorem credentialIdToBytes_hex {t : Text} (h : Hex x t) :
    credentialIdToBytes (String.ofList ('0' :: 'x' :: t)) = x := by
  unfold credentialIdToBytes
  rw [Spells.trim (.hex h), String.toList_ofList]
  exact hexToBytes_of_hex h

-- Both alphabets have the digits `0` and `x` in the same places.
theorem prefix_encode_iff (url : Bool) : ['0', 'x'] <+: encode url x ↔ [52, 49] <+: sextets x := by
  have hall : ∀ url : Bool, ∀ n : Fin 64,
      ('0' = digit url n ↔ 52 = n.val) ∧ ('x' = digit url n ↔ 49 = n.val) := by decide
  have hlt : ∀ n ∈ sextets x, n < 64 := lt_of_mem_sextets
  unfold encode
  cases hsextets : sextets x with
  | nil => simp
  | cons m rest =>
    rw [hsextets, List.forall_mem_cons] at hlt
    cases rest with
    | nil => simp
    | cons n rest =>
      rw [List.forall_mem_cons] at hlt
      simp only [List.map_cons, List.cons_prefix_cons, List.nil_prefix, and_true]
      rw [(hall url ⟨m, hlt.1⟩).1, (hall url ⟨n, hlt.2.1⟩).2]

theorem two_le_length_encode (url : Bool) (hx : x ≠ []) : 2 ≤ (encode url x).length := by
  have hpos := List.length_pos_of_ne_nil hx
  rw [encode, List.length_map, length_sextets]
  omega

theorem credentialIdToBytes_base64 (hx : Readable x) (url padded : Bool) :
    credentialIdToBytes (String.ofList (encode url x ++ if padded then padding x else [])) = x := by
  have hlength := two_le_length_encode url hx.1
  have hplain : ¬['0', 'x'] <+: encode url x ++ if padded then padding x else [] := by
    intro hlike
    have hencode := List.prefix_of_prefix_length_le hlike (List.prefix_append ..) hlength
    rw [prefix_encode_iff, ← prefix_encode_iff false] at hencode
    exact hx.2 hencode
  have hdecode : decode (encode url x ++ if padded then padding x else []) = x := by
    cases padded with
    | false => exact decode_encode url x 0
    | true => exact decode_encode url x _
  unfold credentialIdToBytes
  rw [Spells.trim (.base64 url padded), String.toList_ofList, if_neg, if_neg]
  · exact hdecode
  · rw [isPrefixOf_iff]
    exact hplain
  · rw [List.isEmpty_iff, List.append_eq_nil_iff]
    rintro ⟨hnil, -⟩
    rw [hnil] at hlength
    cases hlength

/-- A spelling of a readable credential is read as that credential. -/
theorem Spells.bytes (h : Spells x a) (hx : Readable x) : credentialIdToBytes a = x := by
  cases h with
  | base64 url padded => exact credentialIdToBytes_base64 hx url padded
  | hex digits => exact credentialIdToBytes_hex digits

theorem Spells.ne_empty (h : Spells x a) (hx : x ≠ []) : a ≠ "" := by
  intro hempty
  have hlist : a.toList = [] := by rw [hempty]; rfl
  cases h with
  | base64 url padded =>
    have hlength := two_le_length_encode url hx
    rw [String.toList_ofList, List.append_eq_nil_iff] at hlist
    rw [hlist.1] at hlength
    cases hlength
  | hex digits =>
    rw [String.toList_ofList] at hlist
    cases hlist

/-- Two spellings match when they are read as the same bytes, or are the same. -/
theorem Spells.matches_iff (ha : Spells x a) (hb : Spells y b) (hx : x ≠ []) (hy : y ≠ []) :
    credentialIdsMatch (some a) (some b) = true ↔
      a = b ∨ credentialIdToBytes a = credentialIdToBytes b ∧ credentialIdToBytes a ≠ [] := by
  unfold credentialIdsMatch
  dsimp only
  rw [ha.trim, hb.trim, if_neg (not_or.mpr ⟨ha.ne_empty hx, hb.ne_empty hy⟩)]
  by_cases heq : a = b
  · rw [if_pos heq]
    exact iff_of_true rfl (.inl heq)
  · rw [if_neg heq, decide_eq_true_iff, or_iff_right heq]

theorem Spells.matches_iff_eq (ha : Spells x a) (hb : Spells y b) (hx : Readable x)
    (hy : Readable y) : credentialIdsMatch (some a) (some b) = true ↔ x = y := by
  rw [ha.matches_iff hb hx.1 hy.1, ha.bytes hx, hb.bytes hy]
  apply Iff.intro
  · rintro (heq | ⟨heq, -⟩)
    · rw [← ha.bytes hx, heq, hb.bytes hy]
    · exact heq
  · rintro rfl
    exact .inr ⟨rfl, hx.1⟩

/-! ## Credentials that are not readable -/

-- The digits behind `0x` make fewer bytes than they spell.
theorem credentialIdToBytes_ne (hx : x ≠ []) (h : ['0', 'x'] <+: encode false x) :
    credentialIdToBytes (String.ofList (encode false x)) ≠ x := by
  intro hread
  have htrim : trim (String.ofList (encode false x)) = String.ofList (encode false x) := by
    simpa using Spells.trim (.base64 (x := x) false false)
  have hlength := congrArg List.length hread
  unfold credentialIdToBytes at hlength
  rw [htrim, String.toList_ofList, if_neg, if_pos (isPrefixOf_iff.mpr h), length_hexToBytes,
    List.length_drop, encode, List.length_map, length_sextets] at hlength
  · have hpos := List.length_pos_of_ne_nil hx
    omega
  · have htwo := two_le_length_encode false hx
    rw [List.isEmpty_iff]
    intro hnil
    rw [hnil] at htwo
    cases htwo

/-- A credential that is not readable has two spellings that do not match. -/
theorem readable_of_matches
    (h : ∀ a b, Spells x a → Spells x b → credentialIdsMatch (some a) (some b) = true) :
    Readable x := by
  have hspelled : Spells x (String.ofList (encode false x)) := by
    simpa using Spells.base64 (x := x) false false
  have hhex : Spells x (String.ofList ('0' :: 'x' :: hex x)) := .hex (hex_hex x)
  have hx : x ≠ [] := by
    rintro rfl
    have hempty := h _ _ hspelled hspelled
    exact absurd hempty (by decide)
  refine ⟨hx, fun hlike => ?_⟩
  have hne := credentialIdToBytes_ne hx hlike
  have hread := credentialIdToBytes_hex (hex_hex x)
  rcases (hspelled.matches_iff hhex hx hx).mp (h _ _ hspelled hhex) with heq | ⟨heq, -⟩
  · exact hne (heq ▸ hread)
  · exact hne (heq.trans hread)

end OnchainInvoice.WebAuthn
