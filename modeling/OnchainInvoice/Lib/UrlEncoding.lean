import OnchainInvoice.Lib.Utf8

/-!
# Query strings

The pairs of a query string as `application/x-www-form-urlencoded` writes them, and the reader,
which takes any text: what is no escape stands for itself.
-/

namespace Lib.UrlEncoding

open Lib.ByteTexts Lib.Utf8

abbrev Pairs := List (Text × Text)

/-! ## Writing -/

def upperDigit (n : Nat) : Char := if n < 10 then Char.ofNat (n + 48) else Char.ofNat (n + 55)

def percentEncode (b : UInt8) : Text :=
  ['%', upperDigit (b.toNat / 16), upperDigit (b.toNat % 16)]

def unreserved (c : Char) : Bool :=
  c.isAlphanum || c = '*' || c = '-' || c = '.' || c = '_'

def encodeChar (c : Char) : Text :=
  if c = ' ' then ['+']
  else if unreserved c then [c]
  else (String.utf8EncodeChar c).flatMap percentEncode

def encode (t : Text) : Text := t.flatMap encodeChar

def encodePair (pair : Text × Text) : Text := encode pair.1 ++ '=' :: encode pair.2

def serialize (pairs : Pairs) : Text := ['&'].intercalate (pairs.map encodePair)

/-! ## Reading -/

def percent : UInt8 := 0x25
def plus : UInt8 := 0x2B
def ampersand : UInt8 := 0x26
def equals : UInt8 := 0x3D
def blank : UInt8 := 0x20

def hexByte (b : UInt8) : Option Nat := hexValue (Char.ofNat b.toNat)

def percentDecode : Bytes → Bytes
  | b :: h :: l :: bytes =>
    if b = percent then
      match hexByte h, hexByte l with
      | some high, some low => UInt8.ofNat (high * 16 + low) :: percentDecode bytes
      | _, _ => b :: percentDecode (h :: l :: bytes)
    else b :: percentDecode (h :: l :: bytes)
  | bytes => bytes

def plusToBlank (bytes : Bytes) : Bytes := bytes.map fun b => if b = plus then blank else b

def decode (bytes : Bytes) : Text := decodeUtf8 (percentDecode (plusToBlank bytes))

-- Without a sign of equality the value is empty.
def decodePair (bytes : Bytes) : Text × Text :=
  (decode (bytes.takeWhile (· ≠ equals)), decode ((bytes.dropWhile (· ≠ equals)).drop 1))

def parse (t : Text) : Pairs :=
  (((utf8 t).splitOn ampersand).filter (· ≠ [])).map decodePair

/-! ## One character -/

def AsciiBytes (t : Text) : Bytes := t.map fun c => UInt8.ofNat c.toNat

theorem utf8_of_ascii {t : Text} (h : Ascii t) : utf8 t = AsciiBytes t := by
  induction t with
  | nil => rfl
  | cons c t ih =>
    obtain ⟨hc, ht⟩ := List.forall_mem_cons.mp h
    rw [utf8_cons, utf8EncodeChar_ascii hc, ih ht]
    rfl

-- What an encoded text consists of: neither a separator nor a question mark.
def Plain (c : Char) : Prop :=
  c.toNat < 128 ∧ c.toNat ≠ 0x26 ∧ c.toNat ≠ 0x3D ∧ c.toNat ≠ 0x3F

instance (c : Char) : Decidable (Plain c) := inferInstanceAs (Decidable (_ ∧ _))

theorem unreserved_spec {c : Char} (h : unreserved c = true) :
    Plain c ∧ c.toNat ≠ 0x2B ∧ c.toNat ≠ 0x25 := by
  have hbounds : (65 ≤ c.toNat ∧ c.toNat ≤ 90) ∨ (97 ≤ c.toNat ∧ c.toNat ≤ 122) ∨
      (48 ≤ c.toNat ∧ c.toNat ≤ 57) ∨ c = '*' ∨ c = '-' ∨ c = '.' ∨ c = '_' := by
    delta unreserved Char.isAlphanum Char.isAlpha Char.isUpper Char.isLower Char.isDigit at h
    simp only [Bool.or_eq_true, Bool.and_eq_true, decide_eq_true_eq, or_assoc] at h
    exact h
  unfold Plain
  rcases hbounds with h | h | h | rfl | rfl | rfl | rfl
  · omega
  · omega
  · omega
  all_goals decide

-- The two digits of an escape are read back, and neither stands for something else.
theorem upperDigit_spec {n : Nat} (h : n < 16) :
    hexByte (UInt8.ofNat (upperDigit n).toNat) = some n ∧ unreserved (upperDigit n) = true := by
  have hall : ∀ n : Fin 16, hexByte (UInt8.ofNat (upperDigit n).toNat) = some n.val ∧
      unreserved (upperDigit n) = true := by decide
  exact hall ⟨n, h⟩

theorem percentDecode_cons {b : UInt8} (h : b ≠ percent) (bytes : Bytes) :
    percentDecode (b :: bytes) = b :: percentDecode bytes := by
  rcases bytes with _ | ⟨b₁, _ | ⟨b₂, bytes⟩⟩
  · rfl
  · rfl
  · rw [percentDecode, if_neg h]

theorem plusToBlank_append (bytes bytes' : Bytes) :
    plusToBlank (bytes ++ bytes') = plusToBlank bytes ++ plusToBlank bytes' := List.map_append

theorem plusToBlank_unreserved {c : Char} (h : unreserved c = true) :
    plusToBlank (AsciiBytes [c]) = [UInt8.ofNat c.toNat] ∧ UInt8.ofNat c.toNat ≠ percent := by
  obtain ⟨⟨hascii, -⟩, hplus, hpercent⟩ := unreserved_spec h
  have hbyte : (UInt8.ofNat c.toNat).toNat = c.toNat := by
    rw [UInt8.toNat_ofNat']
    omega
  have hne : UInt8.ofNat c.toNat ≠ plus := fun heq => hplus (hbyte.symm.trans (congrArg _ heq))
  apply And.intro
  · change [if UInt8.ofNat c.toNat = plus then blank else UInt8.ofNat c.toNat] = _
    rw [if_neg hne]
  · exact fun heq => hpercent (hbyte.symm.trans (congrArg _ heq))

theorem percentDecode_percentEncode (b : UInt8) (bytes : Bytes) :
    percentDecode (plusToBlank (AsciiBytes (percentEncode b)) ++ bytes) =
      b :: percentDecode bytes := by
  have hb := b.toNat_lt
  obtain ⟨hhigh, hhigh'⟩ := upperDigit_spec (n := b.toNat / 16) (by omega)
  obtain ⟨hlow, hlow'⟩ := upperDigit_spec (n := b.toNat % 16) (by omega)
  have hbytes : plusToBlank (AsciiBytes (percentEncode b)) =
      [percent, UInt8.ofNat (upperDigit (b.toNat / 16)).toNat,
        UInt8.ofNat (upperDigit (b.toNat % 16)).toNat] := by
    have hhead : plusToBlank (AsciiBytes ['%']) = [percent] := by decide
    calc plusToBlank (AsciiBytes (percentEncode b))
      _ = plusToBlank (AsciiBytes ['%']) ++ (plusToBlank (AsciiBytes [upperDigit (b.toNat / 16)]) ++
          plusToBlank (AsciiBytes [upperDigit (b.toNat % 16)])) := rfl
      _ = _ := by
        rw [hhead, (plusToBlank_unreserved hhigh').1, (plusToBlank_unreserved hlow').1]
        rfl
  have hvalue : b.toNat / 16 * 16 + b.toNat % 16 = b.toNat := by omega
  rw [hbytes, List.cons_append, List.cons_append, List.cons_append, List.nil_append, percentDecode,
    if_pos rfl, hhigh, hlow]
  dsimp only
  rw [hvalue, UInt8.ofNat_toNat]

theorem percentDecode_flatMap (bs bytes : Bytes) :
    percentDecode (plusToBlank (AsciiBytes (bs.flatMap percentEncode)) ++ bytes) =
      bs ++ percentDecode bytes := by
  induction bs with
  | nil => rfl
  | cons b bs ih =>
    have hcons : AsciiBytes ((b :: bs).flatMap percentEncode) =
        AsciiBytes (percentEncode b) ++ AsciiBytes (bs.flatMap percentEncode) := List.map_append
    rw [hcons, plusToBlank_append, List.append_assoc, percentDecode_percentEncode, ih,
      List.cons_append]

theorem percentDecode_encodeChar (c : Char) (bytes : Bytes) :
    percentDecode (plusToBlank (AsciiBytes (encodeChar c)) ++ bytes) =
      String.utf8EncodeChar c ++ percentDecode bytes := by
  unfold encodeChar
  split
  · rename_i hblank
    have hplus : plusToBlank (AsciiBytes ['+']) = [blank] := by decide
    rw [hplus, hblank, List.singleton_append, percentDecode_cons (by decide)]
    rfl
  · split
    · rename_i hunreserved
      obtain ⟨hbytes, hne⟩ := plusToBlank_unreserved hunreserved
      have hascii := (unreserved_spec hunreserved).1.1
      rw [hbytes, List.singleton_append, percentDecode_cons hne, utf8EncodeChar_ascii hascii,
        List.singleton_append]
    · exact percentDecode_flatMap _ bytes

theorem percentDecode_encode (t : Text) (bytes : Bytes) :
    percentDecode (plusToBlank (AsciiBytes (encode t)) ++ bytes) =
      utf8 t ++ percentDecode bytes := by
  induction t with
  | nil => rfl
  | cons c t ih =>
    have hcons : AsciiBytes (encode (c :: t)) =
        AsciiBytes (encodeChar c) ++ AsciiBytes (encode t) := List.map_append
    rw [hcons, plusToBlank_append, List.append_assoc, percentDecode_encodeChar, ih, utf8_cons,
      List.append_assoc]

theorem decode_encode (t : Text) : decode (AsciiBytes (encode t)) = t := by
  have h := percentDecode_encode t []
  have hnil : percentDecode [] = [] := rfl
  rw [hnil, List.append_nil, List.append_nil] at h
  unfold decode
  rw [h, decodeUtf8_utf8]

/-! ## Whole queries -/

theorem plain_encode {t : Text} {c : Char} (h : c ∈ encode t) : Plain c := by
  obtain ⟨d, -, hc⟩ := List.mem_flatMap.mp h
  unfold encodeChar at hc
  split at hc
  · rw [List.mem_singleton.mp hc]
    decide
  · split at hc
    · rename_i hunreserved
      rw [List.mem_singleton.mp hc]
      exact (unreserved_spec hunreserved).1
    · obtain ⟨b, -, hdigit⟩ := List.mem_flatMap.mp hc
      have hb := b.toNat_lt
      unfold percentEncode at hdigit
      simp only [List.mem_cons, List.not_mem_nil, or_false] at hdigit
      rcases hdigit with rfl | rfl | rfl
      · decide
      · exact (unreserved_spec (upperDigit_spec (by omega)).2).1
      · exact (unreserved_spec (upperDigit_spec (by omega)).2).1

theorem ascii_encode (t : Text) : Ascii (encode t) := fun _ hc => (plain_encode hc).1

theorem notMem_asciiBytes {t : Text} {n : Nat} (hascii : Ascii t) (h : ∀ c ∈ t, c.toNat ≠ n)
    (hn : n < 256) : UInt8.ofNat n ∉ AsciiBytes t := by
  intro hmem
  obtain ⟨c, hc, heq⟩ := List.mem_map.mp hmem
  have hvalue := congrArg UInt8.toNat heq
  have hlt := hascii c hc
  rw [UInt8.toNat_ofNat', UInt8.toNat_ofNat'] at hvalue
  exact h c hc (by omega)

theorem mem_encodePair {pair : Text × Text} {c : Char} (h : c ∈ encodePair pair) :
    Plain c ∨ c = '=' := by
  unfold encodePair at h
  rcases List.mem_append.mp h with hname | hrest
  · exact .inl (plain_encode hname)
  · rcases List.mem_cons.mp hrest with hsign | hvalue
    · exact .inr hsign
    · exact .inl (plain_encode hvalue)

theorem mem_intercalate {α : Type} {x sep : α} {ls : List (List α)}
    (h : x ∈ [sep].intercalate ls) : x = sep ∨ ∃ l ∈ ls, x ∈ l := by
  induction ls with
  | nil => cases h
  | cons l ls ih =>
    by_cases hne : ls = []
    · subst hne
      rw [List.intercalate_singleton] at h
      exact .inr ⟨l, List.mem_singleton_self l, h⟩
    · rw [List.intercalate_cons_of_ne_nil hne, List.append_assoc, List.singleton_append] at h
      rcases List.mem_append.mp h with hl | hrest
      · exact .inr ⟨l, List.mem_cons_self, hl⟩
      · rcases List.mem_cons.mp hrest with hsep | hls
        · exact .inl hsep
        · rcases ih hls with hsep | ⟨l', hl', hx⟩
          · exact .inl hsep
          · exact .inr ⟨l', List.mem_cons_of_mem l hl', hx⟩

theorem mem_serialize {pairs : Pairs} {c : Char} (h : c ∈ serialize pairs) :
    Plain c ∨ c = '&' ∨ c = '=' := by
  rcases mem_intercalate h with hsep | ⟨t, ht, hc⟩
  · exact .inr (.inl hsep)
  · obtain ⟨pair, -, rfl⟩ := List.mem_map.mp ht
    rcases mem_encodePair hc with hplain | hsign
    · exact .inl hplain
    · exact .inr (.inr hsign)

theorem ascii_serialize (pairs : Pairs) : Ascii (serialize pairs) := by
  intro c hc
  rcases mem_serialize hc with hplain | rfl | rfl
  · exact hplain.1
  · decide
  · decide

theorem ampersand_notMem (pair : Text × Text) : ampersand ∉ AsciiBytes (encodePair pair) := by
  have hchars : ∀ c ∈ encodePair pair, c.toNat < 128 ∧ c.toNat ≠ 0x26 := by
    intro c hc
    rcases mem_encodePair hc with hplain | rfl
    · exact ⟨hplain.1, hplain.2.1⟩
    · decide
  exact notMem_asciiBytes (fun c hc => (hchars c hc).1) (fun c hc => (hchars c hc).2) (by decide)

theorem decodePair_encodePair (pair : Text × Text) :
    decodePair (AsciiBytes (encodePair pair)) = pair := by
  have hbytes : AsciiBytes (encodePair pair) =
      AsciiBytes (encode pair.1) ++ equals :: AsciiBytes (encode pair.2) := by
    unfold AsciiBytes encodePair
    rw [List.map_append]
    rfl
  have hname : ∀ b ∈ AsciiBytes (encode pair.1), decide (b ≠ equals) = true := by
    intro b hb
    apply decide_eq_true
    rintro rfl
    exact notMem_asciiBytes (ascii_encode pair.1) (fun c hc => (plain_encode hc).2.2.1)
      (by decide) hb
  unfold decodePair
  rw [hbytes, List.takeWhile_append_of_pos hname, List.dropWhile_append_of_pos hname]
  simp only [List.takeWhile_cons, List.dropWhile_cons, ne_eq, not_true_eq_false, decide_false,
    Bool.false_eq_true, if_false, List.append_nil, List.drop_one, List.tail_cons, decode_encode]

theorem asciiBytes_intercalate (ts : List Text) :
    AsciiBytes (['&'].intercalate ts) = [ampersand].intercalate (ts.map AsciiBytes) := by
  induction ts with
  | nil => rfl
  | cons t ts ih =>
    by_cases hne : ts = []
    · subst hne
      rw [List.intercalate_singleton, List.map_singleton, List.intercalate_singleton]
    · have hne' : ts.map AsciiBytes ≠ [] := by simpa using hne
      rw [List.map_cons, List.intercalate_cons_of_ne_nil hne, List.intercalate_cons_of_ne_nil hne',
        ← ih]
      unfold AsciiBytes
      rw [List.map_append, List.map_append]
      rfl

/-- What is written is read back, whatever texts the pairs consist of. -/
theorem parse_serialize (pairs : Pairs) : parse (serialize pairs) = pairs := by
  by_cases hpairs : pairs = []
  · subst hpairs
    decide
  · have hbytes : utf8 (serialize pairs) =
        [ampersand].intercalate (pairs.map fun pair => AsciiBytes (encodePair pair)) := by
      rw [utf8_of_ascii (ascii_serialize pairs), serialize, asciiBytes_intercalate, List.map_map]
      rfl
    have hsplit : (utf8 (serialize pairs)).splitOn ampersand =
        pairs.map fun pair => AsciiBytes (encodePair pair) := by
      rw [hbytes]
      apply List.splitOn_intercalate
      · exact List.forall_mem_map.mpr fun pair _ => ampersand_notMem pair
      · simpa using hpairs
    have hfilter : (pairs.map fun pair => AsciiBytes (encodePair pair)).filter (· ≠ []) =
        pairs.map fun pair => AsciiBytes (encodePair pair) := by
      apply List.filter_eq_self.mpr
      intro bytes hmem
      obtain ⟨pair, -, rfl⟩ := List.mem_map.mp hmem
      apply decide_eq_true
      unfold AsciiBytes encodePair
      simp
    unfold parse
    rw [hsplit, hfilter, List.map_map]
    calc pairs.map (decodePair ∘ fun pair => AsciiBytes (encodePair pair))
      _ = pairs.map id := List.map_congr_left fun pair _ => decodePair_encodePair pair
      _ = pairs := List.map_id pairs

-- A question mark is escaped.
theorem questionMark_notMem (pairs : Pairs) : '?' ∉ serialize pairs := by
  intro h
  rcases mem_serialize h with hplain | heq | heq
  · exact hplain.2.2.2 rfl
  · cases heq
  · cases heq

end Lib.UrlEncoding
