import OnchainInvoice.Lib.Json

/-!
# What is written is read back

`parse (stringify v) = some v` for every value.  A reader is given the text of a value with more
text after it; only a number cares what that is, since its literal ends where no number goes on.
-/

namespace Lib.Json

-- A number ends here.
def Stops (rest : Text) : Prop := ∀ c ∈ rest.head?, isNumberChar c = false

theorem takeWhile_append_stop {p : Char → Bool} {xs rest : Text} (hxs : ∀ c ∈ xs, p c = true)
    (hrest : ∀ c ∈ rest.head?, p c = false) :
    (xs ++ rest).takeWhile p = xs ∧ (xs ++ rest).dropWhile p = rest := by
  rw [List.takeWhile_append_of_pos hxs, List.dropWhile_append_of_pos hxs]
  cases rest with
  | nil => simp
  | cons c t =>
    have hc : p c = false := hrest c rfl
    simp [hc]

theorem skipSpace_cons {c : Char} {t : Text} (h : isSpace c = false) :
    skipSpace (c :: t) = c :: t := by
  simp [skipSpace, h]

/-! ## Strings -/

theorem hexValue_digitChar {n : Nat} (h : n < 16) : hexValue n.digitChar = some n := by
  revert n
  decide

theorem readPieces_hexDigits {n : Nat} (h : n < 0x20) (t : Text) :
    readPieces (.hex 3 0) (hexDigits n ++ t) = emit (.unit n) (readPieces .plain t) := by
  have hvalue : 16 * (16 * (16 * (n / 4096 % 16) + n / 256 % 16) + n / 16 % 16) + n % 16 = n := by
    omega
  simp [hexDigits, readPieces, hexValue_digitChar (Nat.mod_lt _ (by decide : 0 < 16)), hvalue]

theorem joinPieces_unit {n : Nat} (h : n < 0x20) (ps : List Piece) :
    joinPieces (.unit n :: ps) = Char.ofNat n :: joinPieces ps := by
  have hhigh : isHigh n = false := by simp [isHigh]; omega
  have hlow : isLow n = false := by simp [isLow]; omega
  rcases ps with - | ⟨- | -, ps⟩ <;> simp [joinPieces, hhigh, hlow]

/-- A character as it is written in a string is read as that character. -/
theorem readPieces_escape (c : Char) (t : Text) :
    ∃ p, readPieces .plain (escape c ++ t) = emit p (readPieces .plain t) ∧
      ∀ ps, joinPieces (p :: ps) = c :: joinPieces ps := by
  by_cases hshort : c ∈ ['"', '\\', '\x08', '\x09', '\x0a', '\x0c', '\x0d']
  · refine ⟨.char c, ?_, fun ps => rfl⟩
    simp only [List.mem_cons, List.not_mem_nil, or_false] at hshort
    rcases hshort with rfl | rfl | rfl | rfl | rfl | rfl | rfl <;> rfl
  · simp only [List.mem_cons, List.not_mem_nil, or_false, not_or] at hshort
    obtain ⟨h1, h2, h3, h4, h5, h6, h7⟩ := hshort
    by_cases hcontrol : c.toNat < 0x20
    · refine ⟨.unit c.toNat, ?_, fun ps => ?_⟩
      · have hescape : escape c = '\\' :: 'u' :: hexDigits c.toNat := by
          simp [escape, h1, h2, h3, h4, h5, h6, h7, hcontrol]
        rw [hescape]
        exact readPieces_hexDigits hcontrol t
      · rw [joinPieces_unit hcontrol, Char.ofNat_toNat]
    · refine ⟨.char c, ?_, fun ps => rfl⟩
      have hescape : escape c = [c] := by
        simp [escape, h1, h2, h3, h4, h5, h6, h7, hcontrol]
      simp [hescape, readPieces, h1, h2, hcontrol]

theorem readString_escape (chars rest : Text) :
    readString (chars.flatMap escape ++ '"' :: rest) = some (chars, rest) := by
  have hpieces : ∃ ps, readPieces .plain (chars.flatMap escape ++ '"' :: rest) = some (ps, rest) ∧
      joinPieces ps = chars := by
    induction chars with
    | nil => exact ⟨[], rfl, rfl⟩
    | cons c chars ih =>
      obtain ⟨ps, hread, hjoin⟩ := ih
      obtain ⟨p, hp, hchar⟩ := readPieces_escape c (chars.flatMap escape ++ '"' :: rest)
      refine ⟨p :: ps, ?_, by rw [hchar, hjoin]⟩
      rw [List.flatMap_cons, List.append_assoc, hp, hread]
      rfl
  obtain ⟨ps, hread, hjoin⟩ := hpieces
  simp [readString, hread, hjoin]

/-! ## Numbers -/

theorem isNumberChar_of_isDigit {c : Char} (h : c.isDigit = true) : isNumberChar c = true := by
  simp [isNumberChar, h]

theorem readWhole_toDigits {n : Nat} {rest : Text} (h : ∀ c ∈ rest.head?, c.isDigit = false) :
    readWhole (Nat.toDigits 10 n ++ rest) = some (n, rest) := by
  have hdigits : ∀ c ∈ Nat.toDigits 10 n, c.isDigit = true := fun c hc =>
    Nat.isDigit_of_mem_toDigits (by decide) (by decide) hc
  obtain ⟨htake, hdrop⟩ := takeWhile_append_stop hdigits h
  simp [readWhole, htake, hdrop, Nat.ofDigitChars_ten_toDigits]

theorem readDigits_toDigits (n : Nat) : readDigits (Nat.toDigits 10 n) = some n := by
  have hdigits : ∀ c ∈ Nat.toDigits 10 n, c.isDigit = true := fun c hc =>
    Nat.isDigit_of_mem_toDigits (by decide) (by decide) hc
  have hall : (Nat.toDigits 10 n).all Char.isDigit = true := List.all_eq_true.mpr hdigits
  simp [readDigits, hall, Nat.toDigits_ne_nil, Nat.ofDigitChars_ten_toDigits]

def fractionText (fraction : List (Fin 10)) : Text :=
  if fraction = [] then [] else '.' :: fraction.map fun d => d.val.digitChar

def exponentText (exponent : Int) : Text :=
  if exponent = 0 then []
  else 'e' :: (if exponent < 0 then '-' else '+') :: Nat.toDigits 10 exponent.natAbs

theorem isDigit_digitChar : ∀ d : Fin 10, d.val.digitChar.isDigit = true := by decide

theorem digit_digitChar : ∀ d : Fin 10, Fin.ofNat 10 (d.val.digitChar.toNat - 48) = d := by decide

theorem readFraction_text {fraction : List (Fin 10)} {rest : Text}
    (h : ∀ c ∈ rest.head?, c.isDigit = false ∧ c ≠ '.') :
    readFraction (fractionText fraction ++ rest) = some (fraction, rest) := by
  unfold fractionText
  split
  · next hnil =>
    subst hnil
    cases rest with
    | nil => rfl
    | cons c t =>
      have hc : c ≠ '.' := (h c rfl).2
      simp [readFraction, hc]
  · next hne =>
    have hdigits : ∀ c ∈ fraction.map (fun d => d.val.digitChar), c.isDigit = true := by
      intro c hc
      obtain ⟨d, -, rfl⟩ := List.mem_map.mp hc
      exact isDigit_digitChar d
    obtain ⟨htake, hdrop⟩ := takeWhile_append_stop hdigits fun c hc => (h c hc).1
    have hback : (fraction.map fun d => d.val.digitChar).map
        (fun c => Fin.ofNat 10 (c.toNat - 48)) = fraction := by
      rw [List.map_map]
      exact List.map_id'' digit_digitChar fraction
    rw [List.cons_append, readFraction]
    simp only [htake, hdrop, hback]
    simp [hne]

theorem readExponent_text (exponent : Int) : readExponent (exponentText exponent) = some exponent := by
  unfold exponentText
  split
  · next hzero => rw [hzero]; rfl
  · split
    · have hneg : -(exponent.natAbs : Int) = exponent := by omega
      have hread : readExponent ('e' :: '-' :: Nat.toDigits 10 exponent.natAbs) =
          some (-(exponent.natAbs : Int)) := by
        rw [readExponent, readDigits_toDigits]; rfl
      rw [hread, hneg]
    · have hpos : (exponent.natAbs : Int) = exponent := by omega
      have hread : readExponent ('e' :: '+' :: Nat.toDigits 10 exponent.natAbs) =
          some (exponent.natAbs : Int) := by
        rw [readExponent, readDigits_toDigits]; rfl
      rw [hread, hpos]

theorem head_exponentText (exponent : Int) : ∀ c ∈ (exponentText exponent).head?, c = 'e' := by
  unfold exponentText
  split <;> simp

theorem Literal.stringify_eq (l : Literal) : l.stringify =
    (if l.negative then ['-'] else []) ++ (Nat.toDigits 10 l.whole ++
      (fractionText l.fraction ++ exponentText l.exponent)) := by
  simp [stringify, fractionText, exponentText]

theorem readSign_stringify (l : Literal) {t : Text} (h : ∀ c ∈ t.head?, c.isDigit = true) :
    readSign ((if l.negative then ['-'] else []) ++ t) = (l.negative, t) := by
  cases l.negative with
  | true => rfl
  | false =>
    cases t with
    | nil => rfl
    | cons c t =>
      have hc : c ≠ '-' := by
        rintro rfl
        exact absurd (h '-' rfl) (by decide)
      simp [readSign, hc]

theorem head_toDigits (n : Nat) (rest : Text) :
    ∃ c t, Nat.toDigits 10 n ++ rest = c :: t ∧ c.isDigit = true := by
  cases hdigits : Nat.toDigits 10 n with
  | nil => exact absurd hdigits Nat.toDigits_ne_nil
  | cons c t =>
    refine ⟨c, t ++ rest, rfl, ?_⟩
    exact Nat.isDigit_of_mem_toDigits (by decide) (by decide) (hdigits ▸ List.mem_cons_self ..)

theorem readLiteral_stringify (l : Literal) : readLiteral l.stringify = some l := by
  obtain ⟨c, t, hhead, hc⟩ :=
    head_toDigits l.whole (fractionText l.fraction ++ exponentText l.exponent)
  have hsign : readSign l.stringify =
      (l.negative, Nat.toDigits 10 l.whole ++ (fractionText l.fraction ++ exponentText l.exponent)) := by
    rw [Literal.stringify_eq]
    apply readSign_stringify
    rw [hhead]
    rintro c' hc'
    cases hc'
    exact hc
  have hafter : ∀ c ∈ (exponentText l.exponent).head?, c.isDigit = false ∧ c ≠ '.' := by
    intro c hc
    rw [head_exponentText _ c hc]
    decide
  have hwhole : ∀ c ∈ (fractionText l.fraction ++ exponentText l.exponent).head?,
      c.isDigit = false := by
    unfold fractionText
    split
    · exact fun c hc => (hafter c hc).1
    · intro c hc
      cases hc
      decide
  simp [readLiteral, hsign, readWhole_toDigits hwhole, readFraction_text hafter,
    readExponent_text]

theorem isNumberChar_of_mem_stringify (l : Literal) : ∀ c ∈ l.stringify, isNumberChar c = true := by
  have hdigits : ∀ n, ∀ c ∈ Nat.toDigits 10 n, isNumberChar c = true := fun n c hc =>
    isNumberChar_of_isDigit (Nat.isDigit_of_mem_toDigits (by decide) (by decide) hc)
  intro c hc
  rw [Literal.stringify_eq, List.mem_append, List.mem_append, List.mem_append] at hc
  rcases hc with hc | hc | hc | hc
  · split at hc
    · rw [List.mem_singleton.mp hc]
      decide
    · cases hc
  · exact hdigits _ c hc
  · unfold fractionText at hc
    split at hc
    · cases hc
    · rcases List.mem_cons.mp hc with rfl | hc
      · decide
      · obtain ⟨d, -, rfl⟩ := List.mem_map.mp hc
        exact isNumberChar_of_isDigit (isDigit_digitChar d)
  · unfold exponentText at hc
    split at hc
    · cases hc
    · rcases List.mem_cons.mp hc with rfl | hc
      · decide
      · rcases List.mem_cons.mp hc with rfl | hc
        · split <;> decide
        · exact hdigits _ c hc

theorem readNumber_stringify (l : Literal) {rest : Text} (h : Stops rest) :
    readNumber (l.stringify ++ rest) = some (.number l, rest) := by
  obtain ⟨htake, hdrop⟩ := takeWhile_append_stop (isNumberChar_of_mem_stringify l) h
  simp [readNumber, htake, hdrop, readLiteral_stringify]

/-! ## Lists -/

section Lists

variable {α : Type} {item : Reader α} {close : Char} {text : α → Text}

-- An item is read whatever stands after it, as long as no number goes on there.
def ReadsBack (item : Reader α) (text : α → Text) (x : α) : Prop :=
  ∀ rest, Stops rest → item (text x ++ rest) = some (x, rest)

theorem readMore_joined (hclose : isSpace close = false ∧ isNumberChar close = false)
    (hcomma : close ≠ ',') {xs : List α} (h : ∀ x ∈ xs, ReadsBack item text x) {fuel : Nat}
    (hfuel : xs.length < fuel) (rest : Text) :
    readMore item close fuel ((xs.map text).flatMap (',' :: ·) ++ close :: rest)
      = some (xs, rest) := by
  induction xs generalizing fuel with
  | nil =>
    obtain ⟨fuel, rfl⟩ := Nat.exists_eq_add_one_of_ne_zero (by omega : fuel ≠ 0)
    simp [readMore, skipSpace_cons hclose.1]
  | cons x xs ih =>
    obtain ⟨fuel, rfl⟩ := Nat.exists_eq_add_one_of_ne_zero (by omega : fuel ≠ 0)
    have hstops : Stops ((xs.map text).flatMap (',' :: ·) ++ close :: rest) := by
      cases xs with
      | nil =>
        rintro c hc
        cases hc
        exact hclose.2
      | cons y ys =>
        rintro c hc
        cases hc
        decide
    have hx := h x (List.mem_cons_self ..) _ hstops
    have hxs := ih (fun y hy => h y (List.mem_cons_of_mem x hy))
      (by rw [List.length_cons] at hfuel; omega : xs.length < fuel)
    rw [List.map_cons, List.flatMap_cons, List.append_assoc, List.cons_append, readMore,
      skipSpace_cons (by decide)]
    simp [hcomma.symm, hx, hxs]

theorem readList_joined (hclose : isSpace close = false ∧ isNumberChar close = false)
    (hcomma : close ≠ ',') {xs : List α} (h : ∀ x ∈ xs, ReadsBack item text x)
    (hhead : ∀ x ∈ xs, ∃ c t, text x = c :: t ∧ isSpace c = false ∧ c ≠ close) {fuel : Nat}
    (hfuel : xs.length ≤ fuel) (rest : Text) :
    readList item close fuel (joined close (xs.map text) ++ rest) = some (xs, rest) := by
  cases xs with
  | nil => simp [joined, readList, skipSpace_cons hclose.1]
  | cons x xs =>
    obtain ⟨c, t, htext, hspace, hne⟩ := hhead x (List.mem_cons_self ..)
    have hstops : Stops ((xs.map text).flatMap (',' :: ·) ++ close :: rest) := by
      cases xs with
      | nil =>
        rintro c hc
        cases hc
        exact hclose.2
      | cons y ys =>
        rintro c hc
        cases hc
        decide
    have hx := h x (List.mem_cons_self ..) _ hstops
    have hxs := readMore_joined hclose hcomma (fun y hy => h y (List.mem_cons_of_mem x hy))
      (by rw [List.length_cons] at hfuel; omega : xs.length < fuel) rest
    have hskip : skipSpace (text x ++ ((xs.map text).flatMap (',' :: ·) ++ close :: rest)) =
        text x ++ ((xs.map text).flatMap (',' :: ·) ++ close :: rest) := by
      rw [htext]
      exact skipSpace_cons hspace
    have hopen : ¬ (text x ++ ((xs.map text).flatMap (',' :: ·) ++ close :: rest)).head? =
        some close := by
      rw [htext]
      simpa using hne
    simp only [List.map_cons, joined, List.append_assoc, List.singleton_append, readList, hskip,
      hopen, if_false, hx, Option.bind_eq_bind, Option.bind_some, hxs]

end Lists

/-! ## Values -/

theorem ne_of_isDigit {c d : Char} (hc : c.isDigit = true) (hd : d.isDigit = false) : c ≠ d := by
  rintro rfl
  rw [hc] at hd
  cases hd

-- The first character of a number.
theorem head_literal (l : Literal) :
    ∃ c t, l.stringify = c :: t ∧ (c = '-' ∨ c.isDigit = true) := by
  obtain ⟨c, t, hhead, hc⟩ :=
    head_toDigits l.whole (fractionText l.fraction ++ exponentText l.exponent)
  rw [Literal.stringify_eq, hhead]
  split
  · exact ⟨_, _, rfl, .inl rfl⟩
  · exact ⟨c, t, rfl, .inr hc⟩

theorem not_isSpace_of_number {c : Char} (h : c = '-' ∨ c.isDigit = true) : isSpace c = false := by
  rcases h with rfl | hc
  · decide
  · simp [isSpace, ne_of_isDigit hc (by decide : ' '.isDigit = false),
      ne_of_isDigit hc (by decide : '\t'.isDigit = false),
      ne_of_isDigit hc (by decide : '\n'.isDigit = false),
      ne_of_isDigit hc (by decide : '\r'.isDigit = false)]

theorem ne_of_number {c d : Char} (h : c = '-' ∨ c.isDigit = true) (hd : d.isDigit = false)
    (hminus : '-' ≠ d) : c ≠ d := by
  rcases h with rfl | hc
  · exact hminus
  · exact ne_of_isDigit hc hd

theorem head_stringify (v : Value) : ∃ c t, stringify v = c :: t ∧ isSpace c = false ∧
    c ≠ ']' := by
  cases v with
  | null => exact ⟨_, _, rfl, by decide⟩
  | bool b => cases b <;> exact ⟨_, _, rfl, by decide⟩
  | number l =>
    obtain ⟨c, t, htext, hc⟩ := head_literal l
    exact ⟨c, t, htext, not_isSpace_of_number hc, ne_of_number hc (by decide) (by decide)⟩
  | string chars => exact ⟨_, _, rfl, by decide⟩
  | array items => exact ⟨_, _, rfl, by decide⟩
  | object members => exact ⟨_, _, rfl, by decide⟩

theorem skipSpace_stringify (v : Value) (rest : Text) :
    skipSpace (stringify v ++ rest) = stringify v ++ rest := by
  obtain ⟨c, t, htext, hspace, -⟩ := head_stringify v
  rw [htext]
  exact skipSpace_cons hspace

theorem readValue_literal (l : Literal) {fuel : Nat} (hfuel : 0 < fuel) :
    ReadsBack (readValue fuel) stringify (.number l) := by
  intro rest hrest
  obtain ⟨fuel, rfl⟩ := Nat.exists_eq_add_one_of_ne_zero (by omega : fuel ≠ 0)
  have hread := readNumber_stringify l hrest
  obtain ⟨c, t, htext, hc⟩ := head_literal l
  rw [readValue, skipSpace_stringify, stringify]
  rw [htext, List.cons_append] at hread ⊢
  simp only [ne_of_number hc (by decide : '"'.isDigit = false) (by decide),
    ne_of_number hc (by decide : '['.isDigit = false) (by decide),
    ne_of_number hc (by decide : '{'.isDigit = false) (by decide),
    ne_of_number hc (by decide : 't'.isDigit = false) (by decide),
    ne_of_number hc (by decide : 'f'.isDigit = false) (by decide),
    ne_of_number hc (by decide : 'n'.isDigit = false) (by decide), if_false, hread]

theorem readMember_stringify {m : Text × Value} {value : Reader Value}
    (h : ReadsBack value stringify m.2) : ReadsBack (readMember value) stringifyMember m := by
  intro rest hrest
  obtain ⟨name, v⟩ := m
  have hv : value (stringify v ++ rest) = some (v, rest) := h rest hrest
  have hname := readString_escape name (':' :: (stringify v ++ rest))
  simp [stringifyMember, quote, readMember, skipSpace_cons (by decide : isSpace '"' = false),
    skipSpace_cons (by decide : isSpace ':' = false), hname, hv]

theorem length_le_joined (close : Char) (ts : List Text) : ts.length ≤ (joined close ts).length := by
  have hflat : ∀ ts : List Text, ts.length ≤ (ts.flatMap (',' :: ·)).length := by
    intro ts
    induction ts with
    | nil => exact Nat.le_refl _
    | cons t ts ih =>
      simp only [List.flatMap_cons, List.length_append, List.length_cons]
      omega
  cases ts with
  | nil => exact Nat.zero_le _
  | cons t ts =>
    have hts := hflat ts
    rw [joined, List.length_append, List.length_append, List.length_cons, List.length_singleton]
    omega

theorem length_lt_joined (close : Char) {ts : List Text} {t : Text} (h : t ∈ ts) :
    t.length < (joined close ts).length := by
  have hflat : ∀ ts : List Text, t ∈ ts → t.length ≤ (ts.flatMap (',' :: ·)).length := by
    intro ts ht
    induction ts with
    | nil => cases ht
    | cons u ts ih =>
      rw [List.flatMap_cons, List.length_append, List.length_cons]
      rcases List.mem_cons.mp ht with rfl | ht
      · omega
      · have hts := ih ht
        omega
  cases ts with
  | nil => cases h
  | cons u ts =>
    rw [joined, List.length_append, List.length_append, List.length_singleton]
    rcases List.mem_cons.mp h with rfl | ht
    · omega
    · have hts := hflat ts ht
      omega

/-- A value is read back from its text if there is fuel for as many characters. -/
theorem readValue_stringify (v : Value) {fuel : Nat} (hfuel : (stringify v).length < fuel) :
    ReadsBack (readValue fuel) stringify v := by
  induction v using Value.induct generalizing fuel with
  | null =>
    intro rest _
    obtain ⟨fuel, rfl⟩ := Nat.exists_eq_add_one_of_ne_zero (by omega : fuel ≠ 0)
    rfl
  | bool b =>
    intro rest _
    obtain ⟨fuel, rfl⟩ := Nat.exists_eq_add_one_of_ne_zero (by omega : fuel ≠ 0)
    cases b <;> rfl
  | number l => exact readValue_literal l (by omega)
  | string chars =>
    intro rest _
    obtain ⟨fuel, rfl⟩ := Nat.exists_eq_add_one_of_ne_zero (by omega : fuel ≠ 0)
    simp [stringify, quote, readValue, skipSpace_cons (by decide : isSpace '"' = false),
      readString_escape]
  | array items ih =>
    intro rest _
    obtain ⟨fuel, rfl⟩ := Nat.exists_eq_add_one_of_ne_zero (by omega : fuel ≠ 0)
    rw [stringify, stringifyItems_eq_map] at hfuel ⊢
    have hlength : items.length ≤ fuel := by
      have hcount := length_le_joined ']' (items.map stringify)
      rw [List.length_map] at hcount
      rw [List.length_cons] at hfuel
      omega
    have hitems : ∀ v ∈ items, ReadsBack (readValue fuel) stringify v := by
      intro v hv
      apply ih v hv
      have hlt := length_lt_joined ']' (List.mem_map_of_mem (f := stringify) hv)
      rw [List.length_cons] at hfuel
      omega
    have hread := readList_joined
      (by decide : isSpace ']' = false ∧ isNumberChar ']' = false) (by decide) hitems
      (fun v _ => head_stringify v) hlength rest
    rw [List.cons_append, readValue, skipSpace_cons (by decide)]
    simp [hread]
  | object members ih =>
    intro rest _
    obtain ⟨fuel, rfl⟩ := Nat.exists_eq_add_one_of_ne_zero (by omega : fuel ≠ 0)
    rw [stringify, stringifyMembers_eq_map] at hfuel ⊢
    have hlength : members.length ≤ fuel := by
      have hcount := length_le_joined '}' (members.map stringifyMember)
      rw [List.length_map] at hcount
      rw [List.length_cons] at hfuel
      omega
    have hmembers : ∀ m ∈ members,
        ReadsBack (readMember (readValue fuel)) stringifyMember m := by
      intro m hm
      apply readMember_stringify
      apply ih m hm
      have hlt := length_lt_joined '}' (List.mem_map_of_mem (f := stringifyMember) hm)
      rw [List.length_cons] at hfuel
      rw [stringifyMember, List.length_append, List.length_cons] at hlt
      omega
    have hread := readList_joined
      (by decide : isSpace '}' = false ∧ isNumberChar '}' = false) (by decide) hmembers
      (fun m _ => ⟨'"', _, rfl, by decide, by decide⟩) hlength rest
    rw [List.cons_append, readValue, skipSpace_cons (by decide)]
    simp [hread]

/-- What is written is read back. -/
theorem parse_stringify (v : Value) : parse (stringify v) = some v := by
  have hstops : Stops [] := by
    rintro c hc
    cases hc
  have hread := readValue_stringify v (Nat.lt_succ_self (stringify v).length) [] hstops
  rw [List.append_nil] at hread
  simp [parse, hread, skipSpace]

/-! ## A text is one line -/

theorem newline_notMem_escape (c : Char) : '\n' ∉ escape c := by
  have hhex : ∀ n : Nat, (n % 16).digitChar ≠ '\n' := by
    intro n
    have hlt : n % 16 < 16 := Nat.mod_lt _ (by decide)
    revert hlt
    generalize n % 16 = k
    revert k
    decide
  unfold escape
  repeat' split
  all_goals first | decide | skip
  · simp [hexDigits, (hhex _).symm]
  · next hcontrol =>
    rw [List.mem_singleton]
    rintro rfl
    exact hcontrol (by decide)

theorem newline_notMem_quote (chars : Text) : '\n' ∉ quote chars := by
  unfold quote
  simp only [List.mem_cons, List.mem_append, List.mem_flatMap, List.not_mem_nil, or_false, not_or]
  refine ⟨by decide, ?_, by decide⟩
  rintro ⟨c, -, hc⟩
  exact newline_notMem_escape c hc

theorem newline_notMem_joined {close : Char} (hclose : close ≠ '\n') {ts : List Text}
    (h : ∀ t ∈ ts, '\n' ∉ t) : '\n' ∉ joined close ts := by
  cases ts with
  | nil => simpa [joined] using hclose.symm
  | cons t ts =>
    simp only [joined, List.mem_append, List.mem_flatMap, List.mem_cons, List.not_mem_nil,
      or_false, not_or]
    refine ⟨h t (List.mem_cons_self ..), ?_, hclose.symm⟩
    rintro ⟨u, hu, hc | hc⟩
    · exact absurd hc (by decide)
    · exact h u (List.mem_cons_of_mem t hu) hc

/-- A value is written on one line. -/
theorem newline_notMem_stringify (v : Value) : '\n' ∉ stringify v := by
  induction v using Value.induct with
  | null => decide
  | bool b => cases b <;> decide
  | number l =>
    intro hc
    exact absurd (isNumberChar_of_mem_stringify l _ hc) (by decide)
  | string chars => exact newline_notMem_quote chars
  | array items ih =>
    rw [stringify, stringifyItems_eq_map, List.mem_cons, not_or]
    refine ⟨by decide, newline_notMem_joined (by decide) ?_⟩
    intro t ht
    obtain ⟨v, hv, rfl⟩ := List.mem_map.mp ht
    exact ih v hv
  | object members ih =>
    rw [stringify, stringifyMembers_eq_map, List.mem_cons, not_or]
    refine ⟨by decide, newline_notMem_joined (by decide) ?_⟩
    intro t ht
    obtain ⟨m, hm, rfl⟩ := List.mem_map.mp ht
    rw [stringifyMember, List.mem_append, List.mem_cons, not_or, not_or]
    exact ⟨newline_notMem_quote m.1, by decide, ih m hm⟩

end Lib.Json
