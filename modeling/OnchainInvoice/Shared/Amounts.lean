import Mathlib.Tactic.IntervalCases
import OnchainInvoice.Lib.Decimals
import OnchainInvoice.Lib.Trimming
import OnchainInvoice.Persist.PersistLog

/-!
# Token amounts

`formatUsdcAmount` and `parseUsdcInput` of `userop.ts`: a number of atoms and the decimal numeral
that shows it.
-/

namespace OnchainInvoice.Amounts

open Lib.Digits Lib.Trimming

-- `BigInt(text)`; the empty text is zero
def bigInt (t : Text) : Nat := Nat.ofDigitChars 10 t 0

def padStart (t : Text) (length : Nat) : Text := List.replicate (length - t.length) '0' ++ t

def padEnd (t : Text) (length : Nat) : Text := t ++ List.replicate (length - t.length) '0'

def isZero (c : Char) : Bool := c = '0'

def formatUsdcAmount (atoms decimals : Nat) : Text :=
  let base := 10 ^ decimals
  let whole := atoms / base
  let frac := atoms % base
  let fracStr := (padStart (Nat.toDigits 10 frac) decimals).rdropWhile isZero
  if fracStr = [] then Nat.toDigits 10 whole else Nat.toDigits 10 whole ++ '.' :: fracStr

-- `/^\d+(\.\d+)?$/`
def isAmount (t : Text) : Bool :=
  t.takeWhile Char.isDigit ≠ [] &&
    match t.dropWhile Char.isDigit with
    | [] => true
    | c :: frac => c = '.' && frac ≠ [] && frac.all Char.isDigit

def parseUsdcInput (value : Text) (decimals : Nat) : Option Nat :=
  let trimmed := Persist.trim value
  if !isAmount trimmed then none
  else
    let parts := trimmed.splitOn '.'
    let whole := parts.headD []
    let frac := parts.getD 1 []
    if decimals < frac.length then none
    else
      let padded := padEnd frac decimals
      some (bigInt whole * 10 ^ decimals + bigInt (if padded = [] then ['0'] else padded))

/-! ## Numerals -/

variable {t value : Text} {d : Decimal} {decimals atoms : Nat}

theorem isDigit_ne_point {c : Char} (h : c.isDigit = true) : c ≠ '.' := by
  rintro rfl
  cases h

theorem isWhite_of_isDigit {c : Char} (h : c.isDigit = true) : Lib.Casing.isWhite c = false := by
  have hbounds := digit_bounds h
  have hofNat := Char.ofNat_toNat c
  generalize c.toNat = n at hbounds hofNat
  rcases hbounds with ⟨hlow, hhigh⟩
  rw [← hofNat]
  interval_cases n <;> decide +kernel

-- What stands behind the digits before the point.
def pointed (fraction : Text) : Text := if fraction = [] then [] else '.' :: fraction

theorem text_eq (d : Decimal) : d.text = d.whole ++ pointed d.fraction := by
  unfold Decimal.text pointed
  split
  · rw [List.append_nil]
  · rfl

theorem dropWhile_pointed (fraction : Text) :
    (pointed fraction).dropWhile Char.isDigit = pointed fraction := by
  unfold pointed
  split
  · rfl
  · rfl

theorem takeWhile_text (d : Decimal) : d.text.takeWhile Char.isDigit = d.whole := by
  rw [text_eq, List.takeWhile_append_of_pos d.isNumeral_whole]
  have hnone : (pointed d.fraction).takeWhile Char.isDigit = [] := by
    unfold pointed
    split
    · rfl
    · rfl
  rw [hnone, List.append_nil]

theorem dropWhile_text (d : Decimal) : d.text.dropWhile Char.isDigit = pointed d.fraction := by
  rw [text_eq, List.dropWhile_append_of_pos d.isNumeral_whole, dropWhile_pointed]

theorem isAmount_text (d : Decimal) : isAmount d.text = true := by
  unfold isAmount
  rw [takeWhile_text, dropWhile_text, Bool.and_eq_true]
  apply And.intro (decide_eq_true d.whole_ne)
  unfold pointed
  by_cases hfraction : d.fraction = []
  · rw [if_pos hfraction]
  · rw [if_neg hfraction]
    dsimp only
    rw [decide_eq_true rfl, decide_eq_true hfraction, Bool.true_and, Bool.true_and,
      List.all_eq_true]
    exact d.isNumeral_fraction

/-- The texts that match are the numerals. -/
theorem eq_text_of_isAmount (h : isAmount t = true) : ∃ d : Decimal, t = d.text := by
  unfold isAmount at h
  rw [Bool.and_eq_true] at h
  have hwhole := of_decide_eq_true h.1
  have hnumeral : IsNumeral (t.takeWhile Char.isDigit) := fun c hc => List.mem_takeWhile_imp hc
  have ht : t.takeWhile Char.isDigit ++ t.dropWhile Char.isDigit = t :=
    List.takeWhile_append_dropWhile
  have hrest := h.2
  cases hdrop : t.dropWhile Char.isDigit with
  | nil =>
    refine ⟨⟨_, [], hwhole, hnumeral, fun c hc => absurd hc List.not_mem_nil⟩, ?_⟩
    rw [hdrop, List.append_nil] at ht
    exact ht.symm
  | cons c fraction =>
    rw [hdrop] at hrest
    simp only [Bool.and_eq_true, decide_eq_true_eq, List.all_eq_true] at hrest
    refine ⟨⟨_, fraction, hwhole, hnumeral, hrest.2⟩, ?_⟩
    rw [hdrop, hrest.1.1] at ht
    unfold Decimal.text
    rw [if_neg hrest.1.2]
    exact ht.symm

theorem point_not_mem (ht : IsNumeral t) : '.' ∉ t :=
  fun hmem => isDigit_ne_point (ht '.' hmem) rfl

theorem splitOn_text (d : Decimal) : d.text.splitOn '.' =
    if d.fraction = [] then [d.whole] else [d.whole, d.fraction] := by
  unfold Decimal.text
  split
  · exact List.splitOn_eq_singleton (point_not_mem d.isNumeral_whole)
  · rw [List.splitOn_append_cons_self_of_not_mem (point_not_mem d.isNumeral_whole),
      List.splitOn_eq_singleton (point_not_mem d.isNumeral_fraction)]

-- A numeral begins and ends with a digit.
theorem bare_text (d : Decimal) : Bare Lib.Casing.isWhite d.text := by
  apply Bare.mk
  · intro c hc
    apply isWhite_of_isDigit
    rw [text_eq] at hc
    cases hwhole : d.whole with
    | nil => exact absurd hwhole d.whole_ne
    | cons c' rest =>
      rw [hwhole] at hc
      cases hc
      exact d.isNumeral_whole c (by simp [hwhole])
  · intro c hc
    apply isWhite_of_isDigit
    unfold Decimal.text at hc
    split at hc
    · exact d.isNumeral_whole c (List.mem_of_getLast? hc)
    · next hfraction =>
      cases hcons : d.fraction with
      | nil => exact absurd hcons hfraction
      | cons c' rest =>
        rw [hcons, List.getLast?_append, List.getLast?_cons_cons,
          List.getLast?_eq_getLast_of_ne_nil (List.cons_ne_nil c' rest), Option.some_or] at hc
        cases hc
        apply d.isNumeral_fraction
        rw [hcons]
        exact List.getLast_mem _

/-! ## Parsing -/

-- The numeral with white space around it.
def Spaced (value : Text) (d : Decimal) : Prop :=
  ∃ before after, (∀ c ∈ before, Lib.Casing.isWhite c = true) ∧
    (∀ c ∈ after, Lib.Casing.isWhite c = true) ∧ value = before ++ d.text ++ after

theorem Spaced.trim (h : Spaced value d) : Persist.trim value = d.text := by
  rcases h with ⟨before, after, hbefore, hafter, rfl⟩
  exact trimmed_of_bare hbefore hafter (bare_text d)

theorem spaced_of_trim (h : Persist.trim value = d.text) : Spaced value d := by
  rcases eq_append_trimmed Lib.Casing.isWhite value with ⟨before, after, hbefore, hafter, hvalue⟩
  have htrim : trimmed Lib.Casing.isWhite value = d.text := h
  rw [htrim] at hvalue
  exact ⟨before, after, hbefore, hafter, hvalue⟩

def places (d : Decimal) (decimals : Nat) : Nat :=
  bigInt d.whole * 10 ^ decimals + bigInt (padEnd d.fraction decimals)

theorem parts_text (d : Decimal) : (d.text.splitOn '.').headD [] = d.whole ∧
    (d.text.splitOn '.').getD 1 [] = d.fraction := by
  rw [splitOn_text]
  split
  · next h => exact ⟨rfl, h.symm⟩
  · exact ⟨rfl, rfl⟩

theorem bigInt_or_zero (t : Text) : bigInt (if t = [] then ['0'] else t) = bigInt t := by
  split
  · next h =>
    rw [h]
    rfl
  · rfl

theorem parseUsdcInput_spaced (h : Spaced value d) : parseUsdcInput value decimals =
    if decimals < d.fraction.length then none else some (places d decimals) := by
  unfold parseUsdcInput
  dsimp only
  rw [h.trim, isAmount_text, (parts_text d).1, (parts_text d).2, bigInt_or_zero]
  rfl

theorem spaced_of_parse (h : parseUsdcInput value decimals = some atoms) :
    ∃ d, Spaced value d := by
  unfold parseUsdcInput at h
  dsimp only at h
  split at h
  · cases h
  · next hamount =>
    rw [Bool.not_eq_true, Bool.not_eq_false'] at hamount
    rcases eq_text_of_isAmount hamount with ⟨d, hd⟩
    exact ⟨d, spaced_of_trim hd⟩

theorem places_eq (h : d.fraction.length ≤ decimals) :
    (places d decimals : ℚ) = d.value * 10 ^ decimals :=
  (d.value_mul h).symm

/-! ## Formatting -/

theorem isNumeral_toDigits (n : Nat) : IsNumeral (Nat.toDigits 10 n) :=
  fun _ hc => Nat.isDigit_of_mem_toDigits (by decide) (by decide) hc

theorem isNumeral_padStart (ht : IsNumeral t) (length : Nat) : IsNumeral (padStart t length) := by
  intro c hc
  rcases List.mem_append.mp hc with hzero | hc
  · rw [List.eq_of_mem_replicate hzero]
    rfl
  · exact ht c hc

-- The numeral that is shown, with the zeros at its end cut off.
def shown (atoms decimals : Nat) : Decimal where
  whole := Nat.toDigits 10 (atoms / 10 ^ decimals)
  fraction := (padStart (Nat.toDigits 10 (atoms % 10 ^ decimals)) decimals).rdropWhile isZero
  whole_ne := Nat.toDigits_ne_nil
  isNumeral_whole := isNumeral_toDigits _
  isNumeral_fraction := fun c hc => isNumeral_padStart (isNumeral_toDigits _) _ c
    ((List.rdropWhile_prefix isZero _).subset hc)

theorem formatUsdcAmount_eq (atoms decimals : Nat) :
    formatUsdcAmount atoms decimals = (shown atoms decimals).text := rfl

theorem spaced_text (d : Decimal) : Spaced d.text d :=
  ⟨[], [], fun _ h => absurd h List.not_mem_nil, fun _ h => absurd h List.not_mem_nil, by simp⟩

theorem bigInt_padStart (t : Text) (length : Nat) : bigInt (padStart t length) = bigInt t := by
  unfold bigInt padStart
  rw [Nat.ofDigitChars_append, Nat.ofDigitChars_replicate_zero, Nat.mul_zero]

-- The zeros that were cut off are put back.
theorem padEnd_rdropWhile (t : Text) : padEnd (t.rdropWhile isZero) t.length = t := by
  have ht : t.rdropWhile isZero ++ t.rtakeWhile isZero = t := List.rdropWhile_append_rtakeWhile
  have hzeros : t.rtakeWhile isZero = List.replicate (t.rtakeWhile isZero).length '0' := by
    apply List.eq_replicate_of_mem
    intro c hc
    have hzero : isZero c = true := List.mem_rtakeWhile_imp hc
    exact of_decide_eq_true hzero
  have hlength : t.length - (t.rdropWhile isZero).length = (t.rtakeWhile isZero).length := by
    have hsum := congrArg List.length ht
    rw [List.length_append] at hsum
    omega
  unfold padEnd
  rw [hlength, ← hzeros, ht]

theorem shown_fraction (atoms decimals : Nat) :
    (shown atoms decimals).fraction.length ≤ decimals ∧
      bigInt (padEnd (shown atoms decimals).fraction decimals) = atoms % 10 ^ decimals := by
  cases decimals with
  | zero =>
    have hnone : (shown atoms 0).fraction = [] := by
      unfold shown
      dsimp only
      rw [Nat.pow_zero, Nat.mod_one]
      rfl
    rw [hnone, Nat.pow_zero, Nat.mod_one]
    exact ⟨le_rfl, rfl⟩
  | succ n =>
    have hlt : atoms % 10 ^ (n + 1) < 10 ^ (n + 1) := Nat.mod_lt _ (by positivity)
    have hdigits := (Nat.length_toDigits_le_iff (by decide) n.succ_pos).mpr hlt
    have hlength : (padStart (Nat.toDigits 10 (atoms % 10 ^ (n + 1))) (n + 1)).length = n + 1 := by
      unfold padStart
      rw [List.length_append, List.length_replicate, Nat.sub_add_cancel hdigits]
    have hpad := padEnd_rdropWhile (padStart (Nat.toDigits 10 (atoms % 10 ^ (n + 1))) (n + 1))
    rw [hlength] at hpad
    apply And.intro
    · have hprefix := (List.rdropWhile_prefix isZero
        (padStart (Nat.toDigits 10 (atoms % 10 ^ (n + 1))) (n + 1))).length_le
      rwa [hlength] at hprefix
    · unfold shown
      dsimp only
      rw [hpad, bigInt_padStart]
      exact Nat.ofDigitChars_ten_toDigits

theorem places_shown (atoms decimals : Nat) : places (shown atoms decimals) decimals = atoms := by
  unfold places
  rw [(shown_fraction atoms decimals).2]
  have hwhole : bigInt (shown atoms decimals).whole = atoms / 10 ^ decimals :=
    Nat.ofDigitChars_ten_toDigits
  rw [hwhole, Nat.div_add_mod']

/-! ## Amounts -/

/-- Amounts are shown and read back, and what is read is a numeral with few enough digits behind
the point, at its exact value. -/
structure Exact (decimals : Nat) : Prop where
  parse_format : ∀ atoms, parseUsdcInput (formatUsdcAmount atoms decimals) decimals = some atoms
  accepted : ∀ value, (∃ atoms, parseUsdcInput value decimals = some atoms) ↔
    ∃ d, Spaced value d ∧ d.fraction.length ≤ decimals
  value_eq : ∀ value atoms d, Spaced value d → parseUsdcInput value decimals = some atoms →
    (atoms : ℚ) = d.value * 10 ^ decimals

theorem exact_amounts (decimals : Nat) : Exact decimals := by
  have hparse : ∀ value d, Spaced value d → ∀ atoms, parseUsdcInput value decimals = some atoms →
      d.fraction.length ≤ decimals ∧ atoms = places d decimals := by
    intro value d hspaced atoms h
    rw [parseUsdcInput_spaced hspaced] at h
    split at h
    · cases h
    · next hlength =>
      cases h
      exact ⟨not_lt.mp hlength, rfl⟩
  apply Exact.mk
  · intro atoms
    rw [formatUsdcAmount_eq, parseUsdcInput_spaced (spaced_text _),
      if_neg (not_lt.mpr (shown_fraction atoms decimals).1), places_shown]
  · intro value
    apply Iff.intro
    · rintro ⟨atoms, h⟩
      obtain ⟨d, hspaced⟩ := spaced_of_parse h
      exact ⟨d, hspaced, (hparse value d hspaced atoms h).1⟩
    · rintro ⟨d, hspaced, hlength⟩
      rw [parseUsdcInput_spaced hspaced, if_neg (not_lt.mpr hlength)]
      exact ⟨_, rfl⟩
  · intro value atoms d hspaced h
    obtain ⟨hlength, rfl⟩ := hparse value d hspaced atoms h
    exact places_eq hlength

example : formatUsdcAmount 1500000 6 = "1.5".toList := by decide +kernel

end OnchainInvoice.Amounts
