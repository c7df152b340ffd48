import OnchainInvoice.Lib.JsonPrefix
import OnchainInvoice.Persist.PersistLog

/-!
# The lines of the persist log

A finished line is read back as its event.  What a torn write leaves of a line is read as nothing,
or as the event if only the end of the line is missing.
-/

namespace OnchainInvoice.Persist

open Lib.Json
open Lib.Casing (isWhite)

/-! ## Finished lines -/

def IsObject (v : Value) : Prop := ∃ members, v = .object members

def lines (events : List Value) : Text := events.flatMap fun v => stringify v ++ ['\n']

theorem lines_concat (events : List Value) (v : Value) :
    lines (events ++ [v]) = lines events ++ (stringify v ++ ['\n']) := by
  simp [lines]

theorem trim_of_ends {c : Char} {t : Text} (hfirst : isWhite c = false)
    (hlast : ∀ d ∈ (c :: t).getLast?, isWhite d = false) : trim (c :: t) = c :: t := by
  unfold trim
  rw [List.dropWhile_cons_of_neg (by simp [hfirst])]
  apply List.rdropWhile_eq_self_iff.mpr
  intro hne
  have hd := hlast _ (List.getLast?_eq_some_getLast hne)
  simp [hd]

theorem exists_ends_of_object (members : List (Text × Value)) :
    ∃ t, stringify (.object members) = '{' :: (t ++ ['}']) := by
  rw [stringify]
  cases stringifyMembers members with
  | nil => exact ⟨[], rfl⟩
  | cons u us => exact ⟨u ++ us.flatMap (',' :: ·), by simp [joined]⟩

theorem trim_stringify {v : Value} (h : IsObject v) : trim (stringify v) = stringify v := by
  obtain ⟨members, rfl⟩ := h
  obtain ⟨t, htext⟩ := exists_ends_of_object members
  rw [htext]
  apply trim_of_ends (by decide)
  rw [← List.cons_append, List.getLast?_concat]
  rintro d hd
  cases hd
  decide

theorem yieldLines_stringify {v : Value} (h : IsObject v) (rest : List Text) :
    yieldLines (stringify v :: rest) = ⟨v :: (yieldLines rest).events, (yieldLines rest).thrown⟩ := by
  have hne : stringify v ≠ [] := by
    obtain ⟨members, rfl⟩ := h
    simp [stringify]
  simp [yieldLines, trim_stringify h, hne, parse_stringify, Iteration.andThen]

theorem yieldText_lines {events : List Value} (h : ∀ v ∈ events, IsObject v) {tail : Text}
    (htail : '\n' ∉ tail) : yieldText (lines events ++ tail) =
      ⟨events ++ (yieldLines [tail]).events, (yieldLines [tail]).thrown⟩ := by
  induction events with
  | nil => rw [yieldText, lines, List.flatMap_nil, List.nil_append, List.splitOn_eq_singleton htail]; rfl
  | cons v events ih =>
    have hrest := ih fun w hw => h w (List.mem_cons_of_mem v hw)
    unfold yieldText at hrest ⊢
    have hsplit : (lines (v :: events) ++ tail).splitOn '\n' =
        stringify v :: (lines events ++ tail).splitOn '\n' := by
      have htext : lines (v :: events) ++ tail = stringify v ++ '\n' :: (lines events ++ tail) := by
        simp [lines]
      rw [htext]
      exact List.splitOn_append_cons_self_of_not_mem (newline_notMem_stringify v) _
    rw [hsplit, yieldLines_stringify (h v (List.mem_cons_self ..)), hrest]
    rfl

/-! ## The end of the active file -/

-- The end of the active file that is no finished line, and the events it is read as.
structure Tail (tail : Text) (late : List Value) : Prop where
  oneLine : '\n' ∉ tail
  events : (yieldLines [tail]).events = late

theorem Tail.nil : Tail [] [] := ⟨by simp, rfl⟩

theorem Tail.of_nil {late : List Value} (h : Tail [] late) : late = [] := h.events.symm

theorem yieldLines_unread {t : Text} (h : parse (trim t) = none) : (yieldLines [t]).events = [] := by
  simp only [yieldLines, h]
  split <;> rfl

theorem unread_of_cut {members : List (Text × Value)} {p q : Text}
    (h : stringify (.object members) = p ++ q) (hp : p ≠ []) (hq : q ≠ []) :
    parse (trim p) = none := by
  obtain ⟨u, rfl⟩ := head_object h hp
  have htrim : trim ('{' :: u) = ('{' :: u).rdropWhile isWhite := by
    rw [trim, List.dropWhile_cons_of_neg (by decide)]
  have hne : trim ('{' :: u) ≠ [] := by
    intro hnil
    rw [htrim, List.rdropWhile_eq_nil_iff] at hnil
    exact absurd (hnil '{' (List.mem_cons_self ..)) (by decide)
  obtain ⟨w, hw⟩ := List.rdropWhile_prefix isWhite ('{' :: u)
  rw [← htrim] at hw
  have hcut : stringify (.object members) = trim ('{' :: u) ++ (w ++ q) := by
    rw [← List.append_assoc, hw, h]
  exact parse_cut hcut hne (by simp [hq])

theorem unread_of_split {members : List (Text × Value)} {p q : Text}
    (h : stringify (.object members) = p ++ q) (hp : p ≠ []) :
    parse (trim (p ++ ['\uFFFD'])) = none := by
  have htrim : trim (p ++ ['\uFFFD']) = p ++ ['\uFFFD'] := by
    obtain ⟨u, rfl⟩ := head_object h hp
    apply trim_of_ends (by decide)
    show ∀ d ∈ ('{' :: u ++ ['\uFFFD']).getLast?, isWhite d = false
    rw [List.getLast?_concat]
    rintro d hd
    cases hd
    decide
  rw [htrim]
  exact parse_cut_append h hp (by decide) (by decide)

/-- What a torn write leaves of a line is read as nothing, or as the event if only the end of the
line is missing. -/
theorem Tail.of_torn (evt : PersistLogEvent) {n : Nat} (hn : n < (line evt).length) (split : Bool) :
    ∃ late, (late = [] ∨ late = [evt.json]) ∧
      Tail ((line evt).take n ++
        if (split && ((line evt)[n]?.any fun c => 0x80 ≤ c.toNat)) = true then ['\uFFFD'] else [])
        late := by
  have hlength : n ≤ (stringify evt.json).length := by
    rw [line, List.length_append, List.length_singleton] at hn
    omega
  have hline : '\n' ∉ (stringify evt.json).take n := fun hc =>
    newline_notMem_stringify _ (List.mem_of_mem_take hc)
  rw [line, List.take_append_of_le_length hlength]
  rcases Nat.eq_or_lt_of_le hlength with rfl | hlt
  · have hread : (yieldLines [stringify evt.json]).events = [evt.json] := by
      rw [yieldLines_stringify (v := evt.json) ⟨evt.members, rfl⟩]
      rfl
    refine ⟨[evt.json], .inr rfl, ?_, ?_⟩
    · simpa using hline
    · simp [hread]
  refine ⟨[], .inl rfl, ?_, ?_⟩
  · rw [List.mem_append, not_or]
    refine ⟨hline, ?_⟩
    split <;> simp
  have hsplit : stringify evt.json =
      (stringify evt.json).take n ++ (stringify evt.json).drop n :=
    (List.take_append_drop ..).symm
  have hlost : (stringify evt.json).drop n ≠ [] := by simpa using hlt
  rw [List.getElem?_append_left hlt]
  cases n with
  | zero =>
    obtain ⟨t, htext⟩ := exists_ends_of_object evt.members
    have hascii : (split && ((stringify evt.json)[0]?.any fun c => 0x80 ≤ c.toNat)) = false := by
      rw [PersistLogEvent.json, htext]
      cases split <;> rfl
    rw [hascii]
    rfl
  | succ n =>
    have hne : (stringify evt.json).take (n + 1) ≠ [] := by
      rw [ne_eq, List.take_eq_nil_iff, not_or]
      refine ⟨by omega, ?_⟩
      rintro hnil
      simp [hnil] at hlt
    split
    · exact yieldLines_unread (unread_of_split hsplit hne)
    · rw [List.append_nil]
      exact yieldLines_unread (unread_of_cut hsplit hne hlost)

end OnchainInvoice.Persist
