import Mathlib.Data.List.TakeWhile
import OnchainInvoice.Lib.JsonRoundTrip

/-!
# A text that is cut short is not read

A reader that succeeds has taken a part of the text and would take the same part whatever came
after it.  The text of an object ends with the brace that closes it, so what is left of it when its
end is lost is the text of nothing.
-/

namespace Lib.Json

/-! ## What a reader takes -/

-- Whatever `p` takes of a text, `p'` takes too, and nothing of what follows matters to it but that
-- no number goes on there.
def Takes {α : Type} (p p' : Reader α) : Prop :=
  ∀ t x r, p t = some (x, r) →
    ∃ s, t = s ++ r ∧ ∀ rest, Stops rest → p' (s ++ rest) = some (x, rest)

theorem of_mem_takeWhile {p : Char → Bool} {t : Text} : ∀ c ∈ t.takeWhile p, p c = true :=
  List.all_eq_true.mp List.all_takeWhile

/-- The first character that is not skipped, behind what is skipped. -/
theorem skipSpace_eq_cons {c : Char} {t u : Text} (h : skipSpace t = c :: u) :
    ∃ spaces, t = spaces ++ c :: u ∧ (∀ v, skipSpace (spaces ++ c :: v) = c :: v) ∧
      (isNumberChar c = false → ∀ v, Stops (spaces ++ c :: v)) := by
  have hspace : isSpace c = false := by
    have hhead := List.head?_dropWhile_not isSpace t
    rw [← skipSpace, h] at hhead
    simpa using hhead
  refine ⟨t.takeWhile isSpace, ?_, fun v => ?_, fun hc v => ?_⟩
  · rw [← h]
    exact List.takeWhile_append_dropWhile.symm
  · exact (takeWhile_append_stop of_mem_takeWhile (by simpa using hspace)).2
  · cases hspaces : t.takeWhile isSpace with
    | nil => simpa [Stops] using hc
    | cons b s =>
      have hb : isSpace b = true := by
        apply of_mem_takeWhile (t := t)
        rw [hspaces]
        exact List.mem_cons_self ..
      simp only [isSpace, Bool.or_eq_true, decide_eq_true_eq] at hb
      rintro b' hb'
      cases hb'
      rcases hb with ((rfl | rfl) | rfl) | rfl <;> decide

theorem emit_eq_some {p : Piece} {x : Option (List Piece × Text)} {ps : List Piece} {r : Text}
    (h : emit p x = some (ps, r)) : ∃ ps', x = some (ps', r) ∧ ps = p :: ps' := by
  unfold emit at h
  obtain ⟨y, rfl, hy⟩ := Option.map_eq_some_iff.mp h
  cases hy
  exact ⟨y.1, rfl, rfl⟩

theorem readPieces_takes {m : Mode} {t r : Text} {ps : List Piece}
    (h : readPieces m t = some (ps, r)) :
    ∃ s, t = s ++ '"' :: r ∧ ∀ rest, readPieces m (s ++ '"' :: rest) = some (ps, rest) := by
  induction t generalizing m ps with
  | nil => simp [readPieces] at h
  | cons c t ih =>
    cases m with
    | plain =>
      rw [readPieces] at h
      split at h
      · next hquote =>
        cases h
        exact ⟨[], by rw [hquote]; rfl, fun rest => by simp [readPieces]⟩
      · next hquote =>
        split at h
        · next hescape =>
          obtain ⟨s, rfl, hs⟩ := ih h
          exact ⟨c :: s, rfl, fun rest => by simp [readPieces, hescape, ← hs rest]⟩
        · next hescape =>
          split at h
          · cases h
          · next hplain =>
            obtain ⟨ps', hread, rfl⟩ := emit_eq_some h
            obtain ⟨s, rfl, hs⟩ := ih hread
            refine ⟨c :: s, rfl, fun rest => ?_⟩
            simp [readPieces, hquote, hescape, hplain, hs, emit]
    | escaped =>
      rw [readPieces] at h
      split at h
      · next hu =>
        obtain ⟨s, rfl, hs⟩ := ih h
        exact ⟨c :: s, rfl, fun rest => by simp [readPieces, hu, hs]⟩
      · next hu =>
        obtain ⟨c', hc', hemit⟩ := Option.bind_eq_some_iff.mp h
        obtain ⟨ps', hread, rfl⟩ := emit_eq_some hemit
        obtain ⟨s, rfl, hs⟩ := ih hread
        exact ⟨c :: s, rfl, fun rest => by simp [readPieces, hu, hc', hs, emit]⟩
    | hex left value =>
      rw [readPieces] at h
      obtain ⟨d, hd, hrest⟩ := Option.bind_eq_some_iff.mp h
      split at hrest
      · next hlast =>
        obtain ⟨ps', hread, rfl⟩ := emit_eq_some hrest
        obtain ⟨s, rfl, hs⟩ := ih hread
        exact ⟨c :: s, rfl, fun rest => by simp [readPieces, hd, hlast, hs, emit]⟩
      · next hlast =>
        obtain ⟨s, rfl, hs⟩ := ih hrest
        exact ⟨c :: s, rfl, fun rest => by simp [readPieces, hd, hlast, hs]⟩

theorem readString_takes {t r s : Text} (h : readString t = some (s, r)) :
    ∃ u, t = u ++ '"' :: r ∧ ∀ rest, readString (u ++ '"' :: rest) = some (s, rest) := by
  unfold readString at h
  obtain ⟨⟨ps, r'⟩, hread, hx⟩ := Option.map_eq_some_iff.mp h
  cases hx
  obtain ⟨u, htext, hu⟩ := readPieces_takes hread
  exact ⟨u, htext, fun rest => by simp [readString, hu]⟩

theorem readNumber_takes : Takes readNumber readNumber := by
  intro t v r h
  unfold readNumber at h
  obtain ⟨l, hl, hx⟩ := Option.map_eq_some_iff.mp h
  cases hx
  refine ⟨t.takeWhile isNumberChar, List.takeWhile_append_dropWhile.symm, fun rest hrest => ?_⟩
  obtain ⟨htake, hdrop⟩ :=
    takeWhile_append_stop (of_mem_takeWhile (p := isNumberChar) (t := t)) hrest
  simp [readNumber, htake, hdrop, hl]

theorem readWord_takes (word : Text) (v : Value) :
    Takes (readWord word v) (readWord word v) := by
  intro t w r h
  unfold readWord at h
  split at h
  · next hbefore =>
    cases h
    obtain ⟨u, rfl⟩ := List.isPrefixOf_iff_prefix.mp hbefore
    refine ⟨word, by rw [List.drop_left], fun rest _ => ?_⟩
    have hlonger : word.isPrefixOf (word ++ rest) = true :=
      List.isPrefixOf_iff_prefix.mpr ⟨rest, rfl⟩
    rw [readWord, if_pos hlonger, List.drop_left]
  · cases h

section Lists

variable {α : Type} {item item' : Reader α} {close : Char}

theorem readMore_takes (hitem : Takes item item') (hclose : isNumberChar close = false)
    {fuel fuel' : Nat} (hfuel : fuel ≤ fuel') {t r : Text} {xs : List α}
    (h : readMore item close fuel t = some (xs, r)) :
    ∃ s, t = s ++ close :: r ∧ (∀ rest, Stops (s ++ close :: rest)) ∧
      ∀ rest, readMore item' close fuel' (s ++ close :: rest) = some (xs, rest) := by
  induction fuel generalizing fuel' t xs with
  | zero => simp [readMore] at h
  | succ fuel ih =>
    obtain ⟨fuel', rfl⟩ := Nat.exists_eq_add_one_of_ne_zero (by omega : fuel' ≠ 0)
    rw [readMore] at h
    cases hskip : skipSpace t with
    | nil => simp [hskip] at h
    | cons c u =>
      obtain ⟨spaces, rfl, hskips, hstop⟩ := skipSpace_eq_cons hskip
      rw [hskip] at h
      dsimp only at h
      split at h
      · next hc =>
        cases h
        subst hc
        exact ⟨spaces, rfl, hstop hclose, fun rest => by simp [readMore, hskips]⟩
      · next hc =>
        split at h
        · next hcomma =>
          subst hcomma
          simp only [Option.bind_eq_bind, Option.bind_eq_some_iff, Option.some.injEq,
            Prod.exists, Prod.mk.injEq] at h
          obtain ⟨x, u₁, hx, ys, u₂, hmore, rfl, rfl⟩ := h
          obtain ⟨s₁, rfl, hs₁⟩ := hitem _ _ _ hx
          obtain ⟨s₂, rfl, hstops, hs₂⟩ := ih (by omega : fuel ≤ fuel') hmore
          refine ⟨spaces ++ ',' :: (s₁ ++ s₂), by simp, fun rest => ?_, fun rest => ?_⟩
          · rw [List.append_assoc]
            exact hstop (by decide) _
          · rw [List.append_assoc, List.cons_append, List.append_assoc, readMore, hskips]
            simp [hc, hs₁ _ (hstops rest), hs₂]
        · cases h

theorem readList_takes (hitem : Takes item item') (hclose : isNumberChar close = false)
    (hhead : ∀ t, (skipSpace t).head? = some close → item' t = none) {fuel fuel' : Nat}
    (hfuel : fuel ≤ fuel') {t r : Text} {xs : List α}
    (h : readList item close fuel t = some (xs, r)) :
    ∃ s, t = s ++ close :: r ∧
      ∀ rest, readList item' close fuel' (s ++ close :: rest) = some (xs, rest) := by
  unfold readList at h
  split at h
  · next hempty =>
    cases hskip : skipSpace t with
    | nil => simp [hskip] at hempty
    | cons c u =>
      obtain ⟨spaces, rfl, hskips, -⟩ := skipSpace_eq_cons hskip
      rw [hskip] at h hempty
      cases h
      cases hempty
      exact ⟨spaces, rfl, fun rest => by simp [readList, hskips]⟩
  · simp only [Option.bind_eq_bind, Option.bind_eq_some_iff, Option.some.injEq,
      Prod.exists, Prod.mk.injEq] at h
    obtain ⟨x, u₁, hx, ys, u₂, hmore, rfl, rfl⟩ := h
    obtain ⟨s₁, rfl, hs₁⟩ := hitem _ _ _ hx
    obtain ⟨s₂, rfl, hstops, hs₂⟩ := readMore_takes hitem hclose hfuel hmore
    refine ⟨s₁ ++ s₂, (List.append_assoc ..).symm, fun rest => ?_⟩
    have hread := hs₁ _ (hstops rest)
    have hfirst : ¬ (skipSpace (s₁ ++ (s₂ ++ close :: rest))).head? = some close := by
      intro hc
      rw [hhead _ hc] at hread
      cases hread
    rw [List.append_assoc, readList, if_neg hfirst]
    simp [hread, hs₂]

end Lists

theorem readMember_takes {value value' : Reader Value} (h : Takes value value') :
    Takes (readMember value) (readMember value') := by
  intro t m r hread
  unfold readMember at hread
  split at hread
  · next u hskip =>
    obtain ⟨⟨name, u₁⟩, hname, hread⟩ := Option.bind_eq_some_iff.mp hread
    dsimp only at hread
    split at hread
    · next u₂ hskip₁ =>
      obtain ⟨⟨v, u₃⟩, hvalue, hm⟩ := Option.bind_eq_some_iff.mp hread
      cases hm
      obtain ⟨spaces, rfl, hskips, -⟩ := skipSpace_eq_cons hskip
      obtain ⟨s, rfl, hs⟩ := readString_takes hname
      obtain ⟨spaces₁, rfl, hskips₁, -⟩ := skipSpace_eq_cons hskip₁
      obtain ⟨s₁, rfl, hs₁⟩ := h _ _ _ hvalue
      refine ⟨spaces ++ '"' :: (s ++ '"' :: (spaces₁ ++ ':' :: s₁)), by simp,
        fun rest hrest => ?_⟩
      simp [readMember, hskips, hs, hskips₁, hs₁ rest hrest]
    · cases hread
  · cases hread

theorem readMember_eq_none_of_head {value : Reader Value} {t : Text}
    (h : (skipSpace t).head? = some '}') : readMember value t = none := by
  cases hskip : skipSpace t with
  | nil => simp [readMember, hskip]
  | cons c u =>
    rw [hskip] at h
    cases h
    simp [readMember, hskip]

theorem readValue_eq_none_of_head {t : Text} (fuel : Nat) (h : (skipSpace t).head? = some ']') :
    readValue fuel t = none := by
  cases fuel with
  | zero => rfl
  | succ fuel =>
    cases hskip : skipSpace t with
    | nil => simp [readValue, hskip]
    | cons c u =>
      rw [hskip] at h
      cases h
      have hnumber : readNumber (']' :: u) = none := by
        have htake : (']' :: u).takeWhile isNumberChar = [] :=
          List.takeWhile_cons_of_neg (by decide)
        rw [readNumber, htake]
        rfl
      simp [readValue, hskip, hnumber]

theorem readValue_takes {fuel fuel' : Nat} (hfuel : fuel ≤ fuel') :
    Takes (readValue fuel) (readValue fuel') := by
  induction fuel generalizing fuel' with
  | zero =>
    intro t v r h
    cases h
  | succ fuel ih =>
    intro t v r h
    obtain ⟨fuel', rfl⟩ := Nat.exists_eq_add_one_of_ne_zero (by omega : fuel' ≠ 0)
    have hle : fuel ≤ fuel' := by omega
    rw [readValue] at h
    cases hskip : skipSpace t with
    | nil => simp [hskip] at h
    | cons c u =>
      obtain ⟨spaces, rfl, hskips, -⟩ := skipSpace_eq_cons hskip
      rw [hskip] at h
      dsimp only at h
      split at h
      · next hc =>
        subst hc
        obtain ⟨⟨s, u₁⟩, hs, hx⟩ := Option.map_eq_some_iff.mp h
        cases hx
        obtain ⟨s₁, rfl, hs₁⟩ := readString_takes hs
        exact ⟨spaces ++ '"' :: (s₁ ++ ['"']), by simp, fun rest _ => by
          simp [readValue, hskips, hs₁]⟩
      split at h
      · next hc =>
        subst hc
        obtain ⟨⟨items, u₁⟩, hitems, hx⟩ := Option.map_eq_some_iff.mp h
        cases hx
        obtain ⟨s₁, rfl, hs₁⟩ := readList_takes (ih hle) (by decide)
          (fun t => readValue_eq_none_of_head fuel') hle hitems
        exact ⟨spaces ++ '[' :: (s₁ ++ [']']), by simp, fun rest _ => by
          simp [readValue, hskips, hs₁]⟩
      split at h
      · next hc =>
        subst hc
        obtain ⟨⟨members, u₁⟩, hmembers, hx⟩ := Option.map_eq_some_iff.mp h
        cases hx
        obtain ⟨s₁, rfl, hs₁⟩ := readList_takes (readMember_takes (ih hle)) (by decide)
          (fun t => readMember_eq_none_of_head) hle hmembers
        exact ⟨spaces ++ '{' :: (s₁ ++ ['}']), by simp, fun rest _ => by
          simp [readValue, hskips, hs₁]⟩
      split at h
      · next hc =>
        subst hc
        obtain ⟨s₁, rfl, hs₁⟩ := readWord_takes _ _ _ _ _ h
        exact ⟨spaces ++ 't' :: s₁, by simp, fun rest hrest => by
          simp [readValue, hskips, hs₁ rest hrest]⟩
      split at h
      · next hc =>
        subst hc
        obtain ⟨s₁, rfl, hs₁⟩ := readWord_takes _ _ _ _ _ h
        exact ⟨spaces ++ 'f' :: s₁, by simp, fun rest hrest => by
          simp [readValue, hskips, hs₁ rest hrest]⟩
      split at h
      · next hc =>
        subst hc
        obtain ⟨s₁, rfl, hs₁⟩ := readWord_takes _ _ _ _ _ h
        exact ⟨spaces ++ 'n' :: s₁, by simp, fun rest hrest => by
          simp [readValue, hskips, hs₁ rest hrest]⟩
      obtain ⟨s₁, htext, hs₁⟩ := readNumber_takes _ _ _ h
      cases s₁ with
      | nil =>
        have hnothing := hs₁ [] (by simp [Stops])
        cases hnothing
      | cons c' s₁ =>
        cases htext
        refine ⟨spaces ++ c :: s₁, by simp, fun rest hrest => ?_⟩
        rw [List.append_assoc, List.cons_append, readValue, hskips]
        simp_all

/-- What is read of an object ends with the brace that closes it. -/
theorem readObject_takes {fuel fuel' : Nat} (hfuel : fuel ≤ fuel') {u r : Text} {v : Value}
    (h : readValue fuel ('{' :: u) = some (v, r)) :
    ∃ s, '{' :: u = s ++ '}' :: r ∧
      ∀ rest, readValue fuel' (s ++ '}' :: rest) = some (v, rest) := by
  cases fuel with
  | zero => cases h
  | succ fuel =>
    obtain ⟨fuel', rfl⟩ := Nat.exists_eq_add_one_of_ne_zero (by omega : fuel' ≠ 0)
    have hle : fuel ≤ fuel' := by omega
    have hskips : ∀ v, skipSpace ('{' :: v) = '{' :: v := fun v => skipSpace_cons (by decide)
    rw [readValue, hskips] at h
    obtain ⟨⟨members, u₁⟩, hmembers, hx⟩ := Option.map_eq_some_iff.mp h
    cases hx
    obtain ⟨s₁, rfl, hs₁⟩ := readList_takes (readMember_takes (readValue_takes hle)) (by decide)
      (fun t => readMember_eq_none_of_head) hle hmembers
    exact ⟨'{' :: s₁, rfl, fun rest => by simp [readValue, hskips, hs₁]⟩

/-! ## A text that is cut short -/

variable {members : List (Text × Value)} {p q : Text}

theorem head_object (h : stringify (.object members) = p ++ q) (hp : p ≠ []) :
    ∃ u, p = '{' :: u := by
  cases p with
  | nil => exact absurd rfl hp
  | cons c u =>
    rw [stringify, List.cons_append] at h
    injection h with hc _
    exact ⟨u, by rw [← hc]⟩

/-- Nothing is read of an object's text whose end is lost. -/
theorem parse_cut (h : stringify (.object members) = p ++ q) (hp : p ≠ []) (hq : q ≠ []) :
    parse p = none := by
  cases hread : readValue (p.length + 1) p with
  | none => simp [parse, hread]
  | some x =>
    exfalso
    obtain ⟨v, r⟩ := x
    obtain ⟨u, rfl⟩ := head_object h hp
    have hfuel : ('{' :: u).length + 1 ≤ (stringify (.object members)).length + 1 := by
      rw [h, List.length_append]
      omega
    obtain ⟨s, htext, hs⟩ := readObject_takes hfuel hread
    -- The whole text would be read in the same way, and its end would be left over.
    have hsplit : stringify (.object members) = s ++ '}' :: (r ++ q) := by
      rw [h, htext, List.append_assoc, List.cons_append]
    have hwhole := readValue_stringify (.object members) (Nat.lt_succ_self _) [] (by simp [Stops])
    have hrest := hs (r ++ q)
    rw [List.append_nil] at hwhole
    rw [← hsplit, hwhole] at hrest
    injection hrest with hrest
    injection hrest with _ hnil
    exact hq (List.append_eq_nil_iff.mp hnil.symm).2

/-- Nor is it if another character stands where it was cut. -/
theorem parse_cut_append {c : Char} (h : stringify (.object members) = p ++ q) (hp : p ≠ [])
    (hspace : isSpace c = false) (hbrace : c ≠ '}') : parse (p ++ [c]) = none := by
  unfold parse
  cases hread : readValue ((p ++ [c]).length + 1) (p ++ [c]) with
  | none => rfl
  | some x =>
    obtain ⟨v, r⟩ := x
    obtain ⟨u, rfl⟩ := head_object h hp
    obtain ⟨s, htext, -⟩ := readObject_takes (Nat.le_refl _) hread
    apply if_neg
    intro hr
    -- The last character is the brace that closes the object, or it is left over.
    have hlast : ('{' :: u ++ [c]).getLast? = (s ++ '}' :: r).getLast? := congrArg _ htext
    rw [List.getLast?_concat] at hlast
    rcases List.eq_nil_or_concat r with rfl | ⟨r', c', rfl⟩
    · rw [List.getLast?_concat] at hlast
      exact hbrace (Option.some.inj hlast)
    · rw [List.concat_eq_append] at hlast hr
      rw [← List.cons_append, ← List.append_assoc, List.getLast?_concat] at hlast
      have hall := List.dropWhile_eq_nil_iff.mp hr c' (by simp)
      rw [← Option.some.inj hlast, hspace] at hall
      cases hall

end Lib.Json
