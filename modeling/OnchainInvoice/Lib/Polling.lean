import Mathlib.Data.List.Nodup
import Mathlib.Data.List.Sort

/-!
# Polling a sorted list from its front

A poller looks at the first `limit` items of a list that is kept sorted by the time of the last
change.  An item that a round changes goes to the back.  An item that it leaves as it is stays in
front and is looked at again, so what the rounds get to see depends on how many such items there are.
-/

namespace Lib.Polling

variable {α : Type}

/-! ## Stable sorting -/

section Sorting

variable {r : α → α → Prop} [DecidableRel r]

theorem orderedInsert_eq_cons {a : α} {l : List α} (h : ∀ b ∈ l, r a b) :
    l.orderedInsert r a = a :: l := by
  cases l with
  | nil => rfl
  | cons b l => exact List.orderedInsert_cons_of_le r l (h b (List.mem_cons_self ..))

theorem filter_orderedInsert [IsTrans α r] (p : α → Bool) (a : α) {l : List α}
    (hl : l.Pairwise r) : (l.orderedInsert r a).filter p =
      if p a then (l.filter p).orderedInsert r a else l.filter p := by
  induction l with
  | nil => cases hp : p a <;> simp [hp]
  | cons b l ih =>
    obtain ⟨hb, hl⟩ := List.pairwise_cons.mp hl
    rw [List.orderedInsert_cons]
    split
    · rename_i hle
      -- The item goes before all others, those that are kept included.
      have hall : ∀ c ∈ (b :: l).filter p, r a c := by
        intro c hc
        rcases List.mem_cons.mp (List.mem_of_mem_filter hc) with rfl | hc
        · exact hle
        · exact trans_of r hle (hb c hc)
      rw [List.filter_cons, orderedInsert_eq_cons hall]
    · rename_i hnot
      rw [List.filter_cons, ih hl, List.filter_cons]
      cases hpa : p a with
      | false => rfl
      | true =>
        cases hpb : p b with
        | false => rfl
        | true =>
          simp only [if_true]
          rw [List.orderedInsert_cons, if_neg hnot]

/-- Sorting and leaving out commute. -/
theorem filter_insertionSort [Std.Total r] [IsTrans α r] (p : α → Bool) (l : List α) :
    (l.insertionSort r).filter p = (l.filter p).insertionSort r := by
  induction l with
  | nil => rfl
  | cons a l ih =>
    rw [List.insertionSort_cons, filter_orderedInsert p a (List.pairwise_insertionSort r l), ih,
      List.filter_cons]
    split
    · exact (List.insertionSort_cons ..).symm
    · rfl

omit [DecidableRel r] in
theorem filter_append_filter_of_sorted {p : α → Bool} {l : List α} (hl : l.Pairwise r)
    (hp : ∀ a ∈ l, ∀ b ∈ l, p a = false → p b = true → ¬r a b) :
    l.filter p ++ l.filter (fun a => !p a) = l := by
  induction l with
  | nil => rfl
  | cons a l ih =>
    obtain ⟨ha, hl⟩ := List.pairwise_cons.mp hl
    cases hpa : p a with
    | true =>
      have htail := ih hl fun b hb c hc =>
        hp b (List.mem_cons_of_mem a hb) c (List.mem_cons_of_mem a hc)
      rw [List.filter_cons_of_pos hpa, List.filter_cons_of_neg (by simp [hpa]), List.cons_append,
        htail]
    | false =>
      have hnone : l.filter p = [] := by
        rw [List.filter_eq_nil_iff]
        intro b hb hpb
        exact hp a (List.mem_cons_self ..) b (List.mem_cons_of_mem a hb) hpa hpb (ha b hb)
      have hall : l.filter (fun a => !p a) = l := by
        rw [List.filter_eq_self]
        intro b hb
        cases hpb : p b with
        | false => rfl
        | true =>
          exact absurd (ha b hb)
            (hp a (List.mem_cons_self ..) b (List.mem_cons_of_mem a hb) hpa hpb)
      rw [List.filter_cons_of_neg (by simp [hpa]), List.filter_cons_of_pos (by simp [hpa]), hnone,
        hall]
      rfl

/-- A sorted list is split where a condition stops holding. -/
theorem insertionSort_eq_append [Std.Total r] [IsTrans α r] {p : α → Bool} {l : List α}
    (hp : ∀ a ∈ l, ∀ b ∈ l, p a = false → p b = true → ¬r a b) :
    l.insertionSort r =
      (l.filter p).insertionSort r ++ (l.filter fun a => !p a).insertionSort r := by
  rw [← filter_insertionSort, ← filter_insertionSort]
  refine (filter_append_filter_of_sorted (List.pairwise_insertionSort r l) ?_).symm
  intro a ha b hb
  exact hp a ((List.mem_insertionSort r).mp ha) b ((List.mem_insertionSort r).mp hb)

end Sorting

/-! ## Rounds -/

variable (limit : Nat) (stays : α → Bool) (xs : List α)

-- What no round has changed yet, in its order.
def poll (waiting : List α) : List α :=
  (waiting.take limit).filter stays ++ waiting.drop limit

def waiting : Nat → List α
  | 0 => xs
  | n + 1 => poll limit stays (waiting n)

theorem poll_eq_filter [DecidableEq α] {l : List α} (hl : l.Nodup) :
    poll limit stays l = l.filter fun x => !decide (x ∈ l.take limit) || stays x := by
  let kept (x : α) : Bool := !decide (x ∈ l.take limit) || stays x
  have hfront : (l.take limit).filter kept = (l.take limit).filter stays := by
    apply List.filter_congr
    intro x hx
    simp [kept, hx]
  have hback : (l.drop limit).filter kept = l.drop limit := by
    rw [List.filter_eq_self]
    intro x hx
    have hnot : x ∉ l.take limit := fun hmem => List.disjoint_take_drop hl (le_refl limit) hmem hx
    simp [kept, hnot]
  calc poll limit stays l
      = (l.take limit).filter kept ++ (l.drop limit).filter kept := by rw [hfront, hback]; rfl
    _ = (l.take limit ++ l.drop limit).filter kept := (List.filter_append ..).symm
    _ = l.filter kept := by rw [List.take_append_drop]

-- How many items from the front have been looked at before a round.
def reached : Nat → Nat
  | 0 => 0
  | n + 1 => min xs.length (reached n + (limit - (xs.take (reached n)).countP stays))

theorem reached_le (n : Nat) : reached limit stays xs n ≤ xs.length := by
  cases n with
  | zero => exact Nat.zero_le _
  | succ n => exact min_le_left ..

theorem reached_succ_le (n : Nat) :
    reached limit stays xs n ≤ reached limit stays xs (n + 1) :=
  le_min (reached_le limit stays xs n) (Nat.le_add_right ..)

theorem reached_mono {m n : Nat} (h : m ≤ n) :
    reached limit stays xs m ≤ reached limit stays xs n :=
  monotone_nat_of_le_succ (reached_succ_le limit stays xs) h

theorem take_reached_succ (n : Nat) : xs.take (reached limit stays xs (n + 1)) =
    xs.take (reached limit stays xs n) ++ (xs.drop (reached limit stays xs n)).take
      (limit - (xs.take (reached limit stays xs n)).countP stays) := by
  show xs.take (min xs.length _) = _
  rw [← List.take_add, List.take_eq_take_iff]
  omega

theorem drop_reached_succ (n : Nat) : xs.drop (reached limit stays xs (n + 1)) =
    (xs.drop (reached limit stays xs n)).drop
      (limit - (xs.take (reached limit stays xs n)).countP stays) := by
  show xs.drop (min xs.length _) = _
  rw [List.drop_drop]
  rcases Nat.le_total xs.length (reached limit stays xs n +
      (limit - (xs.take (reached limit stays xs n)).countP stays)) with hle | hle
  · rw [min_eq_left hle, List.drop_length, List.drop_eq_nil_of_le hle]
  · rw [min_eq_right hle]

/-- Before each round there wait the items that stay among those looked at, and the others. -/
theorem waiting_eq (n : Nat) : waiting limit stays xs n =
    (xs.take (reached limit stays xs n)).filter stays ++ xs.drop (reached limit stays xs n) := by
  induction n with
  | zero => rfl
  | succ n ih =>
    show poll limit stays (waiting limit stays xs n) = _
    rw [ih, take_reached_succ, drop_reached_succ, List.filter_append]
    generalize (xs.take (reached limit stays xs n)) = seen
    generalize (xs.drop (reached limit stays xs n)) = rest
    unfold poll
    rw [List.countP_eq_length_filter, List.take_append, List.drop_append, List.filter_append]
    have hstays : ∀ m, ((seen.filter stays).take m).filter stays = (seen.filter stays).take m := by
      intro m
      rw [List.filter_eq_self]
      intro a ha
      exact List.of_mem_filter (List.mem_of_mem_take ha)
    rw [hstays, List.append_assoc, List.append_assoc]
    rcases Nat.le_total (seen.filter stays).length limit with hle | hle
    · rw [List.take_of_length_le hle, List.drop_eq_nil_of_le hle]
      rfl
    · rw [Nat.sub_eq_zero_of_le hle, List.take_zero, List.filter_nil, List.drop_zero, List.nil_append,
        List.nil_append, ← List.append_assoc, List.take_append_drop]

/-- What a round looks at is what it has looked at before and the items that it gets to. -/
theorem mem_take_waiting {n : Nat} {x : α} : x ∈ (waiting limit stays xs n).take limit →
    x ∈ xs.take (reached limit stays xs (n + 1)) := by
  rw [waiting_eq, List.take_append, ← List.countP_eq_length_filter, take_reached_succ]
  intro hx
  rcases List.mem_append.mp hx with hold | hnew
  · exact List.mem_append_left _ (List.mem_of_mem_filter (List.mem_of_mem_take hold))
  · exact List.mem_append_right _ hnew

/-- An item is looked at in one of the rounds if and only if they get to it. -/
theorem seen_iff {n : Nat} {x : α} : (∃ m < n, x ∈ (waiting limit stays xs m).take limit) ↔
    x ∈ xs.take (reached limit stays xs n) := by
  apply Iff.intro
  · rintro ⟨m, hm, hx⟩
    have hle : reached limit stays xs (m + 1) ≤ reached limit stays xs n :=
      reached_mono limit stays xs hm
    exact (List.take_subset_take_left xs hle) (mem_take_waiting limit stays xs hx)
  · intro hx
    induction n with
    | zero => exact absurd hx List.not_mem_nil
    | succ n ih =>
      rw [take_reached_succ] at hx
      rcases List.mem_append.mp hx with hold | hnew
      · obtain ⟨m, hm, hseen⟩ := ih hold
        exact ⟨m, Nat.lt_succ_of_lt hm, hseen⟩
      · refine ⟨n, Nat.lt_succ_self n, ?_⟩
        rw [waiting_eq, List.take_append, ← List.countP_eq_length_filter]
        exact List.mem_append_right _ hnew

-- What waits no more has been looked at.
theorem waiting_or_seen {x : α} (hx : x ∈ xs) (n : Nat) :
    x ∈ waiting limit stays xs n ∨ ∃ m < n, x ∈ (waiting limit stays xs m).take limit := by
  induction n with
  | zero => exact .inl hx
  | succ n ih =>
    rcases ih with hwaits | ⟨m, hm, hseen⟩
    · rw [← List.take_append_drop limit (waiting limit stays xs n)] at hwaits
      rcases List.mem_append.mp hwaits with hfront | hback
      · exact .inr ⟨n, Nat.lt_succ_self n, hfront⟩
      · exact .inl (List.mem_append_right _ hback)
    · exact .inr ⟨m, Nat.lt_succ_of_lt hm, hseen⟩

/-- All items are looked at if and only if the rounds get to the end. -/
theorem all_seen_iff (hxs : xs.Nodup) (n : Nat) :
    (∀ x ∈ xs, ∃ m < n, x ∈ (waiting limit stays xs m).take limit) ↔
      reached limit stays xs n = xs.length := by
  simp only [seen_iff]
  apply Iff.intro
  · intro hall
    have hle : xs.length ≤ (xs.take (reached limit stays xs n)).length :=
      hxs.length_le_of_subset hall
    rw [List.length_take] at hle
    have := reached_le limit stays xs n
    omega
  · intro hreached x hx
    rwa [hreached, List.take_length]

/-- If the front stays, nothing behind it is ever looked at. -/
theorem reached_le_limit (hstays : ∀ x ∈ xs.take limit, stays x = true) (n : Nat) :
    reached limit stays xs n ≤ limit := by
  induction n with
  | zero => exact Nat.zero_le _
  | succ n ih =>
    have hall : (xs.take (reached limit stays xs n)).countP stays =
        (xs.take (reached limit stays xs n)).length := by
      rw [List.countP_eq_length]
      intro x hx
      exact hstays x (List.take_subset_take_left xs ih hx)
    have hlength := List.length_take_of_le (reached_le limit stays xs n)
    show min xs.length _ ≤ limit
    omega

end Lib.Polling
