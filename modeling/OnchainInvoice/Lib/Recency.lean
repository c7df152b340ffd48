import Mathlib.Data.List.Nodup
import Mathlib.Data.List.Sort
import Mathlib.Tactic.Common

/-!
# Keeping the most recent

Keys in the order of their last use, the latest first, and a table that records the time of that use
in each row.  Sorting the table by its times and cutting it off keeps the most recent keys, unless
the row that has to go shares its time with a row behind it.
-/

namespace Lib.Recency

section Touching

variable {κ : Type} [DecidableEq κ] {k : κ} {recent : List κ}

def touch (k : κ) (recent : List κ) : List κ := k :: recent.erase k

theorem take_erase (k : κ) (recent : List κ) (n : Nat) :
    ((recent.take (n + 1)).erase k).take n = (recent.erase k).take n := by
  induction recent generalizing n with
  | nil => rfl
  | cons first recent ih =>
    rw [List.take_succ_cons]
    by_cases hfirst : first = k
    · rw [hfirst, List.erase_cons_head, List.erase_cons_head, List.take_take, Nat.min_self]
    · have hne : ¬(first == k) = true := by simpa using hfirst
      rw [List.erase_cons_tail hne, List.erase_cons_tail hne]
      cases n with
      | zero => rfl
      | succ n => rw [List.take_succ_cons, List.take_succ_cons, ih]

/-- What does not fit is not missed. -/
theorem take_touch (k : κ) (recent : List κ) (n : Nat) :
    (touch k (recent.take n)).take n = (touch k recent).take n := by
  cases n with
  | zero => rfl
  | succ n =>
    unfold touch
    rw [List.take_succ_cons, List.take_succ_cons, take_erase]

theorem length_touch_of_mem (h : k ∈ recent) : (touch k recent).length = recent.length := by
  unfold touch
  rw [List.length_cons, List.length_erase_of_mem h]
  have hpos := List.length_pos_of_mem h
  omega

theorem nodup_touch (h : recent.Nodup) : (touch k recent).Nodup := by
  unfold touch
  exact List.nodup_cons.mpr ⟨h.not_mem_erase, h.erase k⟩

theorem mem_touch {k' : κ} : k' ∈ touch k recent ↔ k' = k ∨ k' ∈ recent := by
  unfold touch
  rw [List.mem_cons]
  by_cases hk : k' = k
  · simp [hk]
  · rw [List.mem_erase_of_ne hk]

end Touching

/-! ## Sorting -/

section Sorting

variable {ρ : Type} {le : ρ → ρ → Prop} [DecidableRel le] {first rest : List ρ} {x r : ρ}

theorem orderedInsert_concat {l : List ρ} (h : le r x) :
    (l ++ [x]).orderedInsert le r = l.orderedInsert le r ++ [x] := by
  induction l with
  | nil => simp [h]
  | cons b l ih =>
    rw [List.cons_append, List.orderedInsert_cons, List.orderedInsert_cons]
    split
    · rfl
    · rw [ih, List.cons_append]

theorem orderedInsert_last {l : List ρ} (h : ∀ r ∈ l, ¬le x r) :
    l.orderedInsert le x = l ++ [x] := by
  induction l with
  | nil => rfl
  | cons b l ih =>
    rw [List.orderedInsert_cons, if_neg (h b List.mem_cons_self),
      ih fun r hr => h r (List.mem_cons_of_mem b hr), List.cons_append]

/-- A row that none comes after is sorted to the end. -/
theorem insertionSort_last (hfirst : ∀ r ∈ first, le r x) (hrest : ∀ r ∈ rest, ¬le x r) :
    (first ++ x :: rest).insertionSort le = (first ++ rest).insertionSort le ++ [x] := by
  induction first with
  | nil =>
    rw [List.nil_append, List.nil_append, List.insertionSort_cons]
    apply orderedInsert_last
    intro r hr
    exact hrest r ((List.mem_insertionSort le).mp hr)
  | cons b first ih =>
    rw [List.cons_append, List.cons_append, List.insertionSort_cons, List.insertionSort_cons,
      ih fun r hr => hfirst r (List.mem_cons_of_mem b hr),
      orderedInsert_concat (hfirst b List.mem_cons_self)]

end Sorting

/-! ## Tables -/

variable {κ ρ : Type}

/-- The keys are those of the rows, and their order is that of the times. -/
structure Tracks (key : ρ → κ) (time : ρ → Int) (rows : List ρ) (recent : List κ) (clock : Int) :
    Prop where
  nodup : recent.Nodup
  perm : (rows.map key).Perm recent
  aged : ∀ a ∈ rows, ∀ b ∈ rows, [key a, key b].Sublist recent → time b ≤ time a
  past : ∀ a ∈ rows, time a ≤ clock

namespace Tracks

variable {key : ρ → κ} {time : ρ → Int} {rows rows' : List ρ} {recent : List κ}
  {clock now : Int} {new : ρ} {k : κ} {n : Nat}

theorem empty (clock : Int) : Tracks key time [] [] clock where
  nodup := List.nodup_nil
  perm := .refl []
  aged := fun _ ha => absurd ha List.not_mem_nil
  past := fun _ ha => absurd ha List.not_mem_nil

theorem mem (h : Tracks key time rows recent clock) : k ∈ recent ↔ ∃ r ∈ rows, key r = k := by
  rw [← h.perm.mem_iff, List.mem_map]

theorem length (h : Tracks key time rows recent clock) : rows.length = recent.length := by
  rw [← h.perm.length_eq, List.length_map]

theorem mono (h : Tracks key time rows recent clock) (hnow : clock ≤ now) :
    Tracks key time rows recent now :=
  { h with past := fun a ha => (h.past a ha).trans hnow }

theorem of_perm (h : Tracks key time rows recent clock) (hrows : rows'.Perm rows) :
    Tracks key time rows' recent clock where
  nodup := h.nodup
  perm := (hrows.map key).trans h.perm
  aged := fun a ha b hb => h.aged a (hrows.mem_iff.mp ha) b (hrows.mem_iff.mp hb)
  past := fun a ha => h.past a (hrows.mem_iff.mp ha)

-- A part of the rows, with the keys that they have.
theorem sublist (h : Tracks key time rows recent clock) {recent' : List κ}
    (hsub : rows' ⊆ rows) (hrecent : recent'.Sublist recent)
    (hperm : (rows'.map key).Perm recent') : Tracks key time rows' recent' clock where
  nodup := h.nodup.sublist hrecent
  perm := hperm
  aged := fun a ha b hb hpair => h.aged a (hsub ha) b (hsub hb) (hpair.trans hrecent)
  past := fun a ha => h.past a (hsub ha)

theorem filter (h : Tracks key time rows recent clock) (p : κ → Bool) :
    Tracks key time (rows.filter fun r => p (key r)) (recent.filter p) clock := by
  apply h.sublist (List.filter_subset_self rows) List.filter_sublist
  have hmap : (rows.filter fun r => p (key r)).map key = (rows.map key).filter p := by
    rw [List.filter_map]
    rfl
  rw [hmap]
  exact h.perm.filter p

section Touched

variable [DecidableEq κ]

theorem touched (h : Tracks key time rows recent clock) (hclock : clock ≤ now)
    (hperm : (rows'.map key).Perm (touch k recent)) (hnow : ∀ r ∈ rows', key r = k → time r = now)
    (hold : ∀ r ∈ rows', key r ≠ k → r ∈ rows) :
    Tracks key time rows' (touch k recent) now := by
  have hlast : k ∉ recent.erase k := h.nodup.not_mem_erase
  apply Tracks.mk (nodup_touch h.nodup) hperm
  · intro a ha b hb hpair
    unfold touch at hpair
    by_cases hkb : key b = k
    · -- Nothing is in front of the key that is touched.
      rcases List.sublist_cons_iff.mp hpair with hrest | ⟨rest, heq, hrest⟩
      · exact absurd (hrest.subset (by simp [hkb])) hlast
      · cases heq
        exact absurd (hrest.subset (by simp [hkb])) hlast
    · have hb' := (h.past b (hold b hb hkb)).trans hclock
      by_cases hka : key a = k
      · rw [hnow a ha hka]
        exact hb'
      · rcases List.sublist_cons_iff.mp hpair with hrest | ⟨rest, heq, hrest⟩
        · exact h.aged a (hold a ha hka) b (hold b hb hkb) (hrest.trans List.erase_sublist)
        · cases heq
          exact absurd rfl hka
  · intro a ha
    by_cases hka : key a = k
    · rw [hnow a ha hka]
    · exact (h.past a (hold a ha hka)).trans hclock

/-- A new row stands at the end of the table, and its key in front. -/
theorem append (h : Tracks key time rows recent clock) (hnew : key new ∉ recent)
    (hclock : clock ≤ time new) :
    Tracks key time (rows ++ [new]) (touch (key new) recent) (time new) := by
  apply h.touched hclock
  · unfold touch
    rw [List.map_append, List.erase_of_not_mem hnew]
    exact (List.perm_append_singleton _ _).trans (h.perm.cons _)
  · intro r hr hkey
    rcases List.mem_append.mp hr with hr | hr
    · exact absurd (h.mem.mpr ⟨r, hr, hkey⟩) hnew
    · rw [List.mem_singleton.mp hr]
  · intro r hr hkey
    rcases List.mem_append.mp hr with hr | hr
    · exact hr
    · exact absurd (congrArg key (List.mem_singleton.mp hr)) hkey

/-- A row that is touched keeps its place in the table, and its key comes to the front. -/
theorem map (h : Tracks key time rows recent clock) {f : ρ → ρ} (hk : k ∈ recent)
    (hkey : ∀ r, key (f r) = key r) (htime : ∀ r, key r = k → time (f r) = now)
    (hother : ∀ r, key r ≠ k → f r = r) (hclock : clock ≤ now) :
    Tracks key time (rows.map f) (touch k recent) now := by
  apply h.touched hclock
  · have hkeys : (rows.map f).map key = rows.map key := by
      rw [List.map_map]
      apply List.map_congr_left
      intro r _
      exact hkey r
    rw [hkeys]
    exact h.perm.trans (List.perm_cons_erase hk)
  · intro r hr hrk
    obtain ⟨old, -, rfl⟩ := List.mem_map.mp hr
    rw [hkey] at hrk
    exact htime old hrk
  · intro r hr hrk
    obtain ⟨old, hold, rfl⟩ := List.mem_map.mp hr
    rw [hkey] at hrk
    rw [hother old hrk]
    exact hold

end Touched

-- The row of the key shares its time neither with the clock nor with a row behind it.
def Apart (key : ρ → κ) (time : ρ → Int) : List ρ → Option κ → Int → Prop
  | [], _, _ => True
  | x :: rest, oldest, now =>
    (some (key x) = oldest → time x ≠ now ∧ ∀ r ∈ rest, time r ≠ time x) ∧
      Apart key time rest oldest now

instance decidableApart [DecidableEq κ] (key : ρ → κ) (time : ρ → Int) (oldest : Option κ)
    (now : Int) : (rows : List ρ) → Decidable (Apart key time rows oldest now)
  | [] => .isTrue trivial
  | x :: rest =>
    have := decidableApart key time oldest now rest
    inferInstanceAs (Decidable ((some (key x) = oldest → _ ∧ ∀ r ∈ rest, _) ∧ _))

theorem Apart.of_split {oldest : Option κ} {first rest : List ρ} {x : ρ}
    (h : Apart key time (first ++ x :: rest) oldest now) (hx : some (key x) = oldest) :
    time x ≠ now ∧ ∀ r ∈ rest, time r ≠ time x := by
  induction first with
  | nil => exact h.1 hx
  | cons y first ih => exact ih h.2

/-- The row of the last key has no later time than the others. -/
theorem exists_oldest {init : List κ} (h : Tracks key time rows (init ++ [k]) clock) :
    ∃ first x rest, rows = first ++ x :: rest ∧ key x = k ∧
      ((first ++ rest).map key).Perm init ∧ ∀ r ∈ first ++ rest, time x ≤ time r := by
  obtain ⟨x, hx, hkey⟩ := h.mem.mp (List.mem_append_right init (List.mem_singleton_self k))
  obtain ⟨first, rest, rfl⟩ := List.append_of_mem hx
  have hkeys : ((first ++ rest).map key).Perm init := by
    have hperm := h.perm
    rw [List.map_append, List.map_cons, hkey] at hperm
    have hcancel := List.perm_middle.symm.trans (hperm.trans (List.perm_append_singleton k init))
    rw [List.map_append]
    exact List.Perm.cons_inv hcancel
  refine ⟨first, x, rest, rfl, hkey, hkeys, ?_⟩
  intro r hr
  have hinit : key r ∈ init := hkeys.mem_iff.mp (List.mem_map_of_mem hr)
  have hpair : [key r, key x].Sublist (init ++ [k]) := by
    rw [hkey]
    exact (List.singleton_sublist.mpr hinit).append (.refl [k])
  apply h.aged r _ x hx hpair
  rcases List.mem_append.mp hr with hr | hr
  · exact List.mem_append_left _ hr
  · exact List.mem_append_right _ (List.mem_cons_of_mem x hr)

/-- Sorting by the times, with ties in the order of the table, and cutting off keeps the most recent
keys. -/
theorem cut {le : ρ → ρ → Prop} [DecidableRel le] (h : Tracks key time rows recent clock)
    (hlength : recent.length ≤ n + 1)
    (hle : ∀ first x rest, rows = first ++ x :: rest →
      (∀ r ∈ first, time x ≤ time r → le r x) ∧ ∀ r ∈ rest, time x < time r → ¬le x r)
    (hties : recent.length = n + 1 → ∀ first x rest, rows = first ++ x :: rest →
      some (key x) = recent.getLast? → ∀ r ∈ rest, time r ≠ time x) :
    Tracks key time ((rows.insertionSort le).take n) (recent.take n) clock := by
  have hsorted := List.perm_insertionSort le rows
  by_cases hfull : recent.length = n + 1
  · rcases List.eq_nil_or_concat' recent with rfl | ⟨init, k, rfl⟩
    · cases hfull
    obtain ⟨first, x, rest, rfl, hkey, hkeys, hleast⟩ := h.exists_oldest
    have horder := hle first x rest rfl
    have hsplit : (first ++ x :: rest).insertionSort le =
        (first ++ rest).insertionSort le ++ [x] := by
      apply insertionSort_last
      · intro r hr
        exact horder.1 r hr (hleast r (List.mem_append_left _ hr))
      · intro r hr
        have hne := hties hfull first x rest rfl (by simp [hkey]) r hr
        have hlt := hleast r (List.mem_append_right _ hr)
        exact horder.2 r hr (by omega)
    have hinit : init.length = n := by
      rw [List.length_append, List.length_singleton] at hfull
      omega
    have hothers := List.perm_insertionSort le (first ++ rest)
    have hcount : ((first ++ rest).insertionSort le).length = n := by
      rw [hothers.length_eq, ← hinit, ← hkeys.length_eq, List.length_map]
    rw [hsplit, List.take_left' hcount, List.take_left' hinit]
    have hinner : Tracks key time (first ++ rest) init clock := by
      apply h.sublist _ (List.sublist_append_left init [k]) hkeys
      intro r hr
      rcases List.mem_append.mp hr with hr | hr
      · exact List.mem_append_left _ hr
      · exact List.mem_append_right _ (List.mem_cons_of_mem x hr)
    exact hinner.of_perm hothers
  · have hshort : recent.length ≤ n := by omega
    rw [List.take_of_length_le hshort, List.take_of_length_le]
    · exact h.of_perm hsorted
    · rw [hsorted.length_eq, h.length]
      exact hshort

/-- With a new row it is the table before that tells whether times are shared. -/
theorem ties_append [DecidableEq κ] (hnew : key new ∉ recent) (hn : 0 < n)
    (hapart : recent.length = n → Apart key time rows recent.getLast? (time new))
    (hfull : (touch (key new) recent).length = n + 1) :
    ∀ first x rest, rows ++ [new] = first ++ x :: rest →
      some (key x) = (touch (key new) recent).getLast? → ∀ r ∈ rest, time r ≠ time x := by
  intro first x rest hrows hlast r hr
  unfold touch at hfull hlast
  rw [List.erase_of_not_mem hnew] at hfull hlast
  have hlength : recent.length = n := by
    rw [List.length_cons] at hfull
    omega
  rcases List.eq_nil_or_concat' rest with rfl | ⟨rest', y, rfl⟩
  · exact absurd hr List.not_mem_nil
  have hrows' : rows ++ [new] = (first ++ x :: rest') ++ [y] := by
    rw [hrows]
    simp
  obtain ⟨hrows'', hy⟩ := List.append_inj' hrows' rfl
  cases hy
  have hne : recent ≠ [] := by
    rintro rfl
    rw [← hlength] at hn
    exact Nat.lt_irrefl 0 hn
  rw [List.getLast?_cons_of_ne_nil hne] at hlast
  have hbefore := hapart hlength
  rw [hrows''] at hbefore
  obtain ⟨hnow, hties⟩ := hbefore.of_split hlast
  rcases List.mem_append.mp hr with hr | hr
  · exact hties r hr
  · rw [List.mem_singleton.mp hr]
    exact Ne.symm hnow

end Tracks

end Lib.Recency
