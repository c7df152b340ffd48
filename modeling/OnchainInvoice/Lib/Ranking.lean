import Mathlib.Data.List.Nodup
import Mathlib.Data.List.Sort
import Mathlib.Tactic.Common

/-!
# Ranks in a sorted list

In a list that is sorted by a strict order an item stands behind as many others as come before it in
the order.  So what a page of the list shows, which is cut out by an offset and a limit, can be told
from ranks, and ranks can be counted in any arrangement of the list.
-/

namespace Lib.Ranking

variable {α : Type} (before : α → α → Prop) [DecidableRel before]

def rank (l : List α) (a : α) : Nat := l.countP fun b => before b a

variable {before} {l l' : List α} {a b : α} {i offset limit : Nat}

theorem rank_perm (h : l.Perm l') : rank before l a = rank before l' a := h.countP_eq _

section Sorted

variable [Std.Asymm before] (hsorted : l.Pairwise before)
include hsorted

theorem rank_getElem (h : i < l.length) : rank before l l[i] = i := by
  unfold rank
  induction l generalizing i with
  | nil => exact absurd h (Nat.not_lt_zero i)
  | cons b l ih =>
    obtain ⟨hhead, htail⟩ := List.pairwise_cons.mp hsorted
    cases i with
    | zero =>
      rw [List.countP_eq_zero]
      intro c hc
      rw [decide_eq_true_iff]
      rcases List.mem_cons.mp hc with rfl | hc
      · exact Std.Irrefl.irrefl c
      · exact Std.Asymm.asymm _ _ (hhead c hc)
    | succ i =>
      have hi : i < l.length := Nat.lt_of_succ_lt_succ h
      rw [List.countP_cons, List.getElem_cons_succ, ih htail hi, if_pos]
      exact decide_eq_true (hhead _ (List.getElem_mem hi))

/-- A page shows the items whose rank it covers. -/
theorem mem_page_iff (ha : a ∈ l) : a ∈ (l.drop offset).take limit ↔
    offset ≤ rank before l a ∧ rank before l a < offset + limit := by
  obtain ⟨i, hi, rfl⟩ := List.getElem_of_mem ha
  rw [rank_getElem hsorted hi]
  apply Iff.intro
  · intro hmem
    obtain ⟨j, hj, heq⟩ := List.getElem_of_mem hmem
    rw [List.length_take, List.length_drop] at hj
    rw [List.getElem_take, List.getElem_drop] at heq
    have hsame := congrArg (rank before l) heq
    rw [rank_getElem hsorted (by omega), rank_getElem hsorted hi] at hsame
    omega
  · intro hrange
    rw [List.mem_iff_getElem]
    refine ⟨i - offset, by rw [List.length_take, List.length_drop]; omega, ?_⟩
    rw [List.getElem_take, List.getElem_drop]
    congr 1
    omega

theorem rank_lt_length (ha : a ∈ l) : rank before l a < l.length := by
  obtain ⟨i, hi, rfl⟩ := List.getElem_of_mem ha
  rwa [rank_getElem hsorted hi]

/-- The first items of the list come before any item of at least their number as its rank. -/
theorem before_of_mem_take [IsTrans α before] (hb : b ∈ l.take offset)
    (hrank : offset ≤ rank before l a) : before b a := by
  obtain ⟨i, hi, rfl⟩ := List.getElem_of_mem hb
  rw [List.length_take] at hi
  rw [List.getElem_take]
  by_contra hnot
  -- whatever comes before `a` stands in front of this item
  have hle : rank before l a ≤ rank before l l[i] := by
    apply List.countP_mono_left
    intro c hc hca
    rw [decide_eq_true_iff] at hca ⊢
    obtain ⟨j, hj, rfl⟩ := List.getElem_of_mem hc
    rcases Nat.lt_trichotomy j i with hlt | rfl | hgt
    · exact List.pairwise_iff_getElem.mp hsorted j i hj (by omega) hlt
    · exact absurd hca hnot
    · exact absurd (IsTrans.trans _ _ _
        (List.pairwise_iff_getElem.mp hsorted i j (by omega) hj hgt) hca) hnot
  rw [rank_getElem hsorted (by omega)] at hle
  omega

end Sorted

theorem length_take_of_le_rank (hrank : offset ≤ rank before l a) :
    (l.take offset).length = offset :=
  List.length_take_of_le (Nat.le_trans hrank List.countP_le_length)

end Lib.Ranking
