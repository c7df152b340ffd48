import Mathlib.Data.List.Induction
import Mathlib.Data.List.Nodup
import Mathlib.Data.List.Perm.Basic
import Mathlib.Tactic.Common

/-!
# Swap-and-pop removal

Removing an entry from a storage array without keeping its order: the last entry is written over
the first match and the array is shortened by one.
-/

namespace Lib.SwapPop

variable {α : Type} [DecidableEq α]

/-- `for (i) if (list[i] == a) { list[i] = list[list.length - 1]; list.pop(); break; }` -/
def swapPop (list : List α) (a : α) : List α :=
  match list.findIdx? (· == a) with
  | some i => (list.set i (list.getLastD a)).dropLast
  | none => list

theorem swapPop_of_notMem {list : List α} {a : α} (h : a ∉ list) : swapPop list a = list := by
  have hnone : list.findIdx? (· == a) = none := by
    simp only [List.findIdx?_eq_none_iff, beq_eq_false_iff_ne]
    rintro b hb rfl
    exact h hb
  rw [swapPop, hnone]

/-- At its first match `a`, the loop keeps the prefix and moves the last entry of the suffix. -/
theorem swapPop_append_cons {pre post : List α} {a : α} (h : a ∉ pre) :
    swapPop (pre ++ a :: post) a = pre ++ (post.getLast?.toList ++ post.dropLast) := by
  have hidx : (pre ++ a :: post).findIdx? (· == a) = some pre.length := by
    rw [List.findIdx?_append, List.findIdx?_eq_none_iff.mpr (by
      intro b hb
      rw [beq_eq_false_iff_ne]
      rintro rfl
      exact h hb)]
    simp [List.findIdx?_cons]
  rw [swapPop, hidx]
  cases post using List.reverseRecOn with
  | nil => simp
  | append_singleton post z =>
    have hlast : (pre ++ a :: (post ++ [z])).getLastD a = z := by
      simp [List.getLastD_eq_getLast?, List.getLast?_cons]
    simp only [hlast]
    rw [List.set_append_right _ _ (Nat.le_refl _), Nat.sub_self, List.set_cons_zero,
      List.dropLast_append_of_ne_nil (by simp), ← List.cons_append, List.dropLast_concat]
    simp

/-- Up to order, swap-and-pop erases one occurrence. -/
theorem swapPop_perm (list : List α) (a : α) : (swapPop list a).Perm (list.erase a) := by
  by_cases h : a ∈ list
  · obtain ⟨pre, post, rfl, hpre⟩ := List.eq_append_cons_of_mem h
    rw [swapPop_append_cons hpre, List.erase_append_right _ hpre, List.erase_cons_head]
    apply List.Perm.append_left
    cases post using List.reverseRecOn with
    | nil => simp
    | append_singleton post z => simpa using (List.perm_append_singleton z post).symm
  · rw [swapPop_of_notMem h, List.erase_of_not_mem h]

theorem length_swapPop {list : List α} {a : α} (h : a ∈ list) :
    (swapPop list a).length = list.length - 1 := by
  rw [(swapPop_perm list a).length_eq, List.length_erase_of_mem h]

theorem nodup_swapPop {list : List α} (a : α) (h : list.Nodup) : (swapPop list a).Nodup :=
  (swapPop_perm list a).nodup_iff.mpr (h.erase a)

theorem mem_swapPop {list : List α} {a b : α} (h : list.Nodup) :
    b ∈ swapPop list a ↔ b ≠ a ∧ b ∈ list := by
  rw [(swapPop_perm list a).mem_iff, h.mem_erase_iff]

/-- Removing a listed entry lowers a count by the entry's own share. -/
theorem countP_swapPop (p : α → Bool) {list : List α} {a : α} (h : a ∈ list) :
    (swapPop list a).countP p + (if p a then 1 else 0) = list.countP p := by
  rw [(swapPop_perm list a).countP_eq, (List.perm_cons_erase h).countP_eq p, List.countP_cons]

end Lib.SwapPop
