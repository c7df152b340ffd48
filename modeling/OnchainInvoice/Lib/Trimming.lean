import Mathlib.Data.List.DropRight

/-!
# Trimming

A list without what stands at its two ends: of `before ++ l ++ after`, where everything outside `l`
is to go and neither end of `l` is, there remains `l`.
-/

namespace Lib.Trimming

variable {α : Type} (p : α → Bool) (l : List α)

def trimmed : List α := (l.dropWhile p).rdropWhile p

-- Neither end is to go.
structure Bare : Prop where
  head : ∀ x ∈ l.head?, p x = false
  last : ∀ x ∈ l.getLast?, p x = false

variable {p l} {before after : List α}

theorem rdropWhile_of_last (h : ∀ x ∈ l.getLast?, p x = false) : l.rdropWhile p = l := by
  rw [List.rdropWhile_eq_self_iff]
  intro hl
  simp [h (l.getLast hl) (List.getLast?_eq_getLast_of_ne_nil hl)]

theorem rdropWhile_append_of_all (hafter : ∀ x ∈ after, p x = true) :
    (l ++ after).rdropWhile p = l.rdropWhile p := by
  induction after using List.reverseRecOn with
  | nil => rw [List.append_nil]
  | append_singleton after x ih =>
    rw [← List.append_assoc, List.rdropWhile_concat_pos p _ x (hafter x (by simp))]
    exact ih fun y hy => hafter y (by simp [hy])

theorem trimmed_of_bare (hbefore : ∀ x ∈ before, p x = true) (hafter : ∀ x ∈ after, p x = true)
    (h : Bare p l) : trimmed p (before ++ l ++ after) = l := by
  unfold trimmed
  rw [List.append_assoc, List.dropWhile_append_of_pos hbefore]
  cases l with
  | nil =>
    rw [List.nil_append, List.dropWhile_eq_nil_iff.mpr hafter]
    rfl
  | cons x l =>
    rw [List.cons_append, List.dropWhile_cons_of_neg (by simp [h.head x rfl]), ← List.cons_append,
      rdropWhile_append_of_all hafter, rdropWhile_of_last h.last]

theorem eq_append_trimmed (p : α → Bool) (l : List α) :
    ∃ before after, (∀ x ∈ before, p x = true) ∧ (∀ x ∈ after, p x = true) ∧
      l = before ++ trimmed p l ++ after := by
  refine ⟨l.takeWhile p, (l.dropWhile p).rtakeWhile p, ?_, ?_, ?_⟩
  · intro x hx
    exact List.mem_takeWhile_imp hx
  · intro x hx
    exact List.mem_rtakeWhile_imp hx
  · unfold trimmed
    rw [List.append_assoc, List.rdropWhile_append_rtakeWhile, List.takeWhile_append_dropWhile]

theorem bare_trimmed (p : α → Bool) (l : List α) : Bare p (trimmed p l) := by
  apply Bare.mk
  · intro x hx
    have hfirst := List.head?_dropWhile_not p l
    rcases List.rdropWhile_prefix p (l.dropWhile p) with ⟨after, hafter⟩
    have hhead : (l.dropWhile p).head? = some x := by
      have hx' : (List.rdropWhile p (l.dropWhile p)).head? = some x := hx
      rw [← hafter, List.head?_append, hx', Option.some_or]
    rw [hhead] at hfirst
    simpa using hfirst
  · intro x hx
    have hne : trimmed p l ≠ [] := by
      intro hnil
      rw [hnil] at hx
      cases hx
    have hlast := List.rdropWhile_last_not p (l.dropWhile p) hne
    rw [List.getLast?_eq_getLast_of_ne_nil hne] at hx
    cases hx
    exact Bool.eq_false_iff.mpr hlast

theorem trimmed_trimmed (p : α → Bool) (l : List α) :
    trimmed p (trimmed p l) = trimmed p l := by
  have h : trimmed p ([] ++ trimmed p l ++ []) = trimmed p l :=
    trimmed_of_bare (by simp) (by simp) (bare_trimmed p l)
  rwa [List.nil_append, List.append_nil] at h

end Lib.Trimming
