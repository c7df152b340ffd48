import Mathlib.Tactic.Common

/-!
# All or nothing

Steps that may fail, run one after the other.  A failing step undoes the batch with all that its steps
have emitted.
-/

namespace Lib.AtomicBatches

variable {σ α ε : Type} (step : σ → α → Option (σ × List ε)) (s : σ)

def runBatch (s : σ) : List α → Option (σ × List ε)
  | [] => some (s, [])
  | a :: rest =>
    (step s a).bind fun first => (runBatch first.1 rest).map fun last => (last.1, first.2 ++ last.2)

/-- Every step succeeds in the state that the steps before it leave. -/
def NoneFails (batch : List α) : Prop :=
  ∀ pre a post, batch = pre ++ a :: post → ∀ s' es, runBatch step s pre = some (s', es) →
    (step s' a).isSome

variable {step s} {a : α} {rest batch : List α} {s' : σ} {es : List ε}

theorem noneFails_nil : NoneFails step s [] := by
  intro pre a post h
  exact absurd h.symm (by simp)

theorem noneFails_cons_iff : NoneFails step s (a :: rest) ↔
    ∃ s' es, step s a = some (s', es) ∧ NoneFails step s' rest := by
  apply Iff.intro
  · intro h
    obtain ⟨⟨s', es⟩, hstep⟩ := Option.isSome_iff_exists.mp (h [] a rest rfl s [] rfl)
    refine ⟨s', es, hstep, ?_⟩
    intro pre b post hrest s'' es' hpre
    refine h (a :: pre) b post (by rw [hrest, List.cons_append]) s'' (es ++ es') ?_
    simp only [runBatch, hstep, Option.bind_some, hpre, Option.map_some]
  · rintro ⟨s', es, hstep, hrest⟩ pre b post hbatch s'' es' hpre
    cases pre with
    | nil =>
      obtain ⟨rfl, rfl⟩ := List.cons.inj hbatch
      cases hpre
      rw [hstep]
      rfl
    | cons c pre =>
      rw [List.cons_append] at hbatch
      obtain ⟨rfl, rfl⟩ := List.cons.inj hbatch
      simp only [runBatch, hstep, Option.bind_some, Option.map_eq_some_iff] at hpre
      obtain ⟨last, hlast, hsame⟩ := hpre
      obtain ⟨rfl, -⟩ := Prod.mk.inj hsame
      exact hrest pre b post rfl last.1 last.2 hlast

/-- A batch goes through just when none of its steps fails. -/
theorem isSome_runBatch_iff : (runBatch step s batch).isSome ↔ NoneFails step s batch := by
  induction batch generalizing s with
  | nil => exact iff_of_true rfl noneFails_nil
  | cons a rest ih =>
    rw [noneFails_cons_iff]
    cases hstep : step s a with
    | none => simp [runBatch, hstep]
    | some first =>
      obtain ⟨s', es⟩ := first
      simp only [runBatch, hstep, Option.bind_some, Option.isSome_map, ih, Option.some.injEq,
        Prod.mk.injEq]
      apply Iff.intro
      · intro h
        exact ⟨s', es, ⟨rfl, rfl⟩, h⟩
      · rintro ⟨_, _, ⟨rfl, rfl⟩, h⟩
        exact h

/-- What the first step emits is emitted by the batch. -/
theorem emits_first (h : runBatch step s (a :: rest) = some (s', es)) :
    ∃ first, step s a = some first ∧ ∀ e ∈ first.2, e ∈ es := by
  simp only [runBatch, Option.bind_eq_some_iff, Option.map_eq_some_iff] at h
  obtain ⟨first, hfirst, last, -, hsame⟩ := h
  obtain ⟨-, rfl⟩ := Prod.mk.inj hsame
  exact ⟨first, hfirst, fun e he => List.mem_append_left _ he⟩

end Lib.AtomicBatches
