import Mathlib.Data.List.Induction
import Mathlib.Data.List.Infix
import Mathlib.Tactic.Common

/-!
# Histories of a machine

A run of a machine that answers every input, and statements about its steps that may look back at
the run so far: what holds of `Each` step, and whether something has `Happened`.
-/

namespace Lib.Histories

variable {σ τ : Type} (next : σ → τ → σ) (s : σ)

def run (ts : List τ) : σ := ts.foldl next s

/-- `P` holds of every step, given the inputs before it. -/
def Each (P : List τ → τ → Prop) (ts : List τ) : Prop := ∀ pre t, pre ++ [t] <+: ts → P pre t

/-- `P` held of some step, given the inputs before it. -/
def Once (P : List τ → τ → Prop) (ts : List τ) : Prop := ∃ pre t, pre ++ [t] <+: ts ∧ P pre t

/-- Some step of the run was an `A`. -/
def Happened (A : σ → τ → Prop) (ts : List τ) : Prop :=
  ∃ pre t, pre ++ [t] <+: ts ∧ A (run next s pre) t

variable {next s} {P Q : List τ → τ → Prop} {A : σ → τ → Prop} {ts : List τ} {t : τ}

theorem run_concat (ts : List τ) (t : τ) : run next s (ts ++ [t]) = next (run next s ts) t :=
  List.foldl_concat ..

/-- The last step is the last input, every other step is one of the run before. -/
theorem concat_prefix_concat {pre : List τ} {u : τ} :
    pre ++ [u] <+: ts ++ [t] ↔ (pre = ts ∧ u = t) ∨ pre ++ [u] <+: ts := by
  rw [List.prefix_concat_iff, List.append_singleton_inj]

theorem each_nil : Each P [] := by
  intro pre t h
  exact absurd (List.prefix_nil.mp h) (by simp)

theorem each_concat : Each P (ts ++ [t]) ↔ Each P ts ∧ P ts t := by
  apply Iff.intro
  · intro h
    refine And.intro (fun pre u hu => h pre u (concat_prefix_concat.mpr (.inr hu))) ?_
    exact h ts t (concat_prefix_concat.mpr (.inl ⟨rfl, rfl⟩))
  · intro h pre u hu
    rcases concat_prefix_concat.mp hu with heq | hpre
    · obtain ⟨rfl, rfl⟩ := heq
      exact h.2
    · exact h.1 pre u hpre

/-- The steps of a run one by one. -/
theorem each_of_take (h : ∀ n (hn : n < ts.length), P (ts.take n) (ts.get ⟨n, hn⟩)) : Each P ts := by
  rintro pre t ⟨post, rfl⟩
  have hlen : pre.length < (pre ++ [t] ++ post).length := by simp
  have hstep := h pre.length hlen
  have htake : (pre ++ [t] ++ post).take pre.length = pre := by simp
  have hget : (pre ++ [t] ++ post).get ⟨pre.length, hlen⟩ = t := by simp
  rwa [htake, hget] at hstep

theorem once_nil : ¬ Once P [] := by
  rintro ⟨pre, t, h, -⟩
  exact absurd (List.prefix_nil.mp h) (by simp)

theorem once_concat : Once P (ts ++ [t]) ↔ Once P ts ∨ P ts t := by
  apply Iff.intro
  · rintro ⟨pre, u, hu, hP⟩
    rcases concat_prefix_concat.mp hu with heq | hpre
    · obtain ⟨rfl, rfl⟩ := heq
      exact .inr hP
    · exact .inl ⟨pre, u, hpre, hP⟩
  · rintro (⟨pre, u, hu, hP⟩ | hP)
    · exact ⟨pre, u, concat_prefix_concat.mpr (.inr hu), hP⟩
    · exact ⟨ts, t, concat_prefix_concat.mpr (.inl ⟨rfl, rfl⟩), hP⟩

theorem Once.mono (h : Once P ts) (himp : ∀ pre t, P pre t → Q pre t) : Once Q ts := by
  obtain ⟨pre, t, hpre, hP⟩ := h
  exact ⟨pre, t, hpre, himp pre t hP⟩

theorem happened_nil : ¬ Happened next s A [] := once_nil

theorem happened_concat :
    Happened next s A (ts ++ [t]) ↔ Happened next s A ts ∨ A (run next s ts) t := once_concat

/-- An invariant of the state and the inputs that led to it. -/
theorem run_invariant {I : List τ → σ → Prop} (hinit : I [] s)
    (hkeeps : ∀ ts t, I ts (run next s ts) → I (ts ++ [t]) (next (run next s ts) t)) (ts : List τ) :
    I ts (run next s ts) := by
  induction ts using List.reverseRecOn with
  | nil => exact hinit
  | append_singleton ts t ih =>
    rw [run_concat]
    exact hkeeps ts t ih

/-- Two statements that agree on every step after which an invariant still holds agree on runs. -/
theorem each_iff_each {I : List τ → Prop} (hinit : I [])
    (hkeeps : ∀ ts t, I ts → Q ts t → I (ts ++ [t])) (hagree : ∀ ts t, I ts → (P ts t ↔ Q ts t))
    (ts : List τ) : Each P ts ↔ Each Q ts := by
  have hboth : (Each P ts ↔ Each Q ts) ∧ (Each Q ts → I ts) := by
    induction ts using List.reverseRecOn with
    | nil => exact ⟨iff_of_true each_nil each_nil, fun _ => hinit⟩
    | append_singleton ts t ih =>
      rw [each_concat, each_concat, ih.1]
      refine And.intro (and_congr_right fun hQ => hagree ts t (ih.2 hQ)) ?_
      intro hQ
      exact hkeeps ts t (ih.2 hQ.1) hQ.2
  exact hboth.1

/-- What holds of a step after which an invariant still holds, where the steps keep the invariant. -/
theorem Each.of_invariant {I : List τ → Prop} (h : Each Q ts) (hinit : I [])
    (hkeeps : ∀ ts t, I ts → Q ts t → I (ts ++ [t])) (hgives : ∀ ts t, I ts → Q ts t → P ts t) :
    Each P ts := by
  have hboth : Each P ts ∧ I ts := by
    induction ts using List.reverseRecOn with
    | nil => exact ⟨each_nil, hinit⟩
    | append_singleton ts t ih =>
      obtain ⟨hQ, hlast⟩ := each_concat.mp h
      obtain ⟨hP, hI⟩ := ih hQ
      exact ⟨each_concat.mpr ⟨hP, hgives ts t hI hlast⟩, hkeeps ts t hI hlast⟩
  exact hboth.1

end Lib.Histories
