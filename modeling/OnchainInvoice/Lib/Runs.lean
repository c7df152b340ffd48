import Mathlib.Data.List.Induction
import Mathlib.Tactic.Common

/-!
# Runs of a machine whose steps may revert

`step s t` is one transaction `t` in state `s`.  A transaction that reverts leaves the state as it
was (`commit`), and a run is a list of transactions committed one after the other.  The rules are
the ones every history argument needs: what each step keeps a run keeps (`run_invariant`), and what
holds at the end but not at the start was brought about by one successful step after which it held
throughout (`exists_rise`).
-/

namespace Lib.Runs

variable {σ τ ε : Type} (step : σ → τ → Except ε σ)

def commit (s : σ) (t : τ) : σ :=
  match step s t with
  | .ok s' => s'
  | .error _ => s

def run (s : σ) (ts : List τ) : σ :=
  ts.foldl (commit step) s

def Succeeds (s : σ) (t : τ) : Prop := ∃ s', step s t = .ok s'

instance (s : σ) (t : τ) : Decidable (Succeeds step s t) :=
  match h : step s t with
  | .ok s' => isTrue ⟨s', h⟩
  | .error _ => isFalse (by simp [Succeeds, h])

variable {step}

theorem commit_of_ok {s s' : σ} {t : τ} (h : step s t = .ok s') : commit step s t = s' := by
  simp [commit, h]

theorem commit_of_error {s : σ} {t : τ} {e : ε} (h : step s t = .error e) :
    commit step s t = s := by
  simp [commit, h]

theorem commit_cases (step : σ → τ → Except ε σ) (s : σ) (t : τ) :
    (∃ s', step s t = .ok s' ∧ commit step s t = s') ∨
      (∃ e, step s t = .error e ∧ commit step s t = s) := by
  cases h : step s t with
  | ok s' => exact .inl ⟨s', rfl, commit_of_ok h⟩
  | error e => exact .inr ⟨e, rfl, commit_of_error h⟩

@[simp] theorem run_nil (s : σ) : run step s [] = s := rfl

@[simp] theorem run_cons (s : σ) (t : τ) (ts : List τ) :
    run step s (t :: ts) = run step (commit step s t) ts := rfl

theorem run_append (s : σ) (ts us : List τ) :
    run step s (ts ++ us) = run step (run step s ts) us :=
  List.foldl_append ..

theorem run_concat (s : σ) (ts : List τ) (t : τ) :
    run step s (ts ++ [t]) = commit step (run step s ts) t := by
  rw [run_append, run_cons, run_nil]

/-- What every successful step of a run keeps, the run keeps.  The step may use the transactions
the run consists of. -/
theorem run_invariant_of_mem {I : σ → Prop} {ts : List τ}
    (hstep : ∀ s t s', t ∈ ts → I s → step s t = .ok s' → I s') {s : σ} (hs : I s) :
    I (run step s ts) := by
  induction ts generalizing s with
  | nil => exact hs
  | cons t ts ih =>
    rw [run_cons]
    apply ih (fun s₁ u s₂ hu => hstep s₁ u s₂ (List.mem_cons_of_mem t hu))
    rcases commit_cases step s t with ⟨s', hok, hc⟩ | ⟨e, -, hc⟩
    · rw [hc]
      exact hstep s t s' (List.mem_cons_self ..) hs hok
    · rwa [hc]

theorem run_invariant {I : σ → Prop} (hstep : ∀ s t s', I s → step s t = .ok s' → I s')
    {s : σ} (hs : I s) (ts : List τ) : I (run step s ts) :=
  run_invariant_of_mem (fun s t s' _ => hstep s t s') hs

/-- The same for an invariant whose step argument needs to know where in the run the step is. -/
theorem run_invariant_of_prefix {I : σ → Prop} {s : σ} {ts : List τ}
    (hstep : ∀ pre t post s', ts = pre ++ t :: post → I (run step s pre) →
      step (run step s pre) t = .ok s' → I s') (hs : I s) : I (run step s ts) := by
  induction ts using List.reverseRecOn with
  | nil => exact hs
  | append_singleton ts t ih =>
    have hpre : I (run step s ts) := by
      apply ih
      intro pre u post s' hts
      exact hstep pre u (post ++ [t]) s' (by simp [hts])
    rw [run_concat]
    rcases commit_cases step (run step s ts) t with ⟨s', hok, hc⟩ | ⟨e, -, hc⟩
    · rw [hc]
      exact hstep ts t [] s' rfl hpre hok
    · rwa [hc]

/-- A property that fails at the start of a run and holds at its end was established by some
successful step of the run, and held from that step on. -/
theorem exists_rise {P : σ → Prop} {s : σ} {ts : List τ} (hs : ¬P s) (h : P (run step s ts)) :
    ∃ pre t s' post, ts = pre ++ t :: post ∧ ¬P (run step s pre) ∧
      step (run step s pre) t = .ok s' ∧ P s' ∧
      ∀ mid, mid <+: post → P (run step s' mid) := by
  classical
  induction ts using List.reverseRecOn with
  | nil => exact absurd h hs
  | append_singleton ts t ih =>
    by_cases hpre : P (run step s ts)
    · -- The property already held one step earlier: extend that rise by `t`.
      obtain ⟨pre, u, s', post, rfl, hn, hok, hP, hmid⟩ := ih hpre
      refine ⟨pre, u, s', post ++ [t], by simp, hn, hok, hP, fun mid hm => ?_⟩
      rcases List.prefix_concat_iff.mp hm with rfl | hm
      · rwa [List.append_assoc, List.cons_append, run_append, run_cons, commit_of_ok hok] at h
      · exact hmid mid hm
    · rw [run_concat] at h
      rcases commit_cases step (run step s ts) t with ⟨s', hok, hc⟩ | ⟨e, -, hc⟩
      · rw [hc] at h
        refine ⟨ts, t, s', [], rfl, hpre, hok, h, fun mid hm => ?_⟩
        rw [List.prefix_nil.mp hm]
        exact h
      · rw [hc] at h
        exact absurd h hpre

theorem run_split {s s' : σ} {pre post : List τ} {t : τ} (hok : step (run step s pre) t = .ok s') :
    run step s (pre ++ t :: post) = run step s' post := by
  rw [run_append, run_cons, commit_of_ok hok]

end Lib.Runs
