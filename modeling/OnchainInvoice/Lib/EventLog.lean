import Mathlib.Data.List.Induction
import Mathlib.Tactic.Common

/-!
# Event logs and their replay

A machine appends events to a log while it runs, and a replay folds the log into a state of its own.
What the two have in common (`Agree`) need only be looked at one step at a time: the replay follows
the machine through a run if the events of each step carry what the step changed.
-/

namespace Lib.EventLog

variable {σ τ ε ρ : Type} (step : σ → τ → σ × List ε) (apply : ρ → ε → ρ)

structure Logged (σ ε : Type) where
  state : σ
  log : List ε

def next (s : Logged σ ε) (t : τ) : Logged σ ε :=
  ⟨(step s.state t).1, s.log ++ (step s.state t).2⟩

def run (s : σ) (ts : List τ) : Logged σ ε := ts.foldl (next step) ⟨s, []⟩

def replay (r : ρ) (log : List ε) : ρ := log.foldl apply r

theorem run_concat (s : σ) (ts : List τ) (t : τ) :
    run step s (ts ++ [t]) = next step (run step s ts) t := by
  simp [run]

theorem replay_append (r : ρ) (log log' : List ε) :
    replay apply r (log ++ log') = replay apply (replay apply r log) log' :=
  List.foldl_append ..

/-- The replay of a run and a step is the replay of the run and then of the step's events. -/
theorem replay_concat (s : σ) (r : ρ) (ts : List τ) (t : τ) :
    replay apply r (run step s (ts ++ [t])).log =
      replay apply (replay apply r (run step s ts).log) (step (run step s ts).state t).2 := by
  rw [run_concat, ← replay_append]
  rfl

variable {step apply} {s : σ} {r : ρ} {ts : List τ} {Inv : σ → Prop}

theorem run_invariant (hinit : Inv s) (hkeeps : ∀ s t, Inv s → Inv (step s t).1) (ts : List τ) :
    Inv (run step s ts).state := by
  induction ts using List.reverseRecOn with
  | nil => exact hinit
  | append_singleton ts t ih =>
    rw [run_concat]
    exact hkeeps _ t ih

theorem replay_invariant {P : ρ → Prop} {log : List ε} (hinit : P r)
    (hkeeps : ∀ e ∈ log, ∀ r, P r → P (apply r e)) : P (replay apply r log) := by
  induction log using List.reverseRecOn with
  | nil => exact hinit
  | append_singleton log e ih =>
    rw [replay_append]
    exact hkeeps e (by simp) _ (ih fun e' he' => hkeeps e' (List.mem_append_left _ he'))

/-- If every step of a run carries what it changes, the replay agrees at the end. -/
theorem agree_of_carried (Agree : σ → ρ → Prop) (Carried : σ → τ → Prop)
    (hinit : Inv s) (hkeeps : ∀ s t, Inv s → Inv (step s t).1)
    (hagree : Agree s r) (hstep : ∀ s r t, Inv s → Agree s r → Carried s t →
      Agree (step s t).1 (replay apply r (step s t).2))
    (hcarried : ∀ pre t post, ts = pre ++ t :: post → Carried (run step s pre).state t) :
    Agree (run step s ts).state (replay apply r (run step s ts).log) := by
  induction ts using List.reverseRecOn with
  | nil => exact hagree
  | append_singleton ts t ih =>
    have hbefore := ih fun pre u post hsplit => hcarried pre u (post ++ [t]) (by rw [hsplit]; simp)
    rw [replay_concat, run_concat]
    exact hstep _ _ t (run_invariant hinit hkeeps ts) hbefore (hcarried ts t [] rfl)

/-- Where agreement after a step is exactly that the step carries what it changes, a replay agrees
throughout a run exactly if every step does. -/
theorem agree_iff_carried (Agree : σ → ρ → Prop) (Carried : σ → τ → Prop)
    (hinit : Inv s) (hkeeps : ∀ s t, Inv s → Inv (step s t).1)
    (hagree : Agree s r) (hstep : ∀ s r t, Inv s → Agree s r →
      (Agree (step s t).1 (replay apply r (step s t).2) ↔ Carried s t)) :
    (∀ pre, pre <+: ts → Agree (run step s pre).state (replay apply r (run step s pre).log)) ↔
      ∀ pre t post, ts = pre ++ t :: post → Carried (run step s pre).state t := by
  apply Iff.intro
  · intro h pre t post hsplit
    have hbefore := h pre ⟨t :: post, hsplit.symm⟩
    have hafter := h (pre ++ [t]) ⟨post, by rw [hsplit]; simp⟩
    rw [replay_concat, run_concat] at hafter
    exact (hstep _ _ t (run_invariant hinit hkeeps pre) hbefore).mp hafter
  · rintro h pre ⟨rest, hsplit⟩
    apply agree_of_carried Agree Carried hinit hkeeps hagree fun s r t hinv hbefore hcarried =>
      (hstep s r t hinv hbefore).mpr hcarried
    intro pre' t post hsplit'
    exact h pre' t (post ++ rest) (by rw [← hsplit, hsplit']; simp)

end Lib.EventLog
