import Mathlib.Data.BitVec
import Mathlib.Tactic.Common

/-!
# Reverting computations

A Solidity function either returns or reverts as a whole.  Both are `Except`: the error names the
revert, and `do` notation gives the early exit.  The lemmas here turn "this body returned `r`" into
the conjunction of the checks that were passed, so that a specification never unfolds `Except`.
-/

namespace Lib.Revert

variable {ε α β σ : Type} {w : Nat}

def revertIf (c : Bool) (e : ε) : Except ε Unit :=
  if c then .error e else .ok ()

-- A decoder that fails makes the call revert.
def orRevert (e : ε) : Option α → Except ε α
  | some a => .ok a
  | none => .error e

-- Checked arithmetic of two unsigned integers of the same width.
def checkedAdd (e : ε) (a b : BitVec w) : Except ε (BitVec w) :=
  if a.toNat + b.toNat < 2 ^ w then .ok (a + b) else .error e

def checkedSub (e : ε) (a b : BitVec w) : Except ε (BitVec w) :=
  if b.toNat ≤ a.toNat then .ok (a - b) else .error e

def checkedMul (e : ε) (a b : BitVec w) : Except ε (BitVec w) :=
  if a.toNat * b.toNat < 2 ^ w then .ok (a * b) else .error e

theorem bind_eq_ok {x : Except ε α} {f : α → Except ε β} {r : β} :
    (x >>= f) = .ok r ↔ ∃ a, x = .ok a ∧ f a = .ok r := by
  cases x with
  | error e => simp [bind, Except.bind]
  | ok a => simp [bind, Except.bind]

theorem bind_eq_error {x : Except ε α} {f : α → Except ε β} {e : ε} :
    (x >>= f) = .error e ↔ x = .error e ∨ ∃ a, x = .ok a ∧ f a = .error e := by
  cases x with
  | error e' => simp [bind, Except.bind]
  | ok a => simp [bind, Except.bind]

theorem bind_ne_error {x : Except ε α} {f : α → Except ε β} {e : ε} (hx : x ≠ .error e)
    (hf : ∀ a, x = .ok a → f a ≠ .error e) : (x >>= f) ≠ .error e := by
  intro h
  rcases bind_eq_error.mp h with herror | ⟨a, ha, hrest⟩
  · exact hx herror
  · exact hf a ha hrest

theorem map_eq_ok {x : Except ε α} {f : α → β} {b : β} :
    f <$> x = .ok b ↔ ∃ a, x = .ok a ∧ f a = b := by
  cases x <;> simp [Functor.map, Except.map]

theorem map_eq_error {x : Except ε α} {f : α → β} {e : ε} :
    (f <$> x) = .error e ↔ x = .error e := by
  cases x <;> simp [Functor.map, Except.map]

@[simp] theorem pure_ne_error {a : α} {e : ε} : (pure a : Except ε α) ≠ .error e := by
  simp [pure, Except.pure]

@[simp] theorem pure_eq_ok {a r : α} : (pure a : Except ε α) = .ok r ↔ a = r := by
  simp [pure, Except.pure]

@[simp] theorem revertIf_eq_ok {c : Bool} {e : ε} {u : Unit} :
    revertIf c e = .ok u ↔ c = false := by
  cases c <;> simp [revertIf]

theorem revertIf_eq_error {c : Bool} {e e' : ε} :
    revertIf c e = .error e' ↔ c = true ∧ e = e' := by
  cases c <;> simp [revertIf]

theorem orRevert_eq_error {o : Option α} {e e' : ε} :
    orRevert e o = .error e' ↔ o = none ∧ e = e' := by
  cases o <;> simp [orRevert]

@[simp] theorem orRevert_eq_ok {o : Option α} {e : ε} {a : α} :
    orRevert e o = .ok a ↔ o = some a := by
  cases o <;> simp [orRevert]

@[simp] theorem mapError_eq_ok {δ : Type} {x : Except ε α} {f : ε → δ} {a : α} :
    x.mapError f = .ok a ↔ x = .ok a := by
  cases x <;> simp [Except.mapError]

theorem checkedAdd_eq_ok {e : ε} {a b c : BitVec w} :
    checkedAdd e a b = .ok c ↔ a.toNat + b.toNat < 2 ^ w ∧ a + b = c := by
  unfold checkedAdd
  split <;> simp_all

theorem checkedSub_eq_ok {e : ε} {a b c : BitVec w} :
    checkedSub e a b = .ok c ↔ b.toNat ≤ a.toNat ∧ a - b = c := by
  unfold checkedSub
  split
  · simp_all
  · rename_i h
    simp [h]

theorem checkedMul_eq_ok {e : ε} {a b c : BitVec w} :
    checkedMul e a b = .ok c ↔ a.toNat * b.toNat < 2 ^ w ∧ a * b = c := by
  unfold checkedMul
  split <;> simp_all

theorem toNat_of_checkedAdd {e : ε} {a b c : BitVec w} (h : checkedAdd e a b = .ok c) :
    c.toNat = a.toNat + b.toNat := by
  rcases checkedAdd_eq_ok.mp h with ⟨hfit, hsum⟩
  rw [← hsum, BitVec.toNat_add, Nat.mod_eq_of_lt hfit]

theorem toNat_of_checkedSub {e : ε} {a b c : BitVec w} (h : checkedSub e a b = .ok c) :
    b.toNat ≤ a.toNat ∧ c.toNat = a.toNat - b.toNat := by
  rcases checkedSub_eq_ok.mp h with ⟨hle, hdiff⟩
  rw [← hdiff, BitVec.toNat_sub_of_le (BitVec.le_def.mpr hle)]
  exact ⟨hle, rfl⟩

theorem toNat_of_checkedMul {e : ε} {a b c : BitVec w} (h : checkedMul e a b = .ok c) :
    c.toNat = a.toNat * b.toNat := by
  rcases checkedMul_eq_ok.mp h with ⟨hfit, hproduct⟩
  rw [← hproduct, BitVec.toNat_mul, Nat.mod_eq_of_lt hfit]

/-! ## Loops that may revert -/

/-- What every round of a loop keeps, the whole loop keeps. -/
theorem foldlM_invariant {f : σ → α → Except ε σ} {I : σ → Prop} {l : List α}
    (hstep : ∀ s a s', a ∈ l → I s → f s a = .ok s' → I s') {s s' : σ} (hs : I s)
    (h : l.foldlM f s = .ok s') : I s' := by
  induction l generalizing s with
  | nil =>
    rw [List.foldlM_nil, pure_eq_ok] at h
    exact h ▸ hs
  | cons a l ih =>
    rw [List.foldlM_cons] at h
    obtain ⟨s₁, h₁, h₂⟩ := bind_eq_ok.mp h
    have hs₁ : I s₁ := hstep s a s₁ (List.mem_cons_self ..) hs h₁
    exact ih (fun t b t' hb => hstep t b t' (List.mem_cons_of_mem a hb)) hs₁ h₂

/-- A loop fails with an error only if some round does. -/
theorem foldlM_ne_error {f : σ → α → Except ε σ} {e : ε} (hstep : ∀ s a, f s a ≠ .error e)
    (l : List α) (s : σ) : l.foldlM f s ≠ .error e := by
  induction l generalizing s with
  | nil => exact pure_ne_error
  | cons a l ih =>
    intro h
    rw [List.foldlM_cons] at h
    rcases bind_eq_error.mp h with hround | ⟨s₁, -, hrest⟩
    · exact hstep s a hround
    · exact ih s₁ hrest

end Lib.Revert
