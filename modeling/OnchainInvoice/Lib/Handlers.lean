import Mathlib.Tactic.Common

/-!
# Handlers

A request handler of a server reads and writes a store as it goes and may fail at any point.  What it
has written by then stays written, so a handler returns the store in both cases.
-/

namespace Lib.Handlers

abbrev Handler (ε σ α : Type) := ExceptT ε (StateM σ) α

variable {ε σ α β : Type} {x : Handler ε σ α} {f : α → Handler ε σ β} {s s' : σ}

-- The answer and the store that is left.
def exec (x : Handler ε σ α) (s : σ) : Except ε α × σ := x.run s

-- `try … catch`
def rescue (x : Handler ε σ α) (h : ε → Handler ε σ α) : Handler ε σ α := fun s =>
  match x s with
  | (.ok a, s') => (.ok a, s')
  | (.error e, s') => h e s'

theorem exec_bind_ok {a : α} (h : exec x s = (.ok a, s')) : exec (x >>= f) s = exec (f a) s' := by
  unfold exec ExceptT.run at h
  show (ExceptT.bindCont f (x s).1) (x s).2 = _
  rw [h]
  rfl

theorem exec_bind_error {e : ε} (h : exec x s = (.error e, s')) :
    exec (x >>= f) s = (.error e, s') := by
  unfold exec ExceptT.run at h
  show (ExceptT.bindCont f (x s).1) (x s).2 = _
  rw [h]
  rfl

theorem exec_bind_eq_ok {b : β} (h : exec (x >>= f) s = (.ok b, s')) :
    ∃ a s₁, exec x s = (.ok a, s₁) ∧ exec (f a) s₁ = (.ok b, s') := by
  cases hrun : exec x s with
  | mk answer s₁ =>
    cases answer with
    | ok a => exact ⟨a, s₁, rfl, by rwa [exec_bind_ok hrun] at h⟩
    | error e =>
      rw [exec_bind_error hrun] at h
      cases h

-- What only drops the answer leaves the same store.
theorem exec_bind_pure (b : β) : (exec (x >>= fun _ => pure b) s).2 = (exec x s).2 := by
  cases hrun : exec x s with
  | mk answer s₁ =>
    cases answer with
    | ok a =>
      rw [exec_bind_ok hrun]
      rfl
    | error e => rw [exec_bind_error hrun]

@[simp] theorem exec_pure (a : α) : exec (pure a : Handler ε σ α) s = (.ok a, s) := rfl

@[simp] theorem exec_throw (e : ε) : exec (throw e : Handler ε σ α) s = (.error e, s) := rfl

-- What cannot fail.
@[simp] theorem exec_lift (m : StateM σ α) :
    exec (liftM m : Handler ε σ α) s = (.ok (m s).1, (m s).2) := rfl

@[simp] theorem exec_get_bind (f : σ → Handler ε σ β) : exec (get >>= f) s = exec (f s) s := rfl

@[simp] theorem exec_check_bind (c : Except ε α) : exec (liftM c >>= f) s =
    match c with
    | .ok a => exec (f a) s
    | .error e => (.error e, s) := by
  cases c with
  | ok a => exact exec_bind_ok rfl
  | error e => exact exec_bind_error rfl

@[simp] theorem exec_lift_bind (m : StateM σ α) :
    exec (liftM m >>= f) s = exec (f (m s).1) (m s).2 :=
  exec_bind_ok rfl

@[simp] theorem exec_throw_bind (e : ε) : exec (throw e >>= f) s = (.error e, s) :=
  exec_bind_error rfl

theorem exec_rescue_ok {h : ε → Handler ε σ α} {a : α} (hx : exec x s = (.ok a, s')) :
    exec (rescue x h) s = (.ok a, s') := by
  unfold exec ExceptT.run at hx ⊢
  unfold rescue
  rw [hx]

theorem exec_rescue_error {h : ε → Handler ε σ α} {e : ε} (hx : exec x s = (.error e, s')) :
    exec (rescue x h) s = exec (h e) s' := by
  unfold exec ExceptT.run at hx ⊢
  unfold rescue
  rw [hx]

@[simp] theorem exec_map (g : α → β) :
    exec (g <$> x) s = ((exec x s).1.map g, (exec x s).2) := by
  show (x >>= fun a => pure (g a) : Handler ε σ β) s = _
  cases h : exec x s with
  | mk answer s' =>
    cases answer with
    | ok a => exact exec_bind_ok h
    | error e => exact exec_bind_error h

/-! ## Where a handler leads -/

-- From one state to the next, whether the handler returns or fails.
def Leads (R : σ → σ → Prop) (x : Handler ε σ α) (s : σ) : Prop := R s (exec x s).2

variable {R : σ → σ → Prop}

theorem Leads.after {answer : Except ε α} (h : Leads R x s) (hrun : exec x s = (answer, s')) :
    R s s' := by
  unfold Leads at h
  rwa [hrun] at h

theorem Leads.pure [Std.Refl R] (a : α) : Leads R (Pure.pure a : Handler ε σ α) s := Std.Refl.refl s

theorem Leads.throw [Std.Refl R] (e : ε) : Leads R (MonadExcept.throw e : Handler ε σ α) s :=
  Std.Refl.refl s

theorem Leads.bind [IsTrans σ R] (hx : Leads R x s)
    (hf : ∀ a s', exec x s = (.ok a, s') → Leads R (f a) s') : Leads R (x >>= f) s := by
  unfold Leads at hx ⊢
  cases hrun : exec x s with
  | mk answer s' =>
    rw [hrun] at hx
    cases answer with
    | ok a =>
      rw [exec_bind_ok hrun]
      exact trans_of R hx (hf a s' hrun)
    | error e =>
      rw [exec_bind_error hrun]
      exact hx

theorem Leads.rescue [IsTrans σ R] {h : ε → Handler ε σ α} (hx : Leads R x s)
    (hh : ∀ e s', exec x s = (.error e, s') → Leads R (h e) s') : Leads R (rescue x h) s := by
  unfold Leads at hx ⊢
  cases hrun : exec x s with
  | mk answer s' =>
    rw [hrun] at hx
    cases answer with
    | ok a =>
      rw [exec_rescue_ok hrun]
      exact hx
    | error e =>
      rw [exec_rescue_error hrun]
      exact trans_of R hx (hh e s' hrun)

/-- A loop over a list, with what its rounds establish. -/
theorem Leads.foldlM [Std.Refl R] [IsTrans σ R] {γ : Type} {g : γ → β → Handler ε σ γ}
    {I : γ → σ → Prop} {l : List β}
    (hstep : ∀ c b s, b ∈ l → I c s → Leads R (g c b) s ∧
      ∀ c' s', exec (g c b) s = (.ok c', s') → I c' s') {c : γ} (hc : I c s) :
    Leads R (l.foldlM g c) s ∧ ∀ c' s', exec (l.foldlM g c) s = (.ok c', s') → I c' s' := by
  induction l generalizing c s with
  | nil =>
    rw [List.foldlM_nil]
    refine ⟨Leads.pure c, fun c' s' hrun => ?_⟩
    cases hrun
    exact hc
  | cons b l ih =>
    rw [List.foldlM_cons]
    have htail : ∀ c s, I c s → _ := fun c s hc =>
      ih (s := s) (fun c b' s hb => hstep c b' s (List.mem_cons_of_mem b hb)) (c := c) hc
    obtain ⟨hlead, hpost⟩ := hstep c b s (List.mem_cons_self ..) hc
    apply And.intro
    · apply hlead.bind
      intro c' s' hrun
      exact (htail c' s' (hpost c' s' hrun)).1
    · intro c' s' hrun
      obtain ⟨c₁, s₁, hhead, hrun⟩ := exec_bind_eq_ok hrun
      exact (htail c₁ s₁ (hpost c₁ s₁ hhead)).2 c' s' hrun

end Lib.Handlers
