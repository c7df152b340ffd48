import OnchainInvoice.Lib.Handlers

/-!
# Processes that wait for answers

A process waits for an answer many times, and others act while it does.  A script says for every
wait what they do and what becomes of the request, so that a statement over all scripts is one over
all interleavings and all failures.
-/

namespace Lib.Awaits

open Lib.Handlers

-- What becomes of a request: it is answered, or with an error; it never arrives, or its answer does
-- not; or the process stops before it or after it.
inductive Fate
  | answered | failed | unsent | unanswered | stopped | stoppedAfter
deriving DecidableEq, Repr

-- `info` is what the world lets the process see in the turn, `message` what a failure is called.
structure Turn (ο ι : Type) where
  others : List ο
  fate : Fate
  info : ι
  message : String

-- An error may be caught, a stop may not.
inductive Failure
  | thrown (message : String)
  | stopped
deriving DecidableEq, Repr

-- The state with the number of answers waited for.
structure Waiting (σ : Type) where
  state : σ
  turn : Nat

abbrev Process (σ α : Type) : Type := Handler Failure (Waiting σ) α

variable {σ ο ι α β : Type} (apply : σ → ο → σ) (script : Nat → Turn ο ι)

def afterWait (w : Waiting σ) : Waiting σ :=
  ⟨(script w.turn).others.foldl apply w.state, w.turn + 1⟩

def await : Process σ (Turn ο ι) := do
  let w ← get
  set (afterWait apply script w)
  return script w.turn

-- What the other side does with the request.
def act (f : StateM σ α) : Process σ α := fun w => let (a, s) := f w.state; (.ok a, ⟨s, w.turn⟩)

-- `none` is an answer that is an error.
def interact (f : Turn ο ι → StateM σ α) : Process σ (Option α) := do
  let turn ← await apply script
  match turn.fate with
  | .answered => some <$> act (f turn)
  | .failed => return none
  | .unsent => throw (.thrown turn.message)
  | .unanswered =>
    let _ ← act (f turn)
    throw (.thrown turn.message)
  | .stopped => throw .stopped
  | .stoppedAfter =>
    let _ ← act (f turn)
    throw .stopped

def orThrow (message : String) : Option α → Process σ α
  | some a => return a
  | none => throw (.thrown message)

-- `try … catch`
def caught (x : Process σ α) (h : String → Process σ α) : Process σ α :=
  rescue x fun
    | .thrown message => h message
    | .stopped => throw .stopped

/-! ## Where a process leads -/

variable {apply script} {R : Waiting σ → Waiting σ → Prop} {w w' : Waiting σ}
  {f : Turn ο ι → StateM σ α}

theorem exec_interact (f : Turn ο ι → StateM σ α) (w : Waiting σ) :
    exec (interact apply script f) w =
      let after := afterWait apply script w
      let answered : Waiting σ := ⟨(f (script w.turn) after.state).2, after.turn⟩
      match (script w.turn).fate with
      | .answered => (.ok (some (f (script w.turn) after.state).1), answered)
      | .failed => (.ok none, after)
      | .unsent => (.error (.thrown (script w.turn).message), after)
      | .unanswered => (.error (.thrown (script w.turn).message), answered)
      | .stopped => (.error .stopped, after)
      | .stoppedAfter => (.error .stopped, answered) := by
  have hawait : exec (await apply script) w = (.ok (script w.turn), afterWait apply script w) := rfl
  rw [interact, exec_bind_ok hawait]
  cases (script w.turn).fate <;> rfl

/-- A process that asks leads where waiting leads, and then where the request does. -/
theorem leads_interact [IsTrans (Waiting σ) R] (hwait : R w (afterWait apply script w))
    (hact : R (afterWait apply script w)
      ⟨(f (script w.turn) (afterWait apply script w).state).2, w.turn + 1⟩) :
    Leads R (interact apply script f) w := by
  unfold Leads
  rw [exec_interact]
  have hboth := trans_of R hwait hact
  cases (script w.turn).fate <;> assumption

/-- An answer is what the other side gave when the request arrived. -/
theorem interact_eq_some {a : α} (h : exec (interact apply script f) w = (.ok (some a), w')) :
    f (script w.turn) (afterWait apply script w).state = (a, w'.state) ∧ w'.turn = w.turn + 1 := by
  rw [exec_interact] at h
  cases hfate : (script w.turn).fate <;> rw [hfate] at h <;> cases h
  exact ⟨rfl, rfl⟩

theorem exec_orThrow_some (message : String) (a : α) (w : Waiting σ) :
    exec (orThrow message (some a)) w = (.ok a, w) := rfl

theorem orThrow_eq_ok {message : String} {o : Option α} {a : α}
    (h : exec (orThrow message o) w = (.ok a, w')) : o = some a ∧ w' = w := by
  cases o with
  | none => cases h
  | some b =>
    cases h
    exact ⟨rfl, rfl⟩

theorem leads_orThrow [Std.Refl R] {message : String} (o : Option α) :
    Leads R (orThrow message o) w := by
  cases o with
  | none => exact Leads.throw _
  | some a => exact Leads.pure _

theorem leads_caught [Std.Refl R] [IsTrans (Waiting σ) R] {x : Process σ α}
    {h : String → Process σ α} (hx : Leads R x w)
    (hh : ∀ message w', R w w' → Leads R (h message) w') : Leads R (caught x h) w := by
  apply hx.rescue
  intro e w' hrun
  cases e with
  | thrown message => exact hh message w' (hx.after hrun)
  | stopped => exact Leads.throw _

end Lib.Awaits
