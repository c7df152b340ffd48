import Mathlib.Algebra.Ring.Nat
import Mathlib.Logic.Function.Basic
import Mathlib.Tactic.Common

/-!
# Token ledgers

Balances and allowances of any number of tokens that move exactly the amount asked for, with the log
of what has moved.  `Moves l log l'` says that `log` accounts for every difference between the
balances of the two ledgers.
-/

namespace Lib.Tokens

structure Transfer (τ α : Type) where
  token : τ
  src : α
  dst : α
  amount : Nat
deriving DecidableEq

-- `transfers` is the log, newest first.
structure Ledger (τ α : Type) where
  balanceOf : τ → α → Nat
  allowance : τ → α → α → Nat
  transfers : List (Transfer τ α)

variable {τ α : Type} [DecidableEq τ] [DecidableEq α]

def moved (l : Ledger τ α) (x : Transfer τ α) : Ledger τ α :=
  { l with
    balanceOf := fun token account =>
      if token = x.token then
        l.balanceOf token account - (if account = x.src then x.amount else 0) +
          (if account = x.dst then x.amount else 0)
      else l.balanceOf token account
    transfers := x :: l.transfers }

def transfer (l : Ledger τ α) (x : Transfer τ α) : Option (Ledger τ α) :=
  if x.amount ≤ l.balanceOf x.token x.src then some (moved l x) else none

def approve (l : Ledger τ α) (token : τ) (owner spender : α) (amount : Nat) : Ledger τ α :=
  { l with
    allowance := fun t o s =>
      if t = token ∧ o = owner ∧ s = spender then amount else l.allowance t o s }

-- An allowance of `unlimited` is not used up.
def spend (unlimited : Nat) (l : Ledger τ α) (spender : α) (x : Transfer τ α) : Ledger τ α :=
  let allowed := l.allowance x.token x.src spender
  if allowed = unlimited then l else approve l x.token x.src spender (allowed - x.amount)

def transferFrom (unlimited : Nat) (l : Ledger τ α) (spender : α) (x : Transfer τ α) :
    Option (Ledger τ α) :=
  if x.amount ≤ l.allowance x.token x.src spender then transfer (spend unlimited l spender x) x
  else none

variable {l l' l'' : Ledger τ α} {x : Transfer τ α} {token : τ} {account : α}

/-! ## The operations -/

theorem transfer_eq_some : transfer l x = some l' ↔
    x.amount ≤ l.balanceOf x.token x.src ∧ moved l x = l' := by
  unfold transfer
  split
  · rename_i hle
    simp [hle]
  · rename_i hshort
    simp [hshort]

@[simp] theorem spend_balanceOf (unlimited : Nat) (spender : α) :
    (spend unlimited l spender x).balanceOf = l.balanceOf := by
  unfold spend
  dsimp only
  split <;> rfl

@[simp] theorem spend_transfers (unlimited : Nat) (spender : α) :
    (spend unlimited l spender x).transfers = l.transfers := by
  unfold spend
  dsimp only
  split <;> rfl

theorem transferFrom_eq_some {unlimited : Nat} {spender : α} :
    transferFrom unlimited l spender x = some l' ↔
      x.amount ≤ l.allowance x.token x.src spender ∧ x.amount ≤ l.balanceOf x.token x.src ∧
        moved (spend unlimited l spender x) x = l' := by
  unfold transferFrom
  split
  · rename_i hallowed
    rw [transfer_eq_some, spend_balanceOf]
    simp only [hallowed, true_and]
  · rename_i hshort
    simp [hshort]

/-! ## Accounting -/

-- What a log takes from an account, and what it brings.
def outflow (log : List (Transfer τ α)) (token : τ) (account : α) : Nat :=
  (log.map fun x => if x.token = token ∧ x.src = account then x.amount else 0).sum

def inflow (log : List (Transfer τ α)) (token : τ) (account : α) : Nat :=
  (log.map fun x => if x.token = token ∧ x.dst = account then x.amount else 0).sum

@[simp] theorem outflow_append (log log' : List (Transfer τ α)) :
    outflow (log ++ log') token account = outflow log token account + outflow log' token account := by
  simp [outflow]

@[simp] theorem inflow_append (log log' : List (Transfer τ α)) :
    inflow (log ++ log') token account = inflow log token account + inflow log' token account := by
  simp [inflow]

-- What a log brings from one account to another.
def paid (log : List (Transfer τ α)) (token : τ) (src dst : α) : Nat :=
  (log.map fun x => if x.token = token ∧ x.src = src ∧ x.dst = dst then x.amount else 0).sum

@[simp] theorem paid_append (log log' : List (Transfer τ α)) (src dst : α) :
    paid (log ++ log') token src dst = paid log token src dst + paid log' token src dst := by
  simp [paid]

/-- The second ledger is the first one after the transfers of the log. -/
structure Moves (l : Ledger τ α) (log : List (Transfer τ α)) (l' : Ledger τ α) : Prop where
  transfers : l'.transfers = log ++ l.transfers
  balance : ∀ token account, l'.balanceOf token account + outflow log token account =
    l.balanceOf token account + inflow log token account

theorem Moves.refl (l : Ledger τ α) : Moves l [] l := ⟨rfl, fun _ _ => rfl⟩

theorem Moves.trans {log log' : List (Transfer τ α)} (h : Moves l log l') (h' : Moves l' log' l'') :
    Moves l (log' ++ log) l'' := by
  constructor
  · rw [h'.transfers, h.transfers, List.append_assoc]
  · intro token account
    have hfirst := h.balance token account
    have hsecond := h'.balance token account
    rw [outflow_append, inflow_append]
    omega

theorem Moves.moved (hle : x.amount ≤ l.balanceOf x.token x.src) : Moves l [x] (moved l x) := by
  refine ⟨rfl, fun token account => ?_⟩
  simp only [Tokens.moved, outflow, inflow, List.map_cons, List.map_nil, List.sum_cons,
    List.sum_nil, Nat.add_zero]
  by_cases htoken : token = x.token
  · have hcovered : (if account = x.src then x.amount else 0) ≤ l.balanceOf token account := by
      split
      · rename_i hsrc
        rw [htoken, hsrc]
        exact hle
      · exact Nat.zero_le _
    rw [if_pos htoken]
    simp only [htoken.symm, true_and, @eq_comm _ _ account]
    omega
  · rw [if_neg htoken]
    simp only [Ne.symm htoken, false_and, if_false]

theorem Moves.transfer (h : transfer l x = some l') : Moves l [x] l' := by
  rcases transfer_eq_some.mp h with ⟨hle, rfl⟩
  exact .moved hle

theorem Moves.transferFrom {unlimited : Nat} {spender : α}
    (h : transferFrom unlimited l spender x = some l') : Moves l [x] l' := by
  rcases transferFrom_eq_some.mp h with ⟨-, hle, rfl⟩
  have hmoves := Moves.moved (l := spend unlimited l spender x) (x := x) (by simpa using hle)
  refine ⟨by simpa using hmoves.transfers, fun token account => ?_⟩
  simpa using hmoves.balance token account

end Lib.Tokens
