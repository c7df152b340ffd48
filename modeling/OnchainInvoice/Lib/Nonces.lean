import Mathlib.Algebra.Order.Ring.Int
import Mathlib.Logic.Function.Basic
import Mathlib.Tactic.Common

/-!
# Nonces that expire

A table of used nonces under a primary key, each with the time at which it may be forgotten, and the
gates that such tables make: an attempt first consumes its key and is then accepted if it is
genuine.  Two laws hold of every run over a family of gates.  A key is accepted at most once by a
gate as long as its genuine attempts come before its row may be forgotten (`nodup_accepted`), and an
attempt that is not genuine is noticed only by those that need its key while its row is there
(`Agree.after_forged`).
-/

namespace Lib.Nonces

open Function

variable {ι κ : Type}

/-! ## The tables -/

-- The expiry of each key that is stored.
abbrev Table (κ : Type) := κ → Option Int

-- `DELETE … WHERE expires_at < now`
def purge (now : Int) (t : Table κ) : Table κ := fun k => (t k).filter (now ≤ ·)

section Purge

variable {t : Table κ} {k : κ} {now later d : Int}

@[simp] theorem purge_eq_some : purge now t k = some d ↔ t k = some d ∧ now ≤ d := by
  simp [purge, Option.filter_eq_some_iff]

theorem purge_purge (h : now ≤ later) : purge later (purge now t) = purge later t := by
  funext k
  apply Option.ext
  intro d
  rw [purge_eq_some, purge_eq_some, purge_eq_some]
  apply Iff.intro
  · rintro ⟨⟨hd, -⟩, hle⟩
    exact ⟨hd, hle⟩
  · rintro ⟨hd, hle⟩
    exact ⟨⟨hd, by omega⟩, hle⟩

theorem purge_eq_none_of_le (h : now ≤ later) (hnone : purge now t k = none) :
    purge later t k = none := by
  rw [← purge_purge h, purge, hnone]
  rfl

end Purge

-- One table for each gate.
abbrev Tables (ι κ : Type) := ι → Table κ

-- The row of a key, if it is still there at `now`.
def row (ts : Tables ι κ) (i : ι × κ) (now : Int) : Option Int := purge now (ts i.1) i.2

theorem row_eq_none_of_le {ts : Tables ι κ} {i : ι × κ} {now later : Int} (h : now ≤ later)
    (hnone : row ts i now = none) : row ts i later = none :=
  purge_eq_none_of_le h hnone

variable [DecidableEq κ]

-- Purge, then insert the key unless the primary key is taken.
def consume (t : Table κ) (k : κ) (now ttl : Int) : Bool × Table κ :=
  if (purge now t k).isSome then (false, purge now t)
  else (true, update (purge now t) k (some (now + ttl)))

section Consume

variable {t t' : Table κ} {k k' : κ} {now later ttl d : Int}

theorem purge_update : purge now (update t k (some d)) =
    update (purge now t) k (if now ≤ d then some d else none) := by
  funext k'
  by_cases hk : k' = k
  · subst hk
    by_cases hd : now ≤ d
    · simp [purge, hd]
    · simp [purge, hd]
      omega
  · simp [purge, hk]

theorem consume_of_some (h : purge now t k = some d) :
    consume t k now ttl = (false, purge now t) := by
  simp [consume, h]

theorem consume_of_none (h : purge now t k = none) :
    consume t k now ttl = (true, update (purge now t) k (some (now + ttl))) := by
  simp [consume, h]

theorem consume_fst : (consume t k now ttl).1 = true ↔ purge now t k = none := by
  cases h : purge now t k with
  | none => simp [consume_of_none h]
  | some d => simp [consume_of_some h]

/-- What consuming a key leaves of the table, as a later purge sees it. -/
theorem purge_consume (h : now ≤ later) : purge later (consume t k now ttl).2 =
    if purge now t k = none then
      update (purge later t) k (if later ≤ now + ttl then some (now + ttl) else none)
    else purge later t := by
  cases hk : purge now t k with
  | none => rw [consume_of_none hk, if_pos rfl, purge_update, purge_purge h]
  | some d => rw [consume_of_some hk, if_neg (Option.some_ne_none d), purge_purge h]

end Consume

/-! ## The gates -/

-- One attempt to pass a gate: its key, the clock when the table is read, and whether it is genuine,
-- which is looked at only after the key is consumed.
structure Attempt (ι κ : Type) where
  gate : ι
  key : κ
  now : Int
  genuine : Bool

def Attempt.id (a : Attempt ι κ) : ι × κ := (a.gate, a.key)

def accepts (ttl : Int) (ts : Tables ι κ) (a : Attempt ι κ) : Bool :=
  (consume (ts a.gate) a.key a.now ttl).1 && a.genuine

theorem accepts_eq_true {ts : Tables ι κ} {ttl : Int} {a : Attempt ι κ} :
    accepts ttl ts a = true ↔ row ts a.id a.now = none ∧ a.genuine = true := by
  rw [accepts, Bool.and_eq_true, consume_fst]
  rfl

variable [DecidableEq ι]

def after (ttl : Int) (ts : Tables ι κ) (a : Attempt ι κ) : Tables ι κ :=
  update ts a.gate (consume (ts a.gate) a.key a.now ttl).2

def verdicts (ttl : Int) : Tables ι κ → List (Attempt ι κ) → List (Attempt ι κ × Bool)
  | _, [] => []
  | ts, a :: as => (a, accepts ttl ts a) :: verdicts ttl (after ttl ts a) as

-- The keys that a run accepts, each with its gate.
def accepted (ttl : Int) (ts : Tables ι κ) (as : List (Attempt ι κ)) : List (ι × κ) :=
  ((verdicts ttl ts as).filter (·.2)).map (·.1.id)

def Clocked (as : List (Attempt ι κ)) : Prop := as.Pairwise fun a b => a.now ≤ b.now

section Gates

variable {ts ts' : Tables ι κ} {i : ι × κ} {now later ttl : Int} {a : Attempt ι κ}
  {as : List (Attempt ι κ)}

/-- An attempt changes the row of its own key only, and that only when the row was not there. -/
theorem row_after (h : a.now ≤ later) : row (after ttl ts a) i later =
    if i = a.id ∧ row ts a.id a.now = none then
      if later ≤ a.now + ttl then some (a.now + ttl) else none
    else row ts i later := by
  obtain ⟨gate, key⟩ := i
  unfold row after Attempt.id
  by_cases hgate : gate = a.gate
  · subst hgate
    rw [update_self, purge_consume h]
    cases hnone : purge a.now (ts a.gate) a.key with
    | some d => simp
    | none =>
      rw [if_pos rfl, update_apply]
      simp
  · rw [if_neg (fun hi => hgate (congrArg Prod.fst hi.1)), update_of_ne hgate]

theorem after_of_some {d : Int} (h : row ts a.id a.now = some d) :
    after ttl ts a = update ts a.gate (purge a.now (ts a.gate)) := by
  have hstored : purge a.now (ts a.gate) a.key = some d := h
  rw [after, consume_of_some hstored]

/-- A key that is consumed is on record, and was not before. -/
theorem after_of_none (httl : 0 ≤ ttl) (h : row ts a.id a.now = none) :
    after ttl ts a a.gate a.key = some (a.now + ttl) ∧ ts a.gate a.key ≠ some (a.now + ttl) := by
  have hfresh : purge a.now (ts a.gate) a.key = none := h
  apply And.intro
  · rw [after, update_self, consume_of_none hfresh]
    exact update_self ..
  · intro hrow
    have hlive : row ts a.id a.now = some (a.now + ttl) := purge_eq_some.mpr ⟨hrow, by omega⟩
    rw [h] at hlive
    exact absurd hlive.symm (Option.some_ne_none _)

theorem accepted_cons : accepted ttl ts (a :: as) =
    if accepts ttl ts a = true then a.id :: accepted ttl (after ttl ts a) as
    else accepted ttl (after ttl ts a) as := by
  unfold accepted
  rw [verdicts, List.filter_cons]
  split <;> rfl

/-! ### At most once -/

-- Whenever a genuine attempt reads the table, the row of the key is there.
def Blocked (ts : Tables ι κ) (i : ι × κ) (as : List (Attempt ι κ)) : Prop :=
  ∀ b ∈ as, b.genuine = true → b.id = i → row ts i b.now ≠ none

theorem Blocked.after (hclock : Clocked (a :: as)) (h : Blocked ts i (a :: as)) :
    Blocked (after ttl ts a) i as := by
  intro b hb hgenuine hid
  have hle : a.now ≤ b.now := List.rel_of_pairwise_cons hclock hb
  have hrow : row ts i b.now ≠ none := h b (List.mem_cons_of_mem a hb) hgenuine hid
  have hlive : ¬(i = a.id ∧ row ts a.id a.now = none) := by
    rintro ⟨hown, hnone⟩
    rw [← hown] at hnone
    exact hrow (row_eq_none_of_le hle hnone)
  rw [row_after hle, if_neg hlive]
  exact hrow

theorem Blocked.not_mem_accepted (hclock : Clocked as) (h : Blocked ts i as) :
    i ∉ accepted ttl ts as := by
  induction as generalizing ts with
  | nil => exact List.not_mem_nil
  | cons a as ih =>
    have htail : i ∉ accepted ttl (Nonces.after ttl ts a) as :=
      ih (List.Pairwise.of_cons hclock) (h.after hclock)
    rw [accepted_cons]
    split
    · rename_i haccepts
      have ⟨hnone, hgenuine⟩ := accepts_eq_true.mp haccepts
      intro hmem
      rcases List.mem_cons.mp hmem with hid | hmem
      · rw [hid] at h
        exact h a (List.mem_cons_self ..) hgenuine rfl hnone
      · exact htail hmem
    · exact htail

/-- No key is accepted twice if no genuine attempt comes after the row of an earlier one with its
key may go. -/
theorem nodup_accepted (hclock : Clocked as)
    (hlate : as.Pairwise fun a b =>
      a.genuine = true → b.genuine = true → a.id = b.id → b.now ≤ a.now + ttl) :
    (accepted ttl ts as).Nodup := by
  induction as generalizing ts with
  | nil => exact List.nodup_nil
  | cons a as ih =>
    have hrest : (accepted ttl (after ttl ts a) as).Nodup :=
      ih (List.Pairwise.of_cons hclock) (List.Pairwise.of_cons hlate)
    rw [accepted_cons]
    split
    · rename_i haccepts
      have ⟨hnone, hgenuine⟩ := accepts_eq_true.mp haccepts
      have hblocked : Blocked (after ttl ts a) a.id as := by
        intro b hb hb' hid
        have hle : a.now ≤ b.now := List.rel_of_pairwise_cons hclock hb
        have hsoon : b.now ≤ a.now + ttl := List.rel_of_pairwise_cons hlate hb hgenuine hb' hid.symm
        rw [row_after hle, if_pos ⟨rfl, hnone⟩, if_pos hsoon]
        exact Option.some_ne_none _
      exact List.nodup_cons.mpr
        ⟨hblocked.not_mem_accepted (List.Pairwise.of_cons hclock), hrest⟩
    · exact hrest

/-! ### Attempts that are not genuine -/

-- The tables look the same to every genuine attempt that is to come.
def Agree (ts ts' : Tables ι κ) (as : List (Attempt ι κ)) : Prop :=
  ∀ b ∈ as, b.genuine = true → row ts b.id b.now = row ts' b.id b.now

theorem Agree.after (hclock : Clocked (a :: as)) (h : Agree ts ts' (a :: as))
    (hgenuine : a.genuine = true) : Agree (after ttl ts a) (after ttl ts' a) as := by
  intro b hb hb'
  have hle : a.now ≤ b.now := List.rel_of_pairwise_cons hclock hb
  have hsame : row ts b.id b.now = row ts' b.id b.now := h b (List.mem_cons_of_mem a hb) hb'
  have hnow : row ts a.id a.now = row ts' a.id a.now := h a (List.mem_cons_self ..) hgenuine
  rw [row_after hle, row_after hle, hnow, hsame]

/-- A forged attempt goes unnoticed by those that come when they could not find its row. -/
theorem Agree.after_forged (hclock : Clocked (a :: as)) (h : Agree ts ts' (a :: as))
    (hfar : ∀ b ∈ as, b.genuine = true → a.id = b.id → a.now + ttl < b.now) :
    Agree (Nonces.after ttl ts a) ts' as := by
  intro b hb hb'
  have hle : a.now ≤ b.now := List.rel_of_pairwise_cons hclock hb
  have hsame : row ts b.id b.now = row ts' b.id b.now := h b (List.mem_cons_of_mem a hb) hb'
  rw [row_after hle]
  split
  · rename_i hown
    have hgone : ¬b.now ≤ a.now + ttl := not_le.mpr (hfar b hb hb' hown.1.symm)
    rw [if_neg hgone, ← hsame, hown.1, row_eq_none_of_le hle hown.2]
  · exact hsame

end Gates

end Lib.Nonces
