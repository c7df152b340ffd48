import Mathlib.Algebra.Order.Field.Basic
import Mathlib.Tactic.Linarith

/-!
# Token buckets

A bucket fills at a constant rate up to its capacity, and a request takes one token if there is a
whole one.  What a window of time grants is paid from what the bucket holds when the window opens
and from what flows in while it is open.
-/

namespace Lib.TokenBucket

variable {K : Type} [Field K] [LinearOrder K]

structure Level (K : Type) where
  tokens : K
  since : K

variable (capacity rate : K)

def refilled (l : Level K) (now : K) : K := min capacity (l.tokens + (now - l.since) * rate)

def take (l : Level K) (now : K) : Bool × Level K :=
  let tokens := refilled capacity rate l now
  if tokens < 1 then (false, ⟨tokens, now⟩) else (true, ⟨tokens - 1, now⟩)

-- The requests that are granted between the two times.
def grants (opens closes : K) : Level K → List K → Nat
  | _, [] => 0
  | l, now :: times =>
    (if (take capacity rate l now).1 = true ∧ opens ≤ now ∧ now ≤ closes then 1 else 0) +
      grants opens closes (take capacity rate l now).2 times

structure Within (l : Level K) : Prop where
  nonneg : 0 ≤ l.tokens
  le : l.tokens ≤ capacity

-- The requests come one after the other, the first not before the level was taken.
def Follows : Level K → List K → Prop
  | _, [] => True
  | l, now :: times => l.since ≤ now ∧ Follows (take capacity rate l now).2 times

variable (l : Level K) (now : K)

@[simp] theorem take_since : (take capacity rate l now).2.since = now := by
  unfold take
  dsimp only
  split <;> rfl

theorem take_fst : (take capacity rate l now).1 = true ↔ 1 ≤ refilled capacity rate l now := by
  unfold take
  dsimp only
  split
  · next h => simpa using h
  · next h => simpa using h

/-- A token that is granted leaves the bucket. -/
theorem take_tokens : (take capacity rate l now).2.tokens =
    refilled capacity rate l now - if (take capacity rate l now).1 = true then 1 else 0 := by
  unfold take
  dsimp only
  split <;> simp

theorem refilled_le_capacity : refilled capacity rate l now ≤ capacity := min_le_left _ _

theorem refilled_le : refilled capacity rate l now ≤ l.tokens + (now - l.since) * rate :=
  min_le_right _ _

theorem grants_of_closed {capacity rate opens closes now : K} {l : Level K} {times : List K}
    (hclosed : closes < now) (htimes : Follows capacity rate l (now :: times)) :
    grants capacity rate opens closes l (now :: times) = 0 := by
  induction times generalizing l now with
  | nil => simp [grants, not_le.mpr hclosed]
  | cons next times ih =>
    have hnext : now ≤ next := by
      have h := htimes.2.1
      rwa [take_since] at h
    have hrest := ih (hclosed.trans_le hnext) htimes.2
    rw [grants, hrest, if_neg (fun h => not_le.mpr hclosed h.2.2)]

variable {capacity rate} {l : Level K} {now later opens closes : K} {times : List K}
variable [IsStrictOrderedRing K]

theorem refilled_nonneg (hl : Within capacity l) (hrate : 0 ≤ rate) (hnow : l.since ≤ now) :
    0 ≤ refilled capacity rate l now := by
  apply le_min
  · exact hl.nonneg.trans hl.le
  · have hflow : 0 ≤ (now - l.since) * rate := mul_nonneg (sub_nonneg.mpr hnow) hrate
    linarith [hl.nonneg]

theorem Within.take (hl : Within capacity l) (hrate : 0 ≤ rate) (hnow : l.since ≤ now) :
    Within capacity (take capacity rate l now).2 := by
  have htokens := take_tokens capacity rate l now
  have hcap := refilled_le_capacity capacity rate l now
  apply Within.mk
  · rw [htokens]
    split
    · next hok =>
      have hone := (take_fst capacity rate l now).mp hok
      linarith
    · have hnonneg := refilled_nonneg hl hrate hnow
      linarith
  · rw [htokens]
    split
    · linarith
    · linarith

/-! ## Windows -/

/-- From a level on, no more is granted than it holds and than flows in. -/
theorem grants_le_of_open (hrate : 0 ≤ rate) (hl : Within capacity l) (hclose : l.since ≤ closes)
    (htimes : Follows capacity rate l times) :
    (grants capacity rate opens closes l times : K) ≤ l.tokens + (closes - l.since) * rate := by
  induction times generalizing l with
  | nil =>
    have hflow : 0 ≤ (closes - l.since) * rate := mul_nonneg (sub_nonneg.mpr hclose) hrate
    have hnonneg := hl.nonneg
    simp only [grants, Nat.cast_zero]
    linarith
  | cons now times ih =>
    by_cases hnow : now ≤ closes
    · have hsince := take_since capacity rate l now
      have hrest := ih (hl.take hrate htimes.1) (hsince.trans_le hnow) htimes.2
      rw [take_since, take_tokens] at hrest
      have hfill := refilled_le capacity rate l now
      rw [grants, Nat.cast_add]
      split
      · next hgranted =>
        rw [if_pos hgranted.1] at hrest
        rw [Nat.cast_one]
        linarith
      · split at hrest
        · rw [Nat.cast_zero]
          linarith
        · rw [Nat.cast_zero]
          linarith
    · rw [grants_of_closed (not_le.mp hnow) htimes]
      have hflow : 0 ≤ (closes - l.since) * rate := mul_nonneg (sub_nonneg.mpr hclose) hrate
      have hnonneg := hl.nonneg
      rw [Nat.cast_zero]
      linarith

/-- No window grants more than a full bucket and what flows in while it is open. -/
theorem grants_le (hrate : 0 ≤ rate) (hl : Within capacity l) (hopen : opens ≤ closes)
    (htimes : Follows capacity rate l times) :
    (grants capacity rate opens closes l times : K) ≤ capacity + (closes - opens) * rate := by
  have hcap : 0 ≤ capacity := hl.nonneg.trans hl.le
  have hflow : 0 ≤ (closes - opens) * rate := mul_nonneg (sub_nonneg.mpr hopen) hrate
  induction times generalizing l with
  | nil =>
    simp only [grants, Nat.cast_zero]
    linarith
  | cons now times ih =>
    have hnext := hl.take hrate htimes.1
    by_cases hclosed : closes < now
    · rw [grants_of_closed hclosed htimes, Nat.cast_zero]
      linarith
    · have hnow : now ≤ closes := not_lt.mp hclosed
      by_cases hopened : opens ≤ now
      · -- The first request of the window finds at most a full bucket.
        have hrest := @grants_le_of_open _ _ _ _ _ _ opens _ _ _ hrate hnext
          ((take_since capacity rate l now).trans_le hnow) htimes.2
        rw [take_since, take_tokens] at hrest
        have hfull := refilled_le_capacity capacity rate l now
        have hshort : (closes - now) * rate ≤ (closes - opens) * rate :=
          mul_le_mul_of_nonneg_right (sub_le_sub_left hopened closes) hrate
        rw [grants, Nat.cast_add]
        split
        · next hgranted =>
          rw [if_pos hgranted.1] at hrest
          rw [Nat.cast_one]
          linarith
        · split at hrest
          · rw [Nat.cast_zero]
            linarith
          · rw [Nat.cast_zero]
            linarith
      · rw [grants, if_neg (fun h => hopened h.2.1), Nat.zero_add]
        exact ih hnext htimes.2

/-- After a refusal, the bucket has a token again when what was missing has flowed in. -/
theorem take_after_wait (hrate : 0 < rate) (hcapacity : 1 ≤ capacity)
    (hdenied : (take capacity rate l now).1 = false)
    (hwait : now + (1 - refilled capacity rate l now) / rate ≤ later) :
    (take capacity rate (take capacity rate l now).2 later).1 = true := by
  have hkept : (take capacity rate l now).2.tokens = refilled capacity rate l now := by
    rw [take_tokens, hdenied]
    simp
  rw [take_fst]
  unfold refilled at hwait ⊢
  rw [take_since, hkept]
  apply le_min hcapacity
  have hflow : (1 - refilled capacity rate l now) ≤ (later - now) * rate := by
    rw [← div_le_iff₀ hrate]
    unfold refilled
    linarith
  linarith

end Lib.TokenBucket
