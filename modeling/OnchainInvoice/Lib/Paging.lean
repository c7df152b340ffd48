import Mathlib.Data.List.Nodup
import Mathlib.Tactic.Common

/-!
# Reading a sorted list in batches from a cursor

A reader asks for the first `size` items at or after its cursor, and moves the cursor to the greatest
key it was given.  The next batch starts at that key again, so a key with `size` items or more holds
the cursor: what comes behind the first `size` items from there is never read.
-/

namespace Lib.Paging

variable {α : Type} (key : α → Nat) (limit size : Nat) (items : List α)

/-! ## Batches -/

def served (cursor : Nat) : List α := items.filter fun a => cursor ≤ key a ∧ key a ≤ limit

def batch (cursor : Nat) : List α := (served key limit items cursor).take size

def advance (cursor : Nat) : Nat :=
  (batch key limit size items cursor).foldl (fun c a => max c (key a)) cursor

-- What the first `n` batches bring.
def readBy (cursor : Nat) : Nat → List α
  | 0 => []
  | n + 1 => batch key limit size items cursor ++ readBy (advance key limit size items cursor) n

-- The item lies ahead, and no full key between stands before it.
structure Reach (cursor : Nat) (a : α) : Prop where
  ahead : cursor ≤ key a
  within : key a ≤ limit
  unheld : ∀ k, cursor ≤ k → size ≤ (items.filter fun x => key x = k).length →
    key a < k ∨ a ∈ batch key limit size items k

variable {key limit size items} {cursor k n : Nat} {a b : α}

theorem mem_served : a ∈ served key limit items cursor ↔
    a ∈ items ∧ cursor ≤ key a ∧ key a ≤ limit := by
  simp [served]

theorem mem_served_of_mem_batch (h : a ∈ batch key limit size items cursor) :
    a ∈ served key limit items cursor := List.mem_of_mem_take h

/-! ## The cursor -/

theorem le_foldl_max (l : List α) (c : Nat) :
    c ≤ l.foldl (fun c a => max c (key a)) c ∧
      (∀ a ∈ l, key a ≤ l.foldl (fun c a => max c (key a)) c) ∧
      (l.foldl (fun c a => max c (key a)) c = c ∨
        ∃ a ∈ l, key a = l.foldl (fun c a => max c (key a)) c) := by
  induction l generalizing c with
  | nil => simp
  | cons b l ih =>
    obtain ⟨hle, hall, hone⟩ := ih (max c (key b))
    rw [List.foldl_cons]
    refine ⟨by omega, ?_, ?_⟩
    · intro a ha
      rcases List.mem_cons.mp ha with rfl | ha
      · omega
      · exact hall a ha
    · rcases hone with heq | ⟨a, ha, heq⟩
      · rw [heq]
        rcases Nat.le_total (key b) c with hb | hb
        · exact .inl (Nat.max_eq_left hb)
        · exact .inr ⟨b, List.mem_cons_self, (Nat.max_eq_right hb).symm⟩
      · exact .inr ⟨a, List.mem_cons_of_mem _ ha, heq⟩

theorem cursor_le_advance : cursor ≤ advance key limit size items cursor :=
  (le_foldl_max _ _).1

theorem key_le_advance (h : a ∈ batch key limit size items cursor) :
    key a ≤ advance key limit size items cursor := (le_foldl_max _ _).2.1 a h

theorem advance_eq : advance key limit size items cursor = cursor ∨
    ∃ a ∈ batch key limit size items cursor, key a = advance key limit size items cursor :=
  (le_foldl_max _ _).2.2

/-! ## Sorted lists -/

section Sorted

variable {l : List α} (hsorted : l.Pairwise fun a b => key a ≤ key b)
include hsorted

theorem filter_lt_append (k : Nat) :
    l = (l.filter fun a => key a < k) ++ l.filter fun a => k ≤ key a := by
  induction l with
  | nil => rfl
  | cons a l ih =>
    obtain ⟨ha, hl⟩ := List.pairwise_cons.mp hsorted
    by_cases hk : key a < k
    · rw [List.filter_cons_of_pos (by simpa using hk), List.filter_cons_of_neg (by simpa using hk),
        List.cons_append, ← ih hl]
    · -- from `a` on, no key is less than `k`
      have hall : ∀ b ∈ a :: l, k ≤ key b := by
        intro b hb
        rcases List.mem_cons.mp hb with rfl | hb
        · omega
        · exact Nat.le_trans (Nat.le_of_not_lt hk) (ha b hb)
      have hnone : (a :: l).filter (fun b => key b < k) = [] := by
        rw [List.filter_eq_nil_iff]
        intro b hb
        simpa using hall b hb
      rw [hnone, List.nil_append, List.filter_eq_self.mpr (by simpa using hall)]

theorem mem_take_of_key_lt (ha : a ∈ l) (hb : b ∈ l.take n) (hlt : key a < key b) :
    a ∈ l.take n := by
  rw [← List.take_append_drop n l] at ha hsorted
  rcases List.mem_append.mp ha with ha | ha
  · exact ha
  · exact absurd ((List.pairwise_append.mp hsorted).2.2 b hb a ha) (Nat.not_le.mpr hlt)

end Sorted

/-! ## What is read -/

section Reading

variable (hsorted : items.Pairwise fun a b => key a ≤ key b)
include hsorted

theorem sorted_served : (served key limit items cursor).Pairwise fun a b => key a ≤ key b :=
  hsorted.filter _

/-- The items from a later key on are the end of those from an earlier one. -/
theorem served_eq_append (h : cursor ≤ k) : served key limit items cursor =
    (served key limit items cursor).filter (fun a => key a < k) ++ served key limit items k := by
  have hlate : (served key limit items cursor).filter (fun a => k ≤ key a) =
      served key limit items k := by
    unfold served
    rw [List.filter_filter]
    apply List.filter_congr
    intro a _
    grind
  rw [← hlate]
  exact filter_lt_append (sorted_served hsorted) k

/-- An item read from an earlier cursor is read from a later one that is not behind it. -/
theorem mem_batch_of_le (h : cursor ≤ k) (hbatch : a ∈ batch key limit size items cursor)
    (hkey : k ≤ key a) : a ∈ batch key limit size items k := by
  unfold batch at hbatch ⊢
  rw [served_eq_append hsorted h, List.take_append] at hbatch
  rcases List.mem_append.mp hbatch with hearly | hlate
  · have hlt := (List.mem_filter.mp (List.mem_of_mem_take hearly)).2
    simp only [decide_eq_true_eq] at hlt
    omega
  · exact (List.take_prefix_take_left (Nat.sub_le _ _)).subset hlate

/-- A full key holds the cursor. -/
theorem advance_le_of_full (h : cursor ≤ k) (hlimit : k ≤ limit)
    (hfull : size ≤ (items.filter fun a => key a = k).length) :
    advance key limit size items cursor ≤ k := by
  rcases @advance_eq _ key limit size items cursor with heq | ⟨a, ha, heq⟩
  · omega
  by_contra hlt
  have hak : k < key a := by omega
  -- the whole of `k` stands before `a`
  have hsame : (served key limit items cursor).filter (fun b => key b = k) =
      (batch key limit size items cursor).filter fun b => key b = k := by
    have hsplit : served key limit items cursor = batch key limit size items cursor ++
        (served key limit items cursor).drop size := (List.take_append_drop ..).symm
    have hrest : ((served key limit items cursor).drop size).filter (fun b => key b = k) = [] := by
      rw [List.filter_eq_nil_iff]
      intro b hb
      have hs := @sorted_served _ _ limit _ cursor hsorted
      rw [hsplit] at hs
      have := (List.pairwise_append.mp hs).2.2 a ha b hb
      simp only [decide_eq_true_eq]
      omega
    rw [hsplit, List.filter_append, hrest, List.append_nil]
  have hcount : (items.filter fun b => key b = k) =
      (served key limit items cursor).filter fun b => key b = k := by
    unfold served
    rw [List.filter_filter]
    apply List.filter_congr
    intro b _
    grind
  have hbatch : ((batch key limit size items cursor).filter fun b => key b = k).length <
      (batch key limit size items cursor).length := by
    apply Nat.lt_of_le_of_ne (List.length_filter_le ..)
    intro hall
    have := List.length_filter_eq_length_iff.mp hall a ha
    simp only [decide_eq_true_eq] at this
    omega
  have hsize : (batch key limit size items cursor).length ≤ size := List.length_take_le ..
  rw [hcount, hsame] at hfull
  omega

/-- Only what can be reached is read. -/
theorem reach_of_mem_readBy (h : a ∈ readBy key limit size items cursor n) :
    Reach key limit size items cursor a := by
  induction n generalizing cursor with
  | zero => exact absurd h List.not_mem_nil
  | succ n ih =>
    rcases List.mem_append.mp h with hbatch | hrest
    · obtain ⟨-, hahead, hwithin⟩ := mem_served.mp (mem_served_of_mem_batch hbatch)
      refine ⟨hahead, hwithin, fun k hk _ => ?_⟩
      rcases Nat.lt_or_ge (key a) k with hlt | hge
      · exact .inl hlt
      · exact .inr (mem_batch_of_le hsorted hk hbatch hge)
    · obtain ⟨hahead, hwithin, hunheld⟩ := ih hrest
      refine ⟨Nat.le_trans cursor_le_advance hahead, hwithin, fun k hk hfull => ?_⟩
      rcases Nat.lt_or_ge limit k with hlt | hge
      · exact .inl (Nat.lt_of_le_of_lt hwithin hlt)
      · exact hunheld k (advance_le_of_full hsorted hk hge hfull) hfull

/-- What can be reached and stands before the new cursor has been read. -/
theorem mem_batch_of_lt_advance (ha : a ∈ served key limit items cursor)
    (hlt : key a < advance key limit size items cursor) : a ∈ batch key limit size items cursor := by
  rcases @advance_eq _ key limit size items cursor with heq | ⟨b, hb, heq⟩
  · have := (mem_served.mp ha).2.1
    omega
  · exact mem_take_of_key_lt (sorted_served hsorted) ha hb (by omega)

/-- What can be reached is read, in no more batches than there are items ahead. -/
theorem exists_readBy_served (cursor : Nat) :
    ∃ n ≤ (served key limit items cursor).length,
      ∀ a ∈ items, Reach key limit size items cursor a →
        a ∈ readBy key limit size items cursor n := by
  induction hlen : (served key limit items cursor).length using Nat.strongRecOn
    generalizing cursor with
  | _ length ih =>
    have hserved : ∀ a ∈ items, Reach key limit size items cursor a →
        a ∈ served key limit items cursor :=
      fun a ha hreach => mem_served.mpr ⟨ha, hreach.ahead, hreach.within⟩
    rcases Nat.eq_zero_or_pos length with hzero | hpos
    · refine ⟨0, Nat.zero_le _, fun a ha hreach => ?_⟩
      rw [List.length_eq_zero_iff.mp (hlen.trans hzero)] at hserved
      exact absurd (hserved a ha hreach) List.not_mem_nil
    have hadvance : cursor ≤ advance key limit size items cursor := cursor_le_advance
    have happend := @served_eq_append _ _ limit _ _ _ hsorted hadvance
    have hlength := congrArg List.length happend
    rw [List.length_append] at hlength
    rcases Nat.lt_or_ge (served key limit items (advance key limit size items cursor)).length
      length with hless | hsame
    · obtain ⟨n, hn, hread⟩ := ih _ hless _ rfl
      refine ⟨n + 1, by omega, fun a ha hreach => ?_⟩
      rcases Nat.lt_or_ge (key a) (advance key limit size items cursor) with hlt | hge
      · exact List.mem_append_left _ (mem_batch_of_lt_advance hsorted (hserved a ha hreach) hlt)
      · exact List.mem_append_right _ (hread a ha
          ⟨hge, hreach.within, fun k hk hfull => hreach.unheld k (Nat.le_trans hadvance hk) hfull⟩)
    · -- the batch is all of one key: the cursor stays there, and one batch brings all it ever will
      refine ⟨1, hpos, fun a ha hreach => List.mem_append_left _ ?_⟩
      have hnone : (served key limit items cursor).filter
          (fun a => key a < advance key limit size items cursor) = [] :=
        List.length_eq_zero_iff.mp (by omega)
      rw [hnone, List.nil_append] at happend
      have hkeys : ∀ b ∈ batch key limit size items cursor,
          key b = advance key limit size items cursor := by
        intro b hb
        have hge := mem_served_of_mem_batch hb
        rw [happend] at hge
        exact Nat.le_antisymm (key_le_advance hb) (mem_served.mp hge).2.1
      rcases Nat.lt_or_ge (served key limit items cursor).length size with hfew | hmany
      · unfold batch
        rw [List.take_of_length_le (Nat.le_of_lt hfew)]
        exact hserved a ha hreach
      · have hfull : size ≤
            (items.filter fun b => key b = advance key limit size items cursor).length := by
          have hsub : (batch key limit size items cursor).Sublist
              (items.filter fun b => key b = advance key limit size items cursor) := by
            have hself : batch key limit size items cursor =
                (batch key limit size items cursor).filter
                  (fun b => key b = advance key limit size items cursor) :=
              (List.filter_eq_self.mpr fun b hb => decide_eq_true (hkeys b hb)).symm
            rw [hself]
            exact ((List.take_sublist ..).trans List.filter_sublist).filter _
          have hbatch : (batch key limit size items cursor).length = size :=
            List.length_take_of_le hmany
          exact Nat.le_trans (Nat.le_of_eq hbatch.symm) hsub.length_le
        rcases hreach.unheld _ hadvance hfull with hlt | hmem
        · have hge := hserved a ha hreach
          rw [happend] at hge
          exact absurd (mem_served.mp hge).2.1 (Nat.not_le.mpr hlt)
        · unfold batch at hmem ⊢
          rwa [happend]

/-- The items that are read sooner or later, and how soon. -/
theorem exists_readBy (cursor : Nat) :
    ∃ n ≤ items.length, ∀ a ∈ items, Reach key limit size items cursor a →
      a ∈ readBy key limit size items cursor n := by
  obtain ⟨n, hn, hread⟩ := @exists_readBy_served _ _ limit size _ hsorted cursor
  exact ⟨n, Nat.le_trans hn (List.length_filter_le ..), hread⟩

end Reading

end Lib.Paging
