import Mathlib.Data.List.Nodup
import Mathlib.Tactic.Common

/-!
# Tables with a primary key

The rows of a table in insertion order, no two with one key.  Inserting a row fails if its key is
taken, and an update of one row keeps its key, so both keep the rows apart; the lemmas say what is
then found under each key.
-/

namespace Lib.Tables

structure Table (ρ κ : Type) (key : ρ → κ) where
  rows : List ρ
  nodup : (rows.map key).Nodup

namespace Table

variable {ρ κ : Type} {key : ρ → κ}

def empty : Table ρ κ key := ⟨[], List.nodup_nil⟩

variable [DecidableEq κ]

def find? (t : Table ρ κ key) (k : κ) : Option ρ := t.rows.find? fun r => key r = k

def insert (t : Table ρ κ key) (r : ρ) : Option (Table ρ κ key) :=
  if h : key r ∈ t.rows.map key then none
  else some ⟨t.rows ++ [r], by
    rw [List.map_append]
    exact List.nodup_append'.mpr ⟨t.nodup, List.nodup_singleton _, by simpa using h⟩⟩

theorem map_key_modify (k : κ) {f : ρ → ρ} (hf : ∀ r, key (f r) = key r) (rows : List ρ) :
    (rows.map fun r => if key r = k then f r else r).map key = rows.map key := by
  rw [List.map_map]
  apply List.map_congr_left
  intro r _
  show key (if key r = k then f r else r) = key r
  split
  · exact hf r
  · rfl

def modify (t : Table ρ κ key) (k : κ) (f : ρ → ρ) (hf : ∀ r, key (f r) = key r) :
    Table ρ κ key :=
  ⟨t.rows.map fun r => if key r = k then f r else r, by rw [map_key_modify k hf]; exact t.nodup⟩

variable {t t' : Table ρ κ key} {k k' : κ} {r r' : ρ} {f : ρ → ρ}

theorem key_of_find? (h : t.find? k = some r) : key r = k := by
  unfold find? at h
  simpa using List.find?_some h

theorem mem_of_find? (h : t.find? k = some r) : r ∈ t.rows := List.mem_of_find?_eq_some h

theorem find?_eq_none : t.find? k = none ↔ k ∉ t.rows.map key := by
  simp [find?]

theorem find?_of_mem (h : r ∈ t.rows) : t.find? (key r) = some r := by
  cases hfind : t.find? (key r) with
  | none => exact absurd (List.mem_map_of_mem h) (find?_eq_none.mp hfind)
  | some r' =>
    have hkey : key r' = key r := key_of_find? hfind
    rw [List.inj_on_of_nodup_map t.nodup (mem_of_find? hfind) h hkey]

theorem insert_eq_none : t.insert r = none ↔ ∃ r', t.find? (key r) = some r' := by
  rw [← Option.ne_none_iff_exists', ne_eq, find?_eq_none, not_not]
  unfold insert
  split <;> simp_all

/-- An insertion that succeeds finds the key free. -/
theorem find?_of_insert (h : t.insert r = some t') : t.find? (key r) = none := by
  rw [Option.eq_none_iff_forall_not_mem]
  intro r' hr'
  rw [insert_eq_none.mpr ⟨r', hr'⟩] at h
  exact absurd h (by simp)

/-- What is found after an insertion that succeeds. -/
theorem find?_insert (h : t.insert r = some t') :
    t'.find? k = if key r = k then some r else t.find? k := by
  unfold insert at h
  split at h
  · exact absurd h.symm (Option.some_ne_none _)
  · rename_i hfree
    cases h
    unfold find?
    rw [List.find?_append]
    by_cases hk : key r = k
    · have hnone : t.rows.find? (fun r => key r = k) = none := find?_eq_none.mpr (hk ▸ hfree)
      rw [hnone]
      simp [hk]
    · simp [hk]

theorem rows_insert (h : t.insert r = some t') : t'.rows = t.rows ++ [r] := by
  unfold insert at h
  split at h
  · exact absurd h.symm (Option.some_ne_none _)
  · cases h
    rfl

/-- What is found after an update. -/
theorem find?_modify {hf : ∀ r, key (f r) = key r} :
    (t.modify k f hf).find? k' = if k' = k then (t.find? k').map f else t.find? k' := by
  have hkeys : (fun r => decide (key (if key r = k then f r else r) = k')) =
      fun r => decide (key r = k') := by
    funext r
    split
    · rw [hf]
    · rfl
  unfold modify find?
  dsimp only
  rw [List.find?_map]
  show Option.map _ (t.rows.find? fun r => decide (key (if key r = k then f r else r) = k')) = _
  rw [hkeys]
  cases h : t.rows.find? fun r => decide (key r = k') with
  | none => simp
  | some r =>
    have hkey : key r = k' := by simpa using List.find?_some h
    simp only [Option.map_some, hkey]
    split <;> rfl

/-! ## Insertion or update, and deletion -/

-- `INSERT … ON CONFLICT (key) DO UPDATE`
def upsert (t : Table ρ κ key) (r : ρ) (merge : ρ → ρ) (hmerge : ∀ old, key (merge old) = key old) :
    Table ρ κ key :=
  (t.insert r).getD (t.modify (key r) merge hmerge)

-- `Map.set`
def set (t : Table ρ κ key) (r : ρ) : Table ρ κ key :=
  t.upsert r (fun old => if key old = key r then r else old) fun old => by
    show key (if key old = key r then r else old) = key old
    split
    · next h => exact h.symm
    · rfl

def delete (t : Table ρ κ key) (p : ρ → Bool) : Table ρ κ key :=
  ⟨t.rows.filter fun r => !p r, t.nodup.sublist (List.filter_sublist.map key)⟩

theorem find?_empty : (empty : Table ρ κ key).find? k = none := rfl

/-- What is found after an insertion or update. -/
theorem find?_upsert {merge : ρ → ρ} {hmerge : ∀ old, key (merge old) = key old} :
    (t.upsert r merge hmerge).find? k =
      if k = key r then some (((t.find? k).map merge).getD r) else t.find? k := by
  unfold upsert
  cases hinsert : t.insert r with
  | none =>
    obtain ⟨old, hold⟩ := insert_eq_none.mp hinsert
    rw [Option.getD_none, find?_modify]
    by_cases hk : k = key r
    · rw [if_pos hk, if_pos hk, hk, hold]
      rfl
    · rw [if_neg hk, if_neg hk]
  | some t' =>
    rw [Option.getD_some, find?_insert hinsert]
    by_cases hk : k = key r
    · rw [if_pos hk.symm, if_pos hk, hk, find?_of_insert hinsert]
      rfl
    · rw [if_neg (Ne.symm hk), if_neg hk]

/-- What is found after an insertion under a free key. -/
theorem find?_upsert_free {merge : ρ → ρ} {hmerge : ∀ old, key (merge old) = key old}
    (hfree : t.find? (key r) = none) :
    (t.upsert r merge hmerge).find? k = if k = key r then some r else t.find? k := by
  rw [find?_upsert]
  split
  · next hk =>
    rw [hk, hfree]
    rfl
  · rfl

/-- The rows after an insertion or update. -/
theorem rows_upsert (t : Table ρ κ key) (r : ρ) (merge : ρ → ρ)
    (hmerge : ∀ old, key (merge old) = key old) :
    (key r ∉ t.rows.map key ∧ (t.upsert r merge hmerge).rows = t.rows ++ [r]) ∨
      (key r ∈ t.rows.map key ∧ (t.upsert r merge hmerge).rows =
        t.rows.map fun old => if key old = key r then merge old else old) := by
  unfold upsert
  cases hinsert : t.insert r with
  | none =>
    obtain ⟨old, hold⟩ := insert_eq_none.mp hinsert
    exact .inr ⟨List.mem_map.mpr ⟨old, mem_of_find? hold, key_of_find? hold⟩, rfl⟩
  | some t' => exact .inl ⟨find?_eq_none.mp (find?_of_insert hinsert), rows_insert hinsert⟩

theorem upsert_of_find? {old : ρ} {merge : ρ → ρ} {hmerge : ∀ old, key (merge old) = key old}
    (h : t.find? (key r) = some old) : t.upsert r merge hmerge = t.modify (key r) merge hmerge := by
  unfold upsert
  rw [insert_eq_none.mpr ⟨old, h⟩]
  rfl

theorem key_merged {merge : ρ → ρ} (hmerge : ∀ old, key (merge old) = key old) :
    key (((t.find? (key r)).map merge).getD r) = key r := by
  cases hfind : t.find? (key r) with
  | none => rfl
  | some old => exact (hmerge old).trans (key_of_find? hfind)

theorem find?_set : (t.set r).find? k = if k = key r then some r else t.find? k := by
  unfold set
  rw [find?_upsert]
  by_cases hk : k = key r
  · rw [if_pos hk, if_pos hk]
    cases hold : t.find? k with
    | none => rfl
    | some old =>
      have hkey : key old = key r := (key_of_find? hold).trans hk
      simp [hkey]
  · rw [if_neg hk, if_neg hk]

omit [DecidableEq κ] in
theorem mem_delete {p : ρ → Bool} : r ∈ (t.delete p).rows ↔ r ∈ t.rows ∧ p r = false := by
  simp [delete]

/-- What is found after a deletion. -/
theorem find?_delete {p : ρ → Bool} :
    (t.delete p).find? k = (t.find? k).filter fun r => !p r := by
  cases hfind : t.find? k with
  | none =>
    rw [find?_eq_none] at hfind
    rw [Option.filter_none, find?_eq_none]
    exact fun hmem => hfind ((List.filter_sublist.map key).subset hmem)
  | some r =>
    cases hp : p r with
    | true =>
      rw [Option.filter_some, hp, Bool.not_true, if_neg Bool.false_ne_true, find?_eq_none]
      intro hmem
      obtain ⟨r', hr', hkey⟩ := List.mem_map.mp hmem
      obtain ⟨hmem', hp'⟩ := mem_delete.mp hr'
      have hsame : r' = r := List.inj_on_of_nodup_map t.nodup hmem' (mem_of_find? hfind)
        (hkey.trans (key_of_find? hfind).symm)
      rw [hsame, hp] at hp'
      cases hp'
    | false =>
      have hmem : r ∈ (t.delete p).rows := mem_delete.mpr ⟨mem_of_find? hfind, hp⟩
      have hfound := find?_of_mem hmem
      rw [key_of_find? hfind] at hfound
      rw [hfound, Option.filter_some, hp]
      rfl

/-! ## What holds of all rows -/

section All

variable {P : ρ → Prop}

def All (P : ρ → Prop) (t : Table ρ κ key) : Prop := ∀ r ∈ t.rows, P r

omit [DecidableEq κ] in
theorem All.empty : All P (empty : Table ρ κ key) := fun r hr => by cases hr

theorem All.modify (hf : ∀ r, key (f r) = key r) (h : All P t) (hP : ∀ r, P r → P (f r)) :
    All P (t.modify k f hf) := by
  intro r hr
  obtain ⟨old, hold, rfl⟩ := List.mem_map.mp hr
  split
  · exact hP old (h old hold)
  · exact h old hold

theorem All.upsert {merge : ρ → ρ} {hmerge : ∀ old, key (merge old) = key old} (h : All P t)
    (hr : P r) (hP : ∀ old, P old → P (merge old)) : All P (t.upsert r merge hmerge) := by
  unfold Table.upsert
  cases hinsert : t.insert r with
  | none => exact h.modify hmerge hP
  | some t' =>
    intro r' hr'
    rw [Option.getD_some, rows_insert hinsert, List.mem_append, List.mem_singleton] at hr'
    rcases hr' with hr' | rfl
    · exact h r' hr'
    · exact hr

theorem All.set (h : All P t) (hr : P r) : All P (t.set r) := by
  apply h.upsert hr
  intro old hold
  split
  · exact hr
  · exact hold

omit [DecidableEq κ] in
theorem All.delete (h : All P t) (p : ρ → Bool) : All P (t.delete p) := fun r hr =>
  h r (mem_delete.mp hr).1

end All

/-- Two tables with the same keys in the same order.  If what a test selects from the one is in the
other, it is what the test selects there and has not changed. -/
theorem filter_rows_eq [DecidableEq ρ] (hkeys : t'.rows.map key = t.rows.map key) {p : ρ → Bool}
    (hp : ∀ r ∈ t'.rows, p r = true → r ∈ t.rows) :
    t'.rows.filter p = t.rows.filter fun r => p r && decide (t'.find? (key r) = some r) := by
  let f : ρ → ρ := fun r => (t'.find? (key r)).getD r
  have hrows : t'.rows = t.rows.map f := by
    apply List.ext_getElem
    · simpa using congrArg List.length hkeys
    · intro i hi hi'
      have hi'' : i < t.rows.length := by simpa using hi'
      have hsame : key t'.rows[i] = key t.rows[i] := by
        have hget := List.getElem_of_eq hkeys (by simpa using hi : i < (t'.rows.map key).length)
        rwa [List.getElem_map, List.getElem_map] at hget
      rw [List.getElem_map]
      show _ = (t'.find? (key t.rows[i])).getD _
      rw [← hsame, find?_of_mem (List.getElem_mem hi)]
      rfl
  have hselects : ∀ r ∈ t.rows,
      p (f r) = (p r && decide (t'.find? (key r) = some r)) := by
    intro r hr
    obtain ⟨r', hr', hkey⟩ : ∃ r' ∈ t'.rows, key r' = key r := by
      have hmem := List.mem_map_of_mem (f := key) hr
      rw [← hkeys] at hmem
      exact List.mem_map.mp hmem
    have hfind : t'.find? (key r) = some r' := hkey ▸ find?_of_mem hr'
    have hf : f r = r' := congrArg (Option.getD · r) hfind
    rw [hf, hfind]
    by_cases hsame : r' = r
    · simp [hsame]
    · have hnot : p r' ≠ true := fun hpr =>
        hsame (List.inj_on_of_nodup_map t.nodup (hp r' hr' hpr) hr hkey)
      simp [hnot, hsame]
  calc t'.rows.filter p
      = (t.rows.filter (p ∘ f)).map f := by
        rw [← List.filter_map, ← hrows]
    _ = (t.rows.filter fun r => p r && decide (t'.find? (key r) = some r)).map f := by
        rw [List.filter_congr (p := p ∘ f) hselects]
    _ = (t.rows.filter fun r => p r && decide (t'.find? (key r) = some r)).map id := by
        apply List.map_congr_left
        intro r hr
        have hfind : t'.find? (key r) = some r :=
          of_decide_eq_true (Bool.and_eq_true_iff.mp (List.mem_filter.mp hr).2).2
        exact congrArg (Option.getD · r) hfind
    _ = _ := List.map_id _

end Table

end Lib.Tables
