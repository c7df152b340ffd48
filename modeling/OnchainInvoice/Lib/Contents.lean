import Mathlib.Data.Set.Basic
import OnchainInvoice.Lib.Tables

/-!
# What a table says

The records that the rows of a table stand for, as a set: `view` gives a row's record, or nothing
for a row that stands for none.  Whatever is written under a key replaces what the set has there
(`put`).  Two tables with the same records may be kept under different keys; they stay the same
after a write of one record to both if the coarser key tells that record from the others.
-/

namespace Lib.Tables

/-! ## Sets of records -/

section Sets

variable {V κ μ : Type} (kv : V → κ)

-- `o` in place of what `S` has under the key `k`.
def put (k : κ) (o : Option V) (S : Set V) : Set V := {x | (x ∈ S ∧ kv x ≠ k) ∨ o = some x}

-- Of the records of `S`, those with the coarser key of `k` have the key `k`.
def Apart (g : κ → μ) (k : κ) (S : Set V) : Prop := ∀ z ∈ S, g (kv z) = g k → kv z = k

variable {kv} {g : κ → μ} {k : κ} {o o' : Option V} {S : Set V}

/-- Nothing is changed by writing what is there. -/
theorem put_eq_self_iff (ho : ∀ x ∈ o, kv x = k) :
    put kv k o S = S ↔ ∀ x, kv x = k → (x ∈ S ↔ o = some x) := by
  apply Iff.intro
  · intro h x hx
    rw [← h]
    simp [put, hx]
  · intro h
    ext x
    by_cases hx : kv x = k
    · rw [h x hx]
      simp [put, hx]
    · have hnot : o ≠ some x := fun hox => hx (ho x hox)
      simp [put, hx, hnot]

/-- Two writes under keys of which one is coarser leave the same. -/
theorem put_eq_put_iff {kg : V → μ} {l : μ} (hkg : ∀ x, kg x = g (kv x)) (hl : l = g k)
    (ho : ∀ x ∈ o, kv x = k) (ho' : ∀ x ∈ o', kv x = k) :
    put kv k o S = put kg l o' S ↔ o = o' ∧ Apart kv g k S := by
  subst hl
  obtain rfl : kg = fun x => g (kv x) := funext hkg
  have hmem (x : V) (hx : kv x = k) : (x ∈ put kv k o S ↔ o = some x) ∧
      (x ∈ put (fun x => g (kv x)) (g k) o' S ↔ o' = some x) := by
    simp [put, hx]
  apply Iff.intro
  · intro h
    have hsame : o = o' := by
      ext x
      apply Iff.intro
      · intro hx
        have hmem' := (hmem x (ho x hx)).1.mpr hx
        rw [h] at hmem'
        exact (hmem x (ho x hx)).2.mp hmem'
      · intro hx
        have hmem' := (hmem x (ho' x hx)).2.mpr hx
        rw [← h] at hmem'
        exact (hmem x (ho' x hx)).1.mp hmem'
    refine ⟨hsame, fun z hz hg => ?_⟩
    by_contra hne
    have hleft : z ∈ put kv k o S := .inl ⟨hz, hne⟩
    rw [h] at hleft
    rcases hleft with ⟨-, hnot⟩ | hown
    · exact hnot hg
    · exact hne (ho' z hown)
  · rintro ⟨rfl, hapart⟩
    ext x
    apply or_congr_left
    apply and_congr_right
    intro hx
    exact not_congr ⟨fun hk => congrArg g hk, hapart x hx⟩

theorem put_eq_put_same (ho : ∀ x ∈ o, kv x = k) (ho' : ∀ x ∈ o', kv x = k) :
    put kv k o S = put kv k o' S ↔ o = o' := by
  exact (put_eq_put_iff (g := id) (fun _ => rfl) rfl ho ho').trans (and_iff_left fun z _ hz => hz)

end Sets

/-! ## The records of a table -/

namespace Table

variable {ρ κ V : Type} {key : ρ → κ} [DecidableEq κ]

def contents (t : Table ρ κ key) (view : ρ → Option V) : Set V := {x | ∃ r ∈ t.rows, view r = some x}

variable {t : Table ρ κ key} {view : ρ → Option V} {kv : V → κ} {k : κ} {r : ρ} {f : ρ → ρ}

omit [DecidableEq κ] in
theorem contents_empty : contents (empty : Table ρ κ key) view = ∅ := by
  ext x
  simp [contents, empty]

/-- The records under a key are those of the row found there. -/
theorem mem_contents (hkv : ∀ r x, view r = some x → kv x = key r) {x : V} :
    x ∈ t.contents view ↔ (t.find? (kv x)).bind view = some x := by
  rw [Option.bind_eq_some_iff]
  apply Iff.intro
  · rintro ⟨r, hr, hx⟩
    refine ⟨r, ?_, hx⟩
    rw [hkv r x hx]
    exact find?_of_mem hr
  · rintro ⟨r, hr, hx⟩
    exact ⟨r, mem_of_find? hr, hx⟩

/-- The row found under a key as the contents tell it. -/
theorem bind_find? (hkv : ∀ r x, view r = some x → kv x = key r) {x : V} (hx : kv x = k) :
    (t.find? k).bind view = some x ↔ x ∈ t.contents view := by
  rw [mem_contents hkv, hx]

omit [DecidableEq κ] in
theorem key_of_bind (hkv : ∀ r x, view r = some x → kv x = key r) {o : Option ρ}
    (ho : ∀ r ∈ o, key r = k) {x : V} (hx : x ∈ o.bind view) : kv x = k := by
  obtain ⟨r, hr, hview⟩ := Option.bind_eq_some_iff.mp hx
  rw [hkv r x hview, ho r hr]

/-- A table of which what is found differs under one key only. -/
theorem contents_of_find? {t' : Table ρ κ key} (hkv : ∀ r x, view r = some x → kv x = key r)
    {o : Option ρ} (hfind : ∀ k', t'.find? k' = if k' = k then o else t.find? k') :
    t'.contents view = put kv k (o.bind view) (t.contents view) := by
  have ho : ∀ r ∈ o, key r = k := fun r hr => key_of_find? ((hfind k).trans ((if_pos rfl).trans hr))
  ext x
  rw [mem_contents hkv, hfind]
  by_cases hx : kv x = k
  · simp [put, hx]
  · have hnot : o.bind view ≠ some x := fun h => hx (key_of_bind hkv ho h)
    rw [if_neg hx, ← mem_contents hkv]
    simp [put, hx, hnot]

theorem contents_upsert (hkv : ∀ r x, view r = some x → kv x = key r) {merge : ρ → ρ}
    {hmerge : ∀ old, key (merge old) = key old} : (t.upsert r merge hmerge).contents view =
      put kv (key r) (view (((t.find? (key r)).map merge).getD r)) (t.contents view) := by
  apply contents_of_find? (o := some (((t.find? (key r)).map merge).getD r)) hkv
  intro k'
  rw [find?_upsert]
  split
  · next hk => rw [hk]
  · rfl

theorem contents_set (hkv : ∀ r x, view r = some x → kv x = key r) :
    (t.set r).contents view = put kv (key r) (view r) (t.contents view) :=
  contents_of_find? (o := some r) hkv fun _ => find?_set

theorem contents_modify (hkv : ∀ r x, view r = some x → kv x = key r)
    {hf : ∀ r, key (f r) = key r} : (t.modify k f hf).contents view =
      put kv k (((t.find? k).map f).bind view) (t.contents view) := by
  apply contents_of_find? hkv
  intro k'
  rw [find?_modify]
  split
  · next hk => rw [hk]
  · rfl

theorem contents_delete (hkv : ∀ r x, view r = some x → kv x = key r) :
    (t.delete fun r => key r = k).contents view = put kv k none (t.contents view) := by
  apply contents_of_find? (o := none) hkv
  intro k'
  rw [find?_delete]
  split
  · next hk =>
    cases hfind : t.find? k' with
    | none => rfl
    | some r => simp [key_of_find? hfind, hk]
  · next hk =>
    cases hfind : t.find? k' with
    | none => rfl
    | some r => simp [key_of_find? hfind, hk]

/-- Nothing is changed by writing what is found. -/
theorem put_contents_eq_self (hkv : ∀ r x, view r = some x → kv x = key r) {o : Option V}
    (ho : ∀ x ∈ o, kv x = k) :
    put kv k o (t.contents view) = t.contents view ↔ (t.find? k).bind view = o := by
  rw [put_eq_self_iff ho]
  apply Iff.intro
  · intro h
    ext x
    apply Iff.intro
    · intro hx
      have hkey := key_of_bind hkv (fun r hr => key_of_find? hr) hx
      exact (h x hkey).mp ((bind_find? hkv hkey).mp hx)
    · intro hx
      exact (bind_find? hkv (ho x hx)).mpr ((h x (ho x hx)).mpr hx)
  · rintro rfl x hx
    exact (bind_find? hkv hx).symm

theorem mem_contents_upsert (hkv : ∀ r x, view r = some x → kv x = key r) {merge : ρ → ρ}
    {hmerge : ∀ old, key (merge old) = key old} {x : V}
    (hx : view (((t.find? (key r)).map merge).getD r) = some x) :
    x ∈ (t.upsert r merge hmerge).contents view := by
  rw [contents_upsert hkv]
  exact .inr hx

/-! ## Two tables with the same contents -/

section Two

variable {ρ' μ : Type} {key' : ρ' → μ} [DecidableEq μ] {t' : Table ρ' μ key'}
  {view' : ρ' → Option V} {kg : V → μ} {g : κ → μ}

/-- An insertion or update is followed by writing the record that it leaves, unless the coarser
key confuses it with another. -/
theorem upsert_eq_set_iff (h : t.contents view = t'.contents view')
    (hkv : ∀ r x, view r = some x → kv x = key r) (hkg : ∀ r x, view' r = some x → kg x = key' r)
    (hg : ∀ x, kg x = g (kv x)) {merge : ρ → ρ} {hmerge : ∀ old, key (merge old) = key old}
    {r' : ρ'} (hkey : key' r' = g (key r)) (hr' : ∀ x, view' r' = some x → kv x = key r) :
    (t.upsert r merge hmerge).contents view = (t'.set r').contents view' ↔
      view (((t.find? (key r)).map merge).getD r) = view' r' ∧
        Apart kv g (key r) (t.contents view) := by
  rw [contents_upsert hkv, contents_set hkg, ← h]
  exact put_eq_put_iff hg hkey (fun x hx => (hkv _ x hx).trans (key_merged hmerge)) hr'

omit [DecidableEq μ] in
/-- An insertion or update that leaves a record unlike all of the other table. -/
theorem upsert_ne (hkv : ∀ r x, view r = some x → kv x = key r) {P : V → Prop}
    (hP : ∀ x ∈ t'.contents view', P x) {merge : ρ → ρ}
    {hmerge : ∀ old, key (merge old) = key old} {x : V}
    (hx : view (((t.find? (key r)).map merge).getD r) = some x) (hnot : ¬ P x) :
    (t.upsert r merge hmerge).contents view ≠ t'.contents view' := by
  intro h
  exact hnot (hP x (h ▸ mem_contents_upsert hkv hx))

omit [DecidableEq μ] in
/-- An insertion or update changes nothing if it leaves the record that was there. -/
theorem upsert_eq_iff (h : t.contents view = t'.contents view')
    (hkv : ∀ r x, view r = some x → kv x = key r) {merge : ρ → ρ}
    {hmerge : ∀ old, key (merge old) = key old} :
    (t.upsert r merge hmerge).contents view = t'.contents view' ↔
      (t.find? (key r)).bind view = view (((t.find? (key r)).map merge).getD r) := by
  rw [contents_upsert hkv, ← h]
  exact put_contents_eq_self hkv fun x hx => (hkv _ x hx).trans (key_merged hmerge)

theorem delete_eq_delete_iff (h : t.contents view = t'.contents view')
    (hkv : ∀ r x, view r = some x → kv x = key r) (hkg : ∀ r x, view' r = some x → kg x = key' r)
    (hg : ∀ x, kg x = g (kv x)) {l : μ} (hl : l = g k) :
    (t.delete fun r => key r = k).contents view = (t'.delete fun r => key' r = l).contents view' ↔
      Apart kv g k (t.contents view) := by
  rw [contents_delete hkv, contents_delete hkg, ← h]
  refine (put_eq_put_iff hg hl ?_ ?_).trans (and_iff_right rfl)
  · exact fun x hx => absurd hx.symm (Option.some_ne_none x)
  · exact fun x hx => absurd hx.symm (Option.some_ne_none x)

omit [DecidableEq μ] in
theorem delete_eq_iff (h : t.contents view = t'.contents view')
    (hkv : ∀ r x, view r = some x → kv x = key r) :
    (t.delete fun r => key r = k).contents view = t'.contents view' ↔
      (t.find? k).bind view = none := by
  rw [contents_delete hkv, ← h]
  exact put_contents_eq_self hkv fun x hx => absurd hx.symm (Option.some_ne_none x)

omit [DecidableEq κ] [DecidableEq μ] in
/-- A deletion of any rows changes nothing if there are none. -/
theorem delete_rows_eq_iff {key' : ρ → μ} {t' : Table ρ μ key'}
    (h : t.contents some = t'.contents some) (p : ρ → Bool) :
    (t.delete p).contents some = t'.contents some ↔ ∀ r ∈ t.rows, p r = false := by
  rw [← h]
  apply Iff.intro
  · intro heq r hr
    have hmem : r ∈ (t.delete p).contents some := heq ▸ ⟨r, hr, rfl⟩
    obtain ⟨r', hr', hsame⟩ := hmem
    cases hsame
    exact (mem_delete.mp hr').2
  · intro hnone
    ext x
    apply Iff.intro
    · rintro ⟨r, hr, hx⟩
      exact ⟨r, (mem_delete.mp hr).1, hx⟩
    · rintro ⟨r, hr, hx⟩
      exact ⟨r, mem_delete.mpr ⟨hr, hnone r hr⟩, hx⟩

end Two

section Same

variable {ρ' : Type} {key' : ρ' → κ} {t' : Table ρ' κ key'} {view' : ρ' → Option V}

theorem modify_eq_modify_iff (h : t.contents view = t'.contents view')
    (hkv : ∀ r x, view r = some x → kv x = key r) (hkv' : ∀ r x, view' r = some x → kv x = key' r)
    {f' : ρ' → ρ'} {hf : ∀ r, key (f r) = key r} {hf' : ∀ r, key' (f' r) = key' r} :
    (t.modify k f hf).contents view = (t'.modify k f' hf').contents view' ↔
      ((t.find? k).map f).bind view = ((t'.find? k).map f').bind view' := by
  rw [contents_modify hkv, contents_modify hkv', ← h]
  apply put_eq_put_same
  · intro x hx
    apply key_of_bind hkv _ hx
    intro r hr
    obtain ⟨old, hold, rfl⟩ := Option.map_eq_some_iff.mp hr
    exact (hf old).trans (key_of_find? hold)
  · intro x hx
    apply key_of_bind hkv' _ hx
    intro r hr
    obtain ⟨old, hold, rfl⟩ := Option.map_eq_some_iff.mp hr
    exact (hf' old).trans (key_of_find? hold)

theorem modify_eq_iff (h : t.contents view = t'.contents view')
    (hkv : ∀ r x, view r = some x → kv x = key r) {hf : ∀ r, key (f r) = key r} :
    (t.modify k f hf).contents view = t'.contents view' ↔
      (t.find? k).bind view = ((t.find? k).map f).bind view := by
  rw [contents_modify hkv, ← h]
  apply put_contents_eq_self hkv
  intro x hx
  apply key_of_bind hkv _ hx
  intro r hr
  obtain ⟨old, hold, rfl⟩ := Option.map_eq_some_iff.mp hr
  exact (hf old).trans (key_of_find? hold)

/-- Tables with the same contents find the same. -/
theorem bind_find?_eq (h : t.contents view = t'.contents view')
    (hkv : ∀ r x, view r = some x → kv x = key r) (hkv' : ∀ r x, view' r = some x → kv x = key' r)
    (k : κ) : (t.find? k).bind view = (t'.find? k).bind view' := by
  ext x
  have hiff (hx : kv x = k) :
      (t.find? k).bind view = some x ↔ (t'.find? k).bind view' = some x := by
    rw [bind_find? hkv hx, bind_find? hkv' hx, h]
  apply Iff.intro
  · intro hx
    exact (hiff (key_of_bind hkv (fun r hr => key_of_find? hr) hx)).mp hx
  · intro hx
    exact (hiff (key_of_bind hkv' (fun r hr => key_of_find? hr) hx)).mpr hx

end Same

/-! ## A table written row by row -/

section Written

variable {δ ρ' μ : Type} {view' : ρ' → Option V} {k : ρ' → κ} {f : Table ρ κ key → δ}
  {write : δ → ρ' → Option δ} {Q : ρ' → Prop}

-- Writing a row whose key is free adds its record.
def Writes (view : ρ → Option V) (view' : ρ' → Option V) (k : ρ' → κ) (f : Table ρ κ key → δ)
    (write : δ → ρ' → Option δ) (Q : ρ' → Prop) : Prop :=
  ∀ t r, Q r → t.find? (k r) = none → ∀ d ∈ write (f t) r, ∃ t' row,
    d = f t' ∧ view row = view' r ∧ ∀ k', t'.find? k' = if k' = k r then some row else t.find? k'

theorem contents_written (hkv : ∀ r x, view r = some x → kv x = key r)
    (hwrite : Writes view view' k f write Q) (rows : List ρ') (t : Table ρ κ key)
    (hrows : ∀ r ∈ rows, Q r ∧ t.find? (k r) = none) (hnodup : (rows.map k).Nodup) :
    ∀ d ∈ rows.foldlM write (f t), ∃ t', d = f t' ∧
      t'.contents view = {x | x ∈ t.contents view ∨ ∃ r ∈ rows, view' r = some x} := by
  induction rows generalizing t with
  | nil =>
    intro d hd
    cases hd
    exact ⟨t, rfl, by simp⟩
  | cons r rows ih =>
    intro d hd
    rw [List.map_cons, List.nodup_cons] at hnodup
    rw [List.foldlM_cons] at hd
    obtain ⟨d', hd', hd⟩ := Option.bind_eq_some_iff.mp hd
    obtain ⟨hQ, hfree⟩ := hrows r (List.mem_cons_self ..)
    obtain ⟨t1, row, rfl, hrow, hfind⟩ := hwrite t r hQ hfree d' hd'
    have hrows' : ∀ r' ∈ rows, Q r' ∧ t1.find? (k r') = none := by
      intro r' hr'
      obtain ⟨hQ', hfree'⟩ := hrows r' (List.mem_cons_of_mem r hr')
      have hne : k r' ≠ k r := fun hsame => hnodup.1 (hsame ▸ List.mem_map_of_mem hr')
      refine ⟨hQ', ?_⟩
      rw [hfind, if_neg hne]
      exact hfree'
    obtain ⟨t', rfl, hcontents⟩ := ih t1 hrows' hnodup.2 d hd
    refine ⟨t', rfl, ?_⟩
    have hnone : ∀ x ∈ t.contents view, kv x ≠ k r := by
      intro x hx hsame
      rw [mem_contents hkv, hsame, hfree] at hx
      cases hx
    rw [hcontents, contents_of_find? (o := some row) hkv hfind, Option.bind_some, hrow]
    ext x
    simp only [put, Set.mem_ofPred_eq, List.mem_cons, exists_eq_or_imp]
    rw [and_iff_left_of_imp (hnone x), or_assoc]

omit [DecidableEq κ] in
theorem nodup_of_coarser {key' : ρ' → μ} {g : κ → μ} (hg : ∀ r, key' r = g (k r))
    (t' : Table ρ' μ key') : (t'.rows.map k).Nodup := by
  apply List.Nodup.of_map g
  rw [List.map_map]
  have hkeys : g ∘ k = key' := funext fun r => (hg r).symm
  rw [hkeys]
  exact t'.nodup

/-- What a table becomes if the rows of another are written into it when it is empty. -/
theorem contents_of_rows {key' : ρ' → μ} {g : κ → μ} {t' : Table ρ' μ key'}
    (hkv : ∀ r x, view r = some x → kv x = key r) (hwrite : Writes view view' k f write Q)
    (hg : ∀ r, key' r = g (k r)) (hQ : All Q t') :
    ∀ d ∈ t'.rows.foldlM write (f empty), ∃ t1, d = f t1 ∧
      t1.contents view = t'.contents view' := by
  intro d hd
  obtain ⟨t1, rfl, hcontents⟩ := contents_written hkv hwrite t'.rows empty
    (fun r hr => ⟨hQ r hr, find?_empty⟩) (nodup_of_coarser hg t') d hd
  refine ⟨t1, rfl, ?_⟩
  rw [hcontents, contents_empty]
  ext x
  simp [contents]

theorem foldlM_isSome {write : δ → ρ' → Option δ} {rows : List ρ'}
    (h : ∀ d, ∀ r ∈ rows, (write d r).isSome) (d : δ) : (rows.foldlM write d).isSome := by
  induction rows generalizing d with
  | nil => rfl
  | cons r rows ih =>
    obtain ⟨d', hd'⟩ := Option.isSome_iff_exists.mp (h d r (List.mem_cons_self ..))
    rw [List.foldlM_cons, hd']
    exact ih (fun d r' hr' => h d r' (List.mem_cons_of_mem r hr')) d'

theorem contents_of_rows_foldl {key' : ρ' → μ} {g : κ → μ} {t' : Table ρ' μ key'}
    {write : δ → ρ' → δ} (hkv : ∀ r x, view r = some x → kv x = key r)
    (hwrite : Writes view view' k f (fun d r => some (write d r)) Q)
    (hg : ∀ r, key' r = g (k r)) (hQ : All Q t') :
    ∃ t1, t'.rows.foldl write (f empty) = f t1 ∧ t1.contents view = t'.contents view' :=
  contents_of_rows hkv hwrite hg hQ _ List.foldlM_pure

end Written

end Table

end Lib.Tables
