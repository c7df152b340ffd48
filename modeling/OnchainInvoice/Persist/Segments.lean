import OnchainInvoice.Lib.Digits
import OnchainInvoice.Persist.Lines

/-!
# The segments of the persist log

Segments get consecutive numbers, and up to six digits their names sort as the numbers do, so they
are read in the order in which they were sealed.
-/

namespace OnchainInvoice.Persist

open Lib.Json

variable {Z : Type} (zlib : Zlib Z)

def MAX_SEGMENTS : Nat := 999999

/-! ## Names -/

theorem numeral_toDigits (n : Nat) : Lib.Digits.IsNumeral (Nat.toDigits 10 n) := fun c hc =>
  Nat.isDigit_of_mem_toDigits (by decide) (by decide) hc

theorem numeral_padStart (n : Nat) : Lib.Digits.IsNumeral (padStart 6 (Nat.toDigits 10 n)) := by
  intro c hc
  rcases List.mem_append.mp hc with hc | hc
  · rw [List.eq_of_mem_replicate hc]
    decide
  · exact numeral_toDigits n c hc

theorem ofDigitChars_padStart (n : Nat) :
    Nat.ofDigitChars 10 (padStart 6 (Nat.toDigits 10 n)) 0 = n := by
  rw [padStart, Nat.ofDigitChars_append, Nat.ofDigitChars_replicate_zero, Nat.mul_zero,
    Nat.ofDigitChars_ten_toDigits]

theorem length_padStart {n : Nat} (h : n ≤ MAX_SEGMENTS) :
    (padStart 6 (Nat.toDigits 10 n)).length = 6 := by
  have hdigits : (Nat.toDigits 10 n).length ≤ 6 := by
    rw [Nat.length_toDigits_le_iff (by decide) (by decide)]
    unfold MAX_SEGMENTS at h
    omega
  rw [padStart, List.length_append, List.length_replicate]
  omega

theorem segmentNumber_segmentName (n : Nat) : segmentNumber (segmentName n) = some n := by
  have hne : padStart 6 (Nat.toDigits 10 n) ≠ [] := by
    simp [padStart, Nat.toDigits_ne_nil]
  have hdigits : ((segmentName n).drop SEG.length).take
      ((segmentName n).length - (SEG.length + NDJSON_GZ.length)) =
        padStart 6 (Nat.toDigits 10 n) := by
    have hlength : (segmentName n).length - (SEG.length + NDJSON_GZ.length) =
        (padStart 6 (Nat.toDigits 10 n)).length := by
      rw [segmentName, List.length_append, List.length_append]
      omega
    rw [hlength, segmentName, List.drop_left, List.take_left]
  have hall : (padStart 6 (Nat.toDigits 10 n)).all Char.isDigit = true :=
    List.all_eq_true.mpr (numeral_padStart n)
  unfold segmentNumber
  dsimp only
  rw [hdigits, ofDigitChars_padStart, if_pos ⟨rfl, hne, hall⟩]

theorem segmentName_lt {i j : Nat} (hij : i < j) (hj : j ≤ MAX_SEGMENTS) :
    segmentName i < segmentName j := by
  have hlength : (padStart 6 (Nat.toDigits 10 i)).length =
      (padStart 6 (Nat.toDigits 10 j)).length := by
    rw [length_padStart (by omega), length_padStart hj]
  have hlt := Lib.Digits.append_lt_append (numeral_padStart i) (numeral_padStart j) hlength
    (n := 0) (by rwa [ofDigitChars_padStart, ofDigitChars_padStart]) NDJSON_GZ NDJSON_GZ
  simpa [segmentName, SEG, List.cons_lt_cons_iff] using hlt

/-! ## Files -/

-- The segment files of the batches that were sealed.
def segmentsOf (batches : List (List Value)) : List (Text × Z) :=
  batches.mapIdx fun i events => (segmentName (i + 1), zlib.gzipSync (lines events))

theorem segmentsOf_concat (batches : List (List Value)) (events : List Value) :
    segmentsOf zlib (batches ++ [events]) =
      segmentsOf zlib batches ++
        [(segmentName (batches.length + 1), zlib.gzipSync (lines events))] := by
  simp [segmentsOf]

variable {zlib} {batches : List (List Value)}

theorem name_of_mem_segmentsOf {f : Text × Z} (h : f ∈ segmentsOf zlib batches) :
    ∃ i, i < batches.length ∧ f.1 = segmentName (i + 1) := by
  rw [segmentsOf, List.mem_mapIdx] at h
  obtain ⟨i, hi, rfl⟩ := h
  exact ⟨i, hi, rfl⟩

theorem contents_segmentsOf : (segmentsOf zlib batches).map Prod.snd =
    batches.map fun events => zlib.gzipSync (lines events) := by
  induction batches using List.reverseRecOn with
  | nil => rfl
  | append_singleton batches events ih =>
    rw [segmentsOf_concat, List.map_append, ih, List.map_append]
    rfl

theorem maxSegment_segmentsOf {d : StreamDir Z} (h : d.segments = segmentsOf zlib batches) :
    maxSegment d = batches.length := by
  rw [maxSegment, h]
  clear h
  induction batches using List.reverseRecOn with
  | nil => rfl
  | append_singleton batches events ih =>
    rw [segmentsOf_concat, List.filterMap_append, List.foldl_append, ih, List.length_append]
    simp [segmentNumber_segmentName]

theorem writeFile_next (content : Z) :
    writeFile (segmentName (batches.length + 1)) content (segmentsOf zlib batches) =
      segmentsOf zlib batches ++ [(segmentName (batches.length + 1), content)] := by
  apply if_neg
  rw [List.any_eq_true]
  rintro ⟨f, hf, hname⟩
  obtain ⟨i, hi, hfi⟩ := name_of_mem_segmentsOf hf
  have hnumber := congrArg segmentNumber (hfi.symm.trans (of_decide_eq_true hname))
  rw [segmentNumber_segmentName, segmentNumber_segmentName] at hnumber
  have heq := Option.some.inj hnumber
  omega

theorem segmentFiles_eq {d : StreamDir Z} (h : d.segments = segmentsOf zlib batches)
    (hmax : batches.length ≤ MAX_SEGMENTS) : segmentFiles d = segmentsOf zlib batches := by
  have hall : (segmentsOf zlib batches).filter
      (fun f => SEG.isPrefixOf f.1 && NDJSON_GZ.isSuffixOf f.1) = segmentsOf zlib batches := by
    rw [List.filter_eq_self]
    intro f hf
    obtain ⟨i, -, hname⟩ := name_of_mem_segmentsOf hf
    rw [hname, segmentName, Bool.and_eq_true, List.isPrefixOf_iff_prefix,
      List.isSuffixOf_iff_suffix, ← List.append_assoc]
    exact ⟨⟨_, (List.append_assoc ..).symm⟩, List.suffix_append ..⟩
  rw [segmentFiles, h, hall]
  apply List.Pairwise.insertionSort_eq
  rw [List.pairwise_iff_getElem]
  intro i j hi hj hij
  simp only [segmentsOf, List.length_mapIdx] at hi hj
  simp only [segmentsOf, List.getElem_mapIdx]
  exact List.le_of_lt (segmentName_lt (by omega) (by omega))

theorem yieldSegments_eq {files : List (Text × Z)}
    (hfiles : files.map Prod.snd = batches.map fun events => zlib.gzipSync (lines events))
    (h : ∀ v ∈ batches.flatten, IsObject v) :
    yieldSegments zlib files = ⟨batches.flatten, false⟩ := by
  induction batches generalizing files with
  | nil =>
    rw [List.map_nil, List.map_eq_nil_iff] at hfiles
    rw [hfiles]
    rfl
  | cons events batches ih =>
    cases files with
    | nil => cases hfiles
    | cons f files =>
      rw [List.map_cons, List.map_cons, List.cons.injEq] at hfiles
      have hevents : ∀ v ∈ events, IsObject v := fun v hv => h v (by simp [hv])
      have htext := yieldText_lines hevents (List.not_mem_nil : '\n' ∉ ([] : Text))
      have hrest := ih hfiles.2 fun v hv => h v (by
        rw [List.flatten_cons]
        exact List.mem_append_right _ hv)
      rw [List.append_nil] at htext
      simp [yieldSegments, hfiles.1, zlib.gunzip_gzip, htext, hrest, Iteration.andThen, yieldLines,
        trim]

end OnchainInvoice.Persist
