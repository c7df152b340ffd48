import OnchainInvoice.Persist.Segments

/-!
# What the persist log keeps

Every event whose `appendSync` returned is read back, in order, from the segments and the active
file, as long as no append goes on with a line that a crash left unfinished, no crash comes between
the rotation of the active file and the end of the segment that is written from it, and the segment
numbers keep to six digits.
-/

namespace OnchainInvoice.Persist

open Lib.Json

variable {Z : Type} (zlib : Zlib Z)

/-! ## The promise -/

-- The event of an action, and whether its `appendSync` returned.
def Action.outcome : Action Z → Value × Bool
  | .append evt _ => (evt.json, true)
  | .crash evt _ _ _ => (evt.json, false)

-- The events in order, of which only those that were in progress at a crash may be missing.
inductive Delivers : List (Value × Bool) → List Value → Prop
  | nil : Delivers [] []
  | yielded (v : Value) (returned : Bool) {history : List (Value × Bool)} {events : List Value} :
    Delivers history events → Delivers ((v, returned) :: history) (v :: events)
  | lost (v : Value) {history : List (Value × Bool)} {events : List Value} :
    Delivers history events → Delivers ((v, false) :: history) events

def Durable (actions : List (Action Z)) : Prop :=
  (iterPersistEvents zlib (after zlib actions)).thrown = false ∧
    Delivers (actions.map Action.outcome) (iterPersistEvents zlib (after zlib actions)).events

/-! ## The condition -/

def Action.writes : Action Z → Bool
  | .append _ _ => true
  | .crash _ _ done rest =>
    match done, rest with
    | 0, .torn n _ => n ≠ 0
    | 0, _ => false
    | _ + 1, _ => true

structure Undamaged (d : StreamDir Z) (a : Action Z) : Prop where
  lineEnded : a.writes = true → ∀ wal, d.wal = some wal → wal = [] ∨ wal.getLast? = some '\n'
  segmentWritten : ∀ name content, a.stopped zlib d ≠ some (.writeSegment name content)
  numbered : ∀ name content, .writeSegment name content ∈ a.made zlib d →
    maxSegment d < MAX_SEGMENTS

/-! ## Delivery -/

variable {history : List (Value × Bool)} {events : List Value}

theorem Delivers.concat (h : Delivers history events) (v : Value) (returned : Bool) :
    Delivers (history ++ [(v, returned)]) (events ++ [v]) := by
  induction h with
  | nil => exact .yielded v returned .nil
  | yielded w b _ ih => exact .yielded w b ih
  | lost w _ ih => exact .lost w ih

theorem Delivers.concat_lost (h : Delivers history events) (v : Value) :
    Delivers (history ++ [(v, false)]) events := by
  induction h with
  | nil => exact .lost v .nil
  | yielded w b _ ih => exact .yielded w b ih
  | lost w _ ih => exact .lost w ih

/-! ## What every step keeps -/

/-- The events of the history are those of the sealed batches, then those on the finished lines of
the active file, then what is read of its end. -/
structure Kept (zlib : Zlib Z) (d : StreamDir Z) (history : List (Value × Bool))
    (batches : List (List Value)) (active late : List Value) (tail : Text) : Prop where
  objects : ∀ v ∈ batches.flatten ++ active, IsObject v
  bounded : batches.length ≤ MAX_SEGMENTS
  segments : d.segments = segmentsOf zlib batches
  wal : d.wal.getD [] = lines active ++ tail
  ending : Tail tail late
  delivers : Delivers history (batches.flatten ++ active ++ late)

variable {zlib} {batches : List (List Value)} {d : StreamDir Z} {active late : List Value} {tail : Text}

theorem Kept.durable (h : Kept zlib d history batches active late tail) :
    (iterPersistEvents zlib d).thrown = false ∧
      Delivers history (iterPersistEvents zlib d).events := by
  have hsegments : yieldSegments zlib (segmentFiles d) = ⟨batches.flatten, false⟩ := by
    rw [segmentFiles_eq h.segments h.bounded]
    apply yieldSegments_eq
    · exact contents_segmentsOf
    · exact fun v hv => h.objects v (List.mem_append_left _ hv)
  have hwal : yieldWal d = ⟨active ++ late, false⟩ := by
    have htext := yieldText_lines (fun v hv => h.objects v (List.mem_append_right _ hv))
      h.ending.oneLine
    rw [← h.wal, h.ending.events] at htext
    unfold yieldWal
    cases hd : d.wal with
    | none =>
      rw [hd] at htext
      exact congrArg Iteration.caught htext
    | some wal =>
      rw [hd] at htext
      exact congrArg Iteration.caught htext
  have hdelivers := h.delivers
  rw [List.append_assoc] at hdelivers
  rw [iterPersistEvents, hsegments, hwal]
  exact ⟨rfl, hdelivers⟩

-- An append that writes finds the active file at the start of a line.
theorem Kept.tail_eq_nil (h : Kept zlib d history batches active late tail)
    (hended : ∀ wal, d.wal = some wal → wal = [] ∨ wal.getLast? = some '\n') : tail = [] := by
  have hlast : lines active ++ tail = [] ∨ (lines active ++ tail).getLast? = some '\n' := by
    rw [← h.wal]
    cases hd : d.wal with
    | none => exact .inl rfl
    | some wal => exact hended wal hd
  rcases hlast with hnil | hlast
  · exact (List.append_eq_nil_iff.mp hnil).2
  · rcases List.eq_nil_or_concat tail with hnil | ⟨t, c, rfl⟩
    · exact hnil
    · rw [List.concat_eq_append, ← List.append_assoc, List.getLast?_concat] at hlast
      have hc : '\n' ∈ t.concat c := by
        rw [← Option.some.inj hlast, List.concat_eq_append]
        simp
      exact absurd hc h.ending.oneLine

theorem Kept.append (h : Kept zlib d history batches active [] []) (evt : PersistLogEvent)
    (returned : Bool) : Kept zlib ((FileOp.append (line evt)).apply d)
      (history ++ [(evt.json, returned)]) batches (active ++ [evt.json]) [] [] where
  objects := by
    intro v hv
    rw [← List.append_assoc, List.mem_append, List.mem_singleton] at hv
    rcases hv with hv | rfl
    · exact h.objects v hv
    · exact ⟨evt.members, rfl⟩
  bounded := h.bounded
  segments := h.segments
  wal := by
    have hwal := h.wal
    rw [List.append_nil] at hwal
    rw [List.append_nil, lines_concat, ← hwal]
    rfl
  ending := Tail.nil
  delivers := by
    have hdelivers := h.delivers.concat evt.json returned
    simpa using hdelivers

theorem Kept.torn (h : Kept zlib d history batches active [] []) (evt : PersistLogEvent) {n : Nat}
    (hn : n < (line evt).length) (split : Bool) :
    ∃ late tail, Kept zlib (interrupt (.torn n split) (.append (line evt)) d)
      (history ++ [(evt.json, false)]) batches active late tail := by
  obtain ⟨late, hlate, hending⟩ := Tail.of_torn evt hn split
  refine ⟨late, _, h.objects, h.bounded, ?_, ?_, hending, ?_⟩
  · rw [← h.segments]
    simp [interrupt, hn]
  · have hwal := h.wal
    rw [List.append_nil] at hwal
    simp [interrupt, hn, hwal]
  · have hdelivers := h.delivers
    rw [List.append_nil] at hdelivers
    rcases hlate with rfl | rfl
    · rw [List.append_nil]
      exact hdelivers.concat_lost evt.json
    · exact hdelivers.concat evt.json false

-- Only the rotation and the segment that is written from it change what is read.
theorem Kept.sealed (h : Kept zlib d history batches active [] []) {wal : Text}
    (hwal : d.wal = some wal) (hmax : maxSegment d < MAX_SEGMENTS) :
    Kept zlib (applyAll [.rename,
      .writeSegment (segmentName (maxSegment d + 1)) (zlib.gzipSync wal)] d) history
      (batches ++ [active]) [] [] [] where
  objects := by
    intro v hv
    apply h.objects
    simpa using hv
  bounded := by
    rw [maxSegment_segmentsOf h.segments] at hmax
    rw [List.length_append, List.length_singleton]
    omega
  segments := by
    have htext : wal = lines active := by
      have hd := h.wal
      rwa [hwal, List.append_nil] at hd
    show writeFile _ _ d.segments = _
    rw [maxSegment_segmentsOf h.segments, h.segments, writeFile_next, segmentsOf_concat, htext]
  wal := rfl
  ending := Tail.nil
  delivers := by
    have hdelivers := h.delivers
    simpa using hdelivers

-- The files other than the segments matter only through what the active file holds.
theorem Kept.of_wal (h : Kept zlib d history batches active late tail) {d' : StreamDir Z}
    (hsegments : d'.segments = d.segments) (hwal : d'.wal.getD [] = d.wal.getD []) :
    Kept zlib d' history batches active late tail where
  objects := h.objects
  bounded := h.bounded
  segments := hsegments.trans h.segments
  wal := hwal.trans h.wal
  ending := h.ending
  delivers := h.delivers

theorem maybeSealSync_cases (zlib : Zlib Z) (ageMs : Int) (d : StreamDir Z) :
    maybeSealSync zlib ageMs d = [] ∨ ∃ wal, d.wal = some wal ∧ maybeSealSync zlib ageMs d =
      [.rename, .writeSegment (segmentName (maxSegment d + 1)) (zlib.gzipSync wal), .unlink,
        .createWal] := by
  unfold maybeSealSync sealSync
  cases hd : d.wal with
  | none => exact .inl rfl
  | some wal =>
    dsimp only
    split
    · exact .inl rfl
    · split
      · exact .inl rfl
      · exact .inr ⟨wal, rfl, rfl⟩

/-- A seal that is stopped anywhere but between its rotation and the end of its segment. -/
theorem Kept.sealing (h : Kept zlib d history batches active [] []) (k : Nat) {ageMs : Int}
    (hwritten : ∀ name content, (maybeSealSync zlib ageMs d)[k]? ≠ some (.writeSegment name content))
    (hnumbered : ∀ name content, .writeSegment name content ∈ (maybeSealSync zlib ageMs d).take k →
      maxSegment d < MAX_SEGMENTS) :
    ∃ batches active, Kept zlib (applyAll ((maybeSealSync zlib ageMs d).take k) d) history batches
      active [] [] := by
  rcases maybeSealSync_cases zlib ageMs d with hnone | ⟨wal, hwal, hops⟩
  · rw [hnone, List.take_nil]
    exact ⟨batches, active, h⟩
  rw [hops] at hwritten hnumbered ⊢
  rcases k with - | - | k
  · exact ⟨batches, active, h⟩
  · exact absurd rfl (hwritten _ _)
  · have hsealed := h.sealed hwal
      (hnumbered _ _ (List.mem_cons_of_mem _ (List.mem_cons_self ..)))
    rcases k with - | - | k
    · exact ⟨_, _, hsealed⟩
    · exact ⟨_, _, hsealed.of_wal rfl rfl⟩
    · rw [List.take_of_length_le (by simp)]
      exact ⟨_, _, hsealed.of_wal rfl rfl⟩

-- What a crash leaves of an operation of a seal other than the write of the segment.
theorem interrupt_seal {ageMs : Int} {op : FileOp Z} (hop : op ∈ maybeSealSync zlib ageMs d)
    (hwritten : ∀ name content, op ≠ .writeSegment name content) (rest : Rest Z)
    (d' : StreamDir Z) : interrupt rest op d' = d' := by
  rcases maybeSealSync_cases zlib ageMs d with hnone | ⟨wal, -, hops⟩
  · rw [hnone] at hop
    cases hop
  · rw [hops] at hop
    simp only [List.mem_cons, List.not_mem_nil, or_false] at hop
    rcases hop with rfl | rfl | rfl | rfl
    · rfl
    · exact absurd rfl (hwritten _ _)
    · rfl
    · rfl

theorem head_line (evt : PersistLogEvent) : (line evt)[0]? = some '{' := by
  obtain ⟨t, htext⟩ := exists_ends_of_object evt.members
  rw [line, PersistLogEvent.json, htext]
  rfl

-- A crash before the line is written in full.
theorem Kept.interrupted (h : Kept zlib d history batches active late tail) {evt : PersistLogEvent}
    {ageMs : Int} {rest : Rest Z} (ha : Undamaged zlib d (.crash evt ageMs 0 rest)) :
    ∃ late tail, Kept zlib (interrupt rest (.append (line evt)) d) (history ++ [(evt.json, false)])
      batches active late tail := by
  have hlost : Kept zlib d (history ++ [(evt.json, false)]) batches active late tail :=
    { h with delivers := h.delivers.concat_lost evt.json }
  cases rest with
  | nothing => exact ⟨late, tail, hlost⟩
  | contents content => exact ⟨late, tail, hlost⟩
  | torn n split =>
    by_cases hn : n < (line evt).length
    · cases n with
      | zero =>
        have hcut : (split && (line evt)[0]?.any fun c => 0x80 ≤ c.toNat) = false := by
          rw [head_line]
          cases split <;> rfl
        refine ⟨late, tail, hlost.of_wal ?_ ?_⟩
        · simp [interrupt, hn]
        · simp only [interrupt, hcut, if_pos hn]
          simp
      | succ n =>
        have htail := h.tail_eq_nil (ha.lineEnded rfl)
        subst htail
        have hlate := h.ending.of_nil
        subst hlate
        exact h.torn evt hn split
    · refine ⟨late, tail, ?_⟩
      simpa [interrupt, hn] using hlost

/-- What is kept after a step that damages nothing. -/
theorem Kept.step (h : Kept zlib d history batches active late tail) {a : Action Z}
    (ha : Undamaged zlib d a) : ∃ batches active late tail,
      Kept zlib (a.perform zlib d) (history ++ [a.outcome]) batches active late tail := by
  cases a with
  | append evt ageMs =>
    have htail := h.tail_eq_nil (ha.lineEnded rfl)
    subst htail
    have hlate := h.ending.of_nil
    subst hlate
    let d₁ := (FileOp.append (line evt)).apply d
    let ops := maybeSealSync zlib ageMs d₁
    have hpast : ∀ name content, ops[ops.length]? ≠ some (.writeSegment name content) := by
      intro name content
      rw [List.getElem?_eq_none (Nat.le_refl _)]
      exact (Option.some_ne_none _).symm
    have hnumbered : ∀ name content, .writeSegment name content ∈ ops.take ops.length →
        maxSegment d₁ < MAX_SEGMENTS := by
      intro name content hmem
      rw [List.take_length] at hmem
      exact ha.numbered name content (List.mem_cons_of_mem _ hmem)
    obtain ⟨batches', active', hkept⟩ :=
      (h.append evt true).sealing ops.length hpast hnumbered
    rw [List.take_length] at hkept
    exact ⟨batches', active', [], [], hkept⟩
  | crash evt ageMs done rest =>
    cases done with
    | zero =>
      obtain ⟨late', tail', hkept⟩ := h.interrupted ha
      exact ⟨batches, active, late', tail', hkept⟩
    | succ k =>
      have htail := h.tail_eq_nil (ha.lineEnded rfl)
      subst htail
      have hlate := h.ending.of_nil
      subst hlate
      let d₁ := (FileOp.append (line evt)).apply d
      have hnumbered : ∀ name content,
          .writeSegment name content ∈ (maybeSealSync zlib ageMs d₁).take k →
          maxSegment d₁ < MAX_SEGMENTS := fun name content hmem =>
        ha.numbered name content (List.mem_cons_of_mem _ hmem)
      obtain ⟨batches', active', hkept⟩ :=
        (h.append evt false).sealing k ha.segmentWritten hnumbered
      refine ⟨batches', active', [], [], ?_⟩
      have hperform : Action.perform zlib d (.crash evt ageMs (k + 1) rest) =
          applyAll ((maybeSealSync zlib ageMs d₁).take k) d₁ := by
        have hstopped : Action.stopped zlib d (.crash evt ageMs (k + 1) rest) =
          (maybeSealSync zlib ageMs d₁)[k]? := rfl
        rw [Action.perform, hstopped]
        cases hstop : (maybeSealSync zlib ageMs d₁)[k]? with
        | none => rfl
        | some op =>
          apply interrupt_seal (List.mem_of_getElem? hstop)
          rintro name content rfl
          exact ha.segmentWritten name content hstop
      rw [hperform]
      exact hkept

variable (zlib)

theorem after_concat (actions : List (Action Z)) (a : Action Z) :
    after zlib (actions ++ [a]) = a.perform zlib (after zlib actions) := by
  simp [after]

/-- The log keeps its promise in every run in which no step damages it. -/
theorem durable_of_undamaged (actions : List (Action Z))
    (h : ∀ pre a post, actions = pre ++ a :: post → Undamaged zlib (after zlib pre) a) :
    Durable zlib actions := by
  have hkept : ∃ batches active late tail, Kept zlib (after zlib actions)
      (actions.map Action.outcome) batches active late tail := by
    induction actions using List.reverseRecOn with
    | nil => exact ⟨[], [], [], [], by simp, by decide, rfl, rfl, Tail.nil, .nil⟩
    | append_singleton actions a ih =>
      obtain ⟨batches, active, late, tail, hkept⟩ := ih fun pre b post hsplit =>
        h pre b (post ++ [a]) (by rw [hsplit]; simp)
      rw [after_concat, List.map_append]
      exact hkept.step (h actions a [] rfl)
  obtain ⟨batches, active, late, tail, hkept⟩ := hkept
  exact hkept.durable

/-! ## A concrete log -/

-- Compression that leaves the text as it is.
def stored : Zlib Text := ⟨id, some, fun _ => rfl⟩

def ping : PersistLogEvent := ⟨['0'], ['w'], ['p'], ['1'], []⟩

-- An event is sealed, the next is torn after five characters.
def tornAfterSeal : List (Action Text) :=
  [.append ping 60000, .crash ping 0 0 (.torn 5 false)]

theorem durable_tornAfterSeal : Durable stored tornAfterSeal := by
  apply durable_of_undamaged
  intro pre a post hsplit
  rcases pre with - | ⟨b, - | ⟨c, pre⟩⟩
  · cases hsplit
    refine ⟨fun _ wal hwal => ?_, fun name content h => ?_, fun name content _ => by decide⟩
    · cases hwal
    · cases h
  · cases hsplit
    refine ⟨fun _ wal hwal => ?_, fun name content h => ?_, fun name content h => ?_⟩
    · have hempty : (after stored [.append ping 60000]).wal = some [] := by decide +kernel
      rw [hempty] at hwal
      cases hwal
      exact .inl rfl
    · cases h
    · cases h
  · simp [tornAfterSeal] at hsplit

/-- An event that is appended behind a torn line is lost. -/
theorem not_durable_behind_torn_line :
    ¬ Durable stored [.crash ping 0 0 (.torn 1 false), .append ping 0] := by
  rintro ⟨-, hdelivers⟩
  have hnothing : (iterPersistEvents stored
      (after stored [.crash ping 0 0 (.torn 1 false), .append ping 0])).events.length = 0 := by
    decide +kernel
  rw [List.eq_nil_of_length_eq_zero hnothing] at hdelivers
  cases hdelivers with
  | lost _ hrest => cases hrest

end OnchainInvoice.Persist
