import Mathlib.Tactic.Linarith
import OnchainInvoice.Server.Authentication

/-!
# Replay and forgery

Runs of signed requests at the three surfaces.  The nonce tables make each surface a gate; a run
accepts what the gates accept.  The nonce is consumed before the signature is checked, so what keeps
forged requests from spending the nonces of authentic ones is only that they do not know them.
-/

namespace OnchainInvoice.SignedRequests

open Lib.Nonces Function
open Server (lowerCase)

variable {env : Env} {s s' : State} {d : Delivery} {ds : List Delivery}
  {a : Attempt Surface (String × Line)}

/-! ## Runs -/

def verdicts (env : Env) : State → List Delivery → List (Delivery × Bool)
  | _, [] => []
  | s, d :: ds => (d, (deliver env s d).1.isOk) :: verdicts env (deliver env s d).2 ds

-- The pairs that a run accepts, each with its surface.
def acceptedPairs (env : Env) (s : State) (ds : List Delivery) :
    List (Surface × String × Line) :=
  ((verdicts env s ds).filter (·.2)).filterMap fun v =>
    (pairOf env v.1).map fun pair => (v.1.surface, pair)

-- One clock for the whole run; the server takes requests one at a time.
def OneClock (ds : List Delivery) : Prop := ds.Pairwise fun d e => d.reads.touch ≤ e.reads.skew

-- What the deliveries of a run do to the nonces.
def attempts (env : Env) (s : State) (ds : List Delivery) : List (Attempt Surface (String × Line)) :=
  ds.filterMap (attempt env s)

theorem attempts_cons (env : Env) (s : State) (d : Delivery) (ds : List Delivery) :
    attempts env s (d :: ds) = (attempt env s d).toList ++ attempts env s ds := by
  unfold attempts
  rw [List.filterMap_cons]
  cases attempt env s d <;> rfl

theorem attempts_congr (henabled : s'.enabled = s.enabled)
    (hsecret : s'.hmacSecret = s.hmacSecret) : attempts env s' ds = attempts env s ds := by
  simp only [attempts, attempt_congr henabled hsecret]

theorem attempts_deliver : attempts env (deliver env s d).2 ds = attempts env s ds := by
  cases h : attempt env s d with
  | none => rw [(deliver_of_not_admitted h).2]
  | some a =>
    have ⟨_, _, henabled, hsecret⟩ := deliver_of_attempt h
    exact attempts_congr henabled hsecret

theorem clocked_attempts (h : OneClock ds) : Clocked (attempts env s ds) := by
  apply List.Pairwise.filterMap _ _ h
  intro d e hde a ha b hb
  have ⟨_, _, hnow, _, _⟩ := attempt_eq_some ha
  have ⟨_, _, hnow', _, _⟩ := attempt_eq_some hb
  have := d.reads.ordered
  have := e.reads.ordered
  omega

/-- A run accepts what the run of its attempts accepts. -/
theorem acceptedPairs_eq (env : Env) (s : State) (ds : List Delivery) :
    acceptedPairs env s ds = accepted NONCE_TTL_MS s.nonces (attempts env s ds) := by
  induction ds generalizing s with
  | nil => rfl
  | cons d ds ih =>
    have htail := ih (deliver env s d).2
    rw [attempts_deliver] at htail
    unfold acceptedPairs at htail ⊢
    rw [verdicts, List.filter_cons, attempts_cons]
    cases h : attempt env s d with
    | none =>
      have ⟨hrejected, hstate⟩ := deliver_of_not_admitted h
      rw [hstate] at htail
      rw [hrejected, if_neg Bool.false_ne_true, hstate]
      exact htail
    | some a =>
      have ⟨haccepts, hnonces, _, _⟩ := deliver_of_attempt h
      have ⟨hgate, hpair, _, _, _⟩ := attempt_eq_some h
      rw [hnonces] at htail
      rw [haccepts, Option.toList_some, List.singleton_append, accepted_cons]
      split
      · rw [List.filterMap_cons, hpair, htail, ← hgate]
        rfl
      · exact htail

/-! ## Replay -/

-- The nonce table is read before the window of the timestamp ends.
def Timely (env : Env) (d : Delivery) : Prop :=
  ∀ ts, timestampOf env d = some ts → (d.reads.nonce : ℚ) ≤ ts + SKEW_MS

-- No party has signed two requests with one nonce and different timestamps.
def NoncesUnique (env : Env) (s : State) (ds : List Delivery) : Prop :=
  ∀ d ∈ ds, ∀ e ∈ ds, authentic env s d = true → authentic env s e = true →
    d.surface = e.surface → pairOf env d = pairOf env e → timestampOf env d = timestampOf env e

/-- The time to live is exactly the width of the window, so a row outlives the requests that need it
as long as the clock does not pass the end of the window between the two reads. -/
theorem nodup_acceptedPairs (hclock : OneClock ds) (hunique : NoncesUnique env s ds)
    (htimely : ∀ d ∈ ds, authentic env s d = true → Timely env d) :
    (acceptedPairs env s ds).Nodup := by
  rw [acceptedPairs_eq]
  apply nodup_accepted (clocked_attempts hclock)
  apply List.pairwise_filterMap.mpr
  apply hclock.imp_of_mem
  intro d e hd he _ a ha b hb hgenuine hgenuine' hid
  have ⟨hgate, hpair, hnow, hauthentic, ts, hts, hskew⟩ := attempt_eq_some ha
  have ⟨hgate', hpair', hnow', hauthentic', _⟩ := attempt_eq_some hb
  rw [hauthentic] at hgenuine
  rw [hauthentic'] at hgenuine'
  have hsurface : d.surface = e.surface := by
    rw [← hgate, ← hgate']
    exact congrArg Prod.fst hid
  have hsame : pairOf env d = pairOf env e := by
    rw [hpair, hpair']
    exact congrArg (fun i => some i.2) hid
  have hts' : timestampOf env e = some ts := by
    rw [← hts]
    exact (hunique d hd e he hgenuine hgenuine' hsurface hsame).symm
  have hend : (e.reads.nonce : ℚ) ≤ ts + SKEW_MS := htimely e he hgenuine' ts hts'
  have hstart : ts - SKEW_MS ≤ (d.reads.skew : ℚ) := by linarith [(abs_le.mp hskew).1]
  have hle : (e.reads.nonce : ℚ) ≤ d.reads.skew + 2 * SKEW_MS := by linarith
  have hint : e.reads.nonce ≤ d.reads.skew + 2 * SKEW_MS := by exact_mod_cast hle
  have := d.reads.ordered
  rw [hnow, hnow']
  unfold NONCE_TTL_MS
  unfold SKEW_MS at hint
  omega

def toyDelivery (signature : Line) (now : Reads) : Delivery :=
  ⟨.sweeper, toyRequest signature "", now⟩

theorem timestampOf_toy (now : Reads) : timestampOf .toy (toyDelivery toySigned now) = some 1000000 :=
  rfl

theorem attempt_toy {signature : Line} {now : Reads}
    (hidentify : identify .toy (toyRequest signature "") .sweeper =
      .ok ("0xAa", toyPresented signature))
    (hskew : |(now.skew : ℚ) - 1000000| ≤ SKEW_MS) :
    attempt .toy .toy (toyDelivery signature now) =
      some ⟨.sweeper, ("0xaa", Line.of "n"), now.nonce, decide (signature = toySigned)⟩ := by
  have hkey : lowerCase "0xAa" = "0xaa" := by decide
  have hverify : (verify .toy .toy (toyRequest signature "") "0xAa" (toyPresented signature)
      .sweeper).isOk = decide (signature = toySigned) := by
    rw [verify_toy]
    split
    · rename_i h
      exact (decide_eq_true h).symm
    · rename_i h
      exact (decide_eq_false h).symm
  rw [attempt_of_admission (admission_toy hidentify hskew), ← hkey, ← hverify]
  rfl

theorem nodup_acceptedPairs_toy : (acceptedPairs .toy .toy
    [toyDelivery toySigned ⟨700000, 700000, 700000, by decide⟩,
      toyDelivery toySigned ⟨1300000, 1300000, 1300001, by decide⟩]).Nodup := by
  apply nodup_acceptedPairs
  · simp [OneClock, toyDelivery]
  · intro d hd e he _ _ _ _
    simp only [List.mem_cons, List.not_mem_nil, or_false] at hd he
    rcases hd with rfl | rfl <;> rcases he with rfl | rfl <;> rfl
  · intro d hd _ ts hts
    simp only [List.mem_cons, List.not_mem_nil, or_false] at hd
    rcases hd with rfl | rfl <;>
    · rw [timestampOf_toy] at hts
      cases hts
      norm_num [toyDelivery, SKEW_MS]

/-- A request from the start of its window, delivered again when the clock passes the end of the
window between the two reads. -/
theorem accepted_twice :
    OneClock [toyDelivery toySigned ⟨700000, 700000, 700000, by decide⟩,
      toyDelivery toySigned ⟨1300000, 1300001, 1300001, by decide⟩] ∧
    acceptedPairs .toy .toy [toyDelivery toySigned ⟨700000, 700000, 700000, by decide⟩,
      toyDelivery toySigned ⟨1300000, 1300001, 1300001, by decide⟩] =
        [(.sweeper, "0xaa", Line.of "n"), (.sweeper, "0xaa", Line.of "n")] := by
  apply And.intro
  · simp [OneClock, toyDelivery]
  · rw [acceptedPairs_eq, attempts_cons, attempts_cons,
      attempt_toy (identify_toySigned "") (by norm_num [SKEW_MS]),
      attempt_toy (identify_toySigned "") (by norm_num [SKEW_MS])]
    decide

/-! ## Forged requests -/

-- The nonces change at most by a purge of the table of one surface.
def OnlyPurged (s s' : State) : Prop :=
  s'.nonces = s.nonces ∨
    ∃ surface now, s'.nonces = update s.nonces surface (purge now (s.nonces surface))

-- The request passes all checks up to and including the one of its nonce.
def SpendsNonce (env : Env) (s : State) (d : Delivery) : Prop :=
  ∃ a, attempt env s d = some a ∧ row s.nonces a.id a.now = none

/-- A request that passes the check of its nonce leaves a new row, every other one at most a purge. -/
theorem onlyPurged_iff : OnlyPurged s (deliver env s d).2 ↔ ¬SpendsNonce env s d := by
  unfold SpendsNonce
  cases h : attempt env s d with
  | none =>
    rw [(deliver_of_not_admitted h).2]
    simp [OnlyPurged]
  | some a =>
    have ⟨_, hnonces, _, _⟩ := deliver_of_attempt h
    unfold OnlyPurged
    rw [hnonces]
    cases hrow : row s.nonces a.id a.now with
    | some expiry =>
      apply iff_of_true
      · exact .inr ⟨a.gate, a.now, after_of_some hrow⟩
      · rintro ⟨_, hsame, hnone⟩
        cases hsame
        rw [hrow] at hnone
        exact absurd hnone (Option.some_ne_none _)
    | none =>
      have ⟨hstored, hnew⟩ := after_of_none (by decide : 0 ≤ NONCE_TTL_MS) hrow
      apply iff_of_false
      · rintro (hsame | ⟨surface, now, hpurged⟩)
        · exact hnew (hsame ▸ hstored)
        · rw [hpurged, update_apply] at hstored
          split at hstored
          · rename_i hgate
            rw [← hgate] at hstored
            exact hnew (purge_eq_some.mp hstored).1
          · exact hnew hstored
      · exact fun hnot => hnot ⟨a, rfl, hrow⟩

-- A forged request, an authentic one, and time for the row of the first to go in between.
def Apart (env : Env) (s : State) (d e : Delivery) : Prop :=
  authentic env s d = false → admitted env s d = true → authentic env s e = true →
    d.surface = e.surface → pairOf env d = pairOf env e →
      d.reads.nonce + NONCE_TTL_MS < e.reads.nonce

theorem Apart.attempts (hfar : (d :: ds).Pairwise (Apart env s)) (h : attempt env s d = some a)
    (hforged : authentic env s d = false) : ∀ b ∈ attempts env s ds, b.genuine = true →
      a.id = b.id → a.now + NONCE_TTL_MS < b.now := by
  intro b hb hgenuine hid
  obtain ⟨e, he, hbe⟩ := List.mem_filterMap.mp hb
  have ⟨hgate, hpair, hnow, _, _⟩ := attempt_eq_some h
  have ⟨hgate', hpair', hnow', hauthentic', _⟩ := attempt_eq_some hbe
  have hadmitted : admitted env s d = true := by
    unfold attempt at h
    unfold admitted
    cases hadmission : admission env d.reads.skew d.request s d.surface with
    | ok c => rfl
    | error e =>
      rw [hadmission] at h
      exact absurd h.symm (Option.some_ne_none _)
  rw [hnow, hnow']
  apply List.rel_of_pairwise_cons hfar he hforged hadmitted
  · rw [← hauthentic', hgenuine]
  · rw [← hgate, ← hgate']
    exact congrArg Prod.fst hid
  · rw [hpair, hpair']
    exact congrArg (fun i => some i.2) hid

-- Two states that differ in the nonces alone, `s₀` standing for what they share.
structure SameParties (s₀ s : State) : Prop where
  enabled : s.enabled = s₀.enabled
  hmacSecret : s.hmacSecret = s₀.hmacSecret

theorem SameParties.deliver {s₀ : State} (h : SameParties s₀ s) :
    SameParties s₀ (deliver env s d).2 := by
  cases hattempt : attempt env s d with
  | none => rwa [(deliver_of_not_admitted hattempt).2]
  | some a =>
    have ⟨_, _, henabled, hsecret⟩ := deliver_of_attempt hattempt
    exact ⟨henabled.trans h.enabled, hsecret.trans h.hmacSecret⟩

theorem verdicts_filter_of_agree {s₀ : State} (hclock : OneClock ds)
    (hfar : ds.Pairwise (Apart env s₀)) (hs : SameParties s₀ s) (hs' : SameParties s₀ s')
    (hagree : Agree s.nonces s'.nonces (attempts env s₀ ds)) :
    (verdicts env s ds).filter (fun v => authentic env s₀ v.1) =
      verdicts env s' (ds.filter (authentic env s₀)) := by
  induction ds generalizing s s' with
  | nil => rfl
  | cons d ds ih =>
    have hclocked : Clocked (attempts env s₀ (d :: ds)) := clocked_attempts hclock
    have ih' : ∀ {t t' : State}, SameParties s₀ t → SameParties s₀ t' →
        Agree t.nonces t'.nonces (attempts env s₀ ds) →
          (verdicts env t ds).filter (fun v => authentic env s₀ v.1) =
            verdicts env t' (ds.filter (authentic env s₀)) :=
      ih (List.Pairwise.of_cons hclock) (List.Pairwise.of_cons hfar)
    have hsame : attempt env s d = attempt env s₀ d := attempt_congr hs.enabled hs.hmacSecret
    have hsame' : attempt env s' d = attempt env s₀ d := attempt_congr hs'.enabled hs'.hmacSecret
    rw [attempts_cons] at hagree hclocked
    rw [verdicts, List.filter_cons, List.filter_cons]
    cases h : attempt env s₀ d with
    | none =>
      -- Rejected before the nonce in both runs, which leaves both states as they are.
      have ⟨hrejected, hstate⟩ := deliver_of_not_admitted (hsame.trans h)
      have ⟨hrejected', hstate'⟩ := deliver_of_not_admitted (hsame'.trans h)
      rw [h] at hagree
      rw [hstate, ih' hs hs' hagree]
      split
      · rw [verdicts, hstate', hrejected, hrejected']
      · rfl
    | some a =>
      have ⟨haccepts, hnonces, _, _⟩ := deliver_of_attempt (hsame.trans h)
      have ⟨haccepts', hnonces', _, _⟩ := deliver_of_attempt (hsame'.trans h)
      have ⟨_, _, _, hauthentic, _⟩ := attempt_eq_some h
      rw [h] at hagree hclocked
      cases hgenuine : authentic env s₀ d with
      | true =>
        rw [hgenuine] at hauthentic
        have hrow : row s.nonces a.id a.now = row s'.nonces a.id a.now :=
          hagree a (List.mem_cons_self ..) hauthentic
        have hverdict : (deliver env s d).1.isOk = (deliver env s' d).1.isOk := by
          rw [haccepts, haccepts']
          apply Bool.eq_iff_iff.mpr
          rw [accepts_eq_true, accepts_eq_true, hrow]
        have hagree' : Agree (deliver env s d).2.nonces (deliver env s' d).2.nonces
            (attempts env s₀ ds) := by
          rw [hnonces, hnonces']
          exact hagree.after hclocked hauthentic
        rw [if_pos rfl, if_pos rfl, verdicts, hverdict, ih' hs.deliver hs'.deliver hagree']
      | false =>
        have hagree' : Agree (deliver env s d).2.nonces s'.nonces (attempts env s₀ ds) := by
          rw [hnonces]
          exact hagree.after_forged hclocked (Apart.attempts hfar h hgenuine)
        rw [if_neg Bool.false_ne_true, if_neg Bool.false_ne_true]
        exact ih' hs.deliver hs' hagree'

/-- Authentic requests fare as they would without the forged ones, unless one comes while a forged
one holds its nonce. -/
theorem verdicts_filter_authentic (hclock : OneClock ds) (hfar : ds.Pairwise (Apart env s)) :
    (verdicts env s ds).filter (fun v => authentic env s v.1) =
      verdicts env s (ds.filter (authentic env s)) :=
  verdicts_filter_of_agree hclock hfar ⟨rfl, rfl⟩ ⟨rfl, rfl⟩ fun _ _ _ => rfl

/-- What a rejected request leaves behind, and what that means for the authentic ones. -/
theorem rejected_requests (env : Env) (s : State) :
    (∀ d, (deliver env s d).1.isOk = false →
      (OnlyPurged s (deliver env s d).2 ↔ ¬SpendsNonce env s d)) ∧
    ∀ ds, OneClock ds → ds.Pairwise (Apart env s) →
      (verdicts env s ds).filter (fun v => authentic env s v.1) =
        verdicts env s (ds.filter (authentic env s)) := by
  apply And.intro
  · intro d _
    exact onlyPurged_iff
  · intro ds hclock hfar
    exact verdicts_filter_authentic hclock hfar

theorem rejected_requests_toy : (verdicts .toy .toy
      [toyDelivery toySigned ⟨1000000, 1000000, 1000000, by decide⟩,
        toyDelivery toyForged ⟨1000001, 1000001, 1000001, by decide⟩]).filter
          (fun v => authentic .toy .toy v.1) =
    verdicts .toy .toy ([toyDelivery toySigned ⟨1000000, 1000000, 1000000, by decide⟩,
      toyDelivery toyForged ⟨1000001, 1000001, 1000001, by decide⟩].filter
        (authentic .toy .toy)) := by
  apply (rejected_requests .toy .toy).2
  · simp [OneClock, toyDelivery]
  · rw [List.pairwise_pair]
    intro hforged
    rw [← (attempt_eq_some (attempt_toy (identify_toySigned "") (by norm_num [SKEW_MS]))).2.2.2.1]
      at hforged
    exact absurd hforged (by decide)

/-- A request with a wrong signature, and the authentic one whose nonce it has spent. -/
theorem forged_spends_nonce :
    let forged := toyDelivery toyForged ⟨1000000, 1000000, 1000000, by decide⟩
    let genuine := toyDelivery toySigned ⟨1000001, 1000001, 1000001, by decide⟩
    authentic .toy .toy forged = false ∧ authentic .toy .toy genuine = true ∧
      (verdicts .toy .toy [forged, genuine]).map (·.2) = [false, false] ∧
      (verdicts .toy .toy [genuine]).map (·.2) = [true] ∧
      ¬OnlyPurged .toy (deliver .toy .toy forged).2 := by
  intro forged genuine
  have hforged : attempt .toy .toy forged = _ :=
    attempt_toy (identify_toyForged "") (by norm_num [SKEW_MS])
  have hgenuine : attempt .toy .toy genuine = _ :=
    attempt_toy (identify_toySigned "") (by norm_num [SKEW_MS])
  have ⟨hrejected, hnonces, henabled, hsecret⟩ := deliver_of_attempt hforged
  have hlate : (deliver .toy (deliver .toy .toy forged).2 genuine).1.isOk = false := by
    rw [(deliver_of_attempt ((attempt_congr henabled hsecret).trans hgenuine)).1, hnonces]
    decide
  refine ⟨(attempt_eq_some hforged).2.2.2.1.symm, (attempt_eq_some hgenuine).2.2.2.1.symm, ?_, ?_, ?_⟩
  · simp only [verdicts, List.map_cons, List.map_nil, hlate, hrejected]
    decide
  · simp only [verdicts, List.map_cons, List.map_nil, (deliver_of_attempt hgenuine).1]
    decide
  · rw [onlyPurged_iff, not_not]
    exact ⟨_, hforged, rfl⟩

end OnchainInvoice.SignedRequests
