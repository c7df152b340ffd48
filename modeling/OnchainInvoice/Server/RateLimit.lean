import Mathlib.Algebra.Order.Floor.Ring
import Mathlib.Data.Rat.Floor
import OnchainInvoice.Lib.TokenBucket

/-!
# Rate limits

The token buckets of `rate-limit.ts`, one for each key, with `Date.now()` in whole milliseconds and
the numbers of tokens as rationals.  A bucket is a `Lib.TokenBucket` whose clock is in seconds.
-/

namespace OnchainInvoice.RateLimit

open Lib.TokenBucket Function

structure Bucket where
  tokens : ℚ
  updatedAt : Int
  capacity : ℚ

-- What remains is `none` where the source has `Number.POSITIVE_INFINITY`.
structure RateLimitTakeResult where
  ok : Bool
  remaining : Option Int
  resetMs : Int

-- `const buckets = new Map<string, Bucket>()`
abbrev Buckets := String → Option Bucket

def noBuckets : Buckets := fun _ => none

def capacity (perSecond : ℚ) (burst : Option ℚ) : ℚ := max 1 (burst.getD perSecond)

def takeToken (buckets : Buckets) (key : String) (perSecond : ℚ) (burst : Option ℚ) (now : Int) :
    RateLimitTakeResult × Buckets :=
  if perSecond ≤ 0 then (⟨true, none, 0⟩, buckets)
  else
    let capacity := capacity perSecond burst
    let existing := (buckets key).getD ⟨capacity, now, capacity⟩
    let elapsed : ℚ := (now - existing.updatedAt) / 1000
    let refilled := min capacity (existing.tokens + elapsed * perSecond)
    if refilled < 1 then
      let need := 1 - refilled
      let resetMs := ⌈need / perSecond * 1000⌉
      (⟨false, some 0, resetMs⟩, update buckets key (some ⟨refilled, now, capacity⟩))
    else
      let next := refilled - 1
      (⟨true, some ⌊next⌋, 0⟩, update buckets key (some ⟨next, now, capacity⟩))

/-! ## Runs -/

structure Call where
  key : String
  perSecond : ℚ
  burst : Option ℚ
  now : Int

def Call.take (c : Call) (buckets : Buckets) : RateLimitTakeResult × Buckets :=
  takeToken buckets c.key c.perSecond c.burst c.now

def run (buckets : Buckets) (calls : List Call) : Buckets :=
  calls.foldl (fun buckets c => (c.take buckets).2) buckets

-- One clock for the whole run, which never goes back.
def OneClock (calls : List Call) : Prop := calls.Pairwise fun c c' => c.now ≤ c'.now

-- The key is always used with the same rate and burst.
def Fixed (key : String) (perSecond : ℚ) (burst : Option ℚ) (calls : List Call) : Prop :=
  ∀ c ∈ calls, c.key = key → c.perSecond = perSecond ∧ c.burst = burst

-- The calls of the key that are granted between two times, in milliseconds.
def granted (key : String) (opens closes : ℚ) : Buckets → List Call → Nat
  | _, [] => 0
  | buckets, c :: calls =>
    (if c.key = key ∧ (c.take buckets).1.ok = true ∧ opens ≤ c.now ∧ c.now ≤ closes then 1 else 0) +
      granted key opens closes (c.take buckets).2 calls

/-- No window grants more than the capacity and the rate over its length, and a call that comes when
the reset time of a refusal is over is granted. -/
structure Bounded (key : String) (perSecond : ℚ) (burst : Option ℚ) (calls : List Call) : Prop where
  window : 0 < perSecond → ∀ opens seconds : ℚ, 0 ≤ seconds →
    (granted key opens (opens + 1000 * seconds) noBuckets calls : ℚ) ≤
      capacity perSecond burst + perSecond * seconds
  reset : ∀ earlier denied between later rest,
    calls = earlier ++ denied :: (between ++ later :: rest) →
    denied.key = key → later.key = key → (∀ c ∈ between, c.key ≠ key) →
    (denied.take (run noBuckets earlier)).1.ok = false →
    denied.now + (denied.take (run noBuckets earlier)).1.resetMs ≤ later.now →
    (later.take (run noBuckets (earlier ++ denied :: between))).1.ok = true

/-! ## Buckets and levels -/

variable {buckets : Buckets} {c c' : Call} {key : String} {perSecond : ℚ} {burst : Option ℚ}
  {calls : List Call} {l : Level ℚ}

def seconds (now : Int) : ℚ := now / 1000

def Call.capacity (c : Call) : ℚ := RateLimit.capacity c.perSecond c.burst

-- The level that the call finds.  A key that has no bucket has a full one.
def Call.level (c : Call) (buckets : Buckets) : Level ℚ :=
  match buckets c.key with
  | some bucket => ⟨bucket.tokens, seconds bucket.updatedAt⟩
  | none => ⟨c.capacity, seconds c.now⟩

def Call.refilled (c : Call) (buckets : Buckets) : ℚ :=
  Lib.TokenBucket.refilled c.capacity c.perSecond (c.level buckets) (seconds c.now)

def Call.filled (c : Call) (buckets : Buckets) : Bool × Level ℚ :=
  Lib.TokenBucket.take c.capacity c.perSecond (c.level buckets) (seconds c.now)

theorem seconds_mono {now later : Int} (h : now ≤ later) : seconds now ≤ seconds later := by
  unfold seconds
  have hcast : (now : ℚ) ≤ later := by exact_mod_cast h
  linarith

-- The arithmetic of the source, with the bucket that it finds or makes.
theorem refilled_eq (c : Call) (buckets : Buckets) : min c.capacity
    (((buckets c.key).getD ⟨c.capacity, c.now, c.capacity⟩).tokens +
      ((c.now : ℚ) - ((buckets c.key).getD ⟨c.capacity, c.now, c.capacity⟩).updatedAt) / 1000 *
        c.perSecond) = c.refilled buckets := by
  unfold Call.refilled Call.level Lib.TokenBucket.refilled seconds
  cases buckets c.key with
  | none => simp
  | some bucket =>
    dsimp only [Option.getD_some]
    rw [sub_div]

/-- A call takes from the level that it finds. -/
theorem take_eq (hrate : 0 < c.perSecond) : c.take buckets =
    (⟨(c.filled buckets).1,
      if (c.filled buckets).1 then some ⌊(c.filled buckets).2.tokens⌋ else some 0,
      if (c.filled buckets).1 then 0 else ⌈(1 - c.refilled buckets) / c.perSecond * 1000⌉⟩,
    update buckets c.key (some ⟨(c.filled buckets).2.tokens, c.now, c.capacity⟩)) := by
  unfold Call.take takeToken
  rw [if_neg (not_le.mpr hrate)]
  have hrefilled := refilled_eq c buckets
  unfold Call.capacity at hrefilled
  dsimp only
  rw [hrefilled]
  unfold Call.filled Lib.TokenBucket.take Call.refilled Call.capacity
  dsimp only
  split
  · rfl
  · rfl

theorem take_of_ne (hkey : c.key ≠ key) : (c.take buckets).2 key = buckets key := by
  by_cases hrate : 0 < c.perSecond
  · rw [take_eq hrate]
    exact update_of_ne (Ne.symm hkey) _ _
  · unfold Call.take takeToken
    rw [if_pos (not_lt.mp hrate)]

theorem run_of_ne (hkeys : ∀ c ∈ calls, c.key ≠ key) : run buckets calls key = buckets key := by
  induction calls generalizing buckets with
  | nil => rfl
  | cons c calls ih =>
    have hrest : run (c.take buckets).2 calls key = (c.take buckets).2 key :=
      ih fun c' hc' => hkeys c' (List.mem_cons_of_mem c hc')
    exact hrest.trans (take_of_ne (hkeys c List.mem_cons_self))

/-! ## Windows -/

-- The bucket of the key is at the level; a key without one is at a level that is full.
def Holds (key : String) (capacity : ℚ) (buckets : Buckets) (l : Level ℚ) : Prop :=
  match buckets key with
  | some bucket => l = ⟨bucket.tokens, seconds bucket.updatedAt⟩
  | none => l.tokens = capacity

theorem Holds.take (hholds : Holds c.key c.capacity buckets l) (hrate : 0 < c.perSecond)
    (hsince : l.since ≤ seconds c.now) :
    (c.take buckets).1.ok = (Lib.TokenBucket.take c.capacity c.perSecond l (seconds c.now)).1 ∧
    Holds c.key c.capacity (c.take buckets).2
      (Lib.TokenBucket.take c.capacity c.perSecond l (seconds c.now)).2 := by
  have hfilled : Lib.TokenBucket.take c.capacity c.perSecond l (seconds c.now) =
      c.filled buckets := by
    unfold Call.filled Lib.TokenBucket.take Lib.TokenBucket.refilled Call.level
    unfold Holds at hholds
    cases hbucket : buckets c.key with
    | some bucket =>
      rw [hbucket] at hholds
      dsimp only at hholds
      rw [hholds]
    | none =>
      rw [hbucket] at hholds
      dsimp only at hholds ⊢
      have hflow : 0 ≤ (seconds c.now - l.since) * c.perSecond :=
        mul_nonneg (sub_nonneg.mpr hsince) hrate.le
      rw [hholds, min_eq_left (le_add_of_nonneg_right hflow), sub_self, zero_mul, add_zero,
        min_self]
  rw [take_eq hrate, hfilled]
  apply And.intro rfl
  have hnow : (c.filled buckets).2.since = seconds c.now := take_since ..
  unfold Holds
  dsimp only
  rw [update_self]
  dsimp only
  rw [← hnow]

def times (key : String) (calls : List Call) : List ℚ :=
  (calls.filter (·.key = key)).map fun c => seconds c.now

/-- The calls of one key fill and empty one bucket. -/
theorem granted_eq (opens closes : ℚ) (hrate : 0 < perSecond)
    (hfixed : Fixed key perSecond burst calls) (hclock : OneClock calls)
    (hsince : ∀ c ∈ calls, l.since ≤ seconds c.now)
    (hholds : Holds key (capacity perSecond burst) buckets l) :
    granted key opens closes buckets calls =
      grants (capacity perSecond burst) perSecond (opens / 1000) (closes / 1000) l
        (times key calls) ∧
    Follows (capacity perSecond burst) perSecond l (times key calls) := by
  induction calls generalizing buckets l with
  | nil => exact ⟨rfl, trivial⟩
  | cons c calls ih =>
    have hfixed' : Fixed key perSecond burst calls :=
      fun c' hc' => hfixed c' (List.mem_cons_of_mem c hc')
    have hclock' := List.pairwise_cons.mp hclock
    by_cases hkey : c.key = key
    · have hparams := hfixed c List.mem_cons_self hkey
      have hnow := hsince c List.mem_cons_self
      have hcap : c.capacity = capacity perSecond burst := by
        unfold Call.capacity
        rw [hparams.1, hparams.2]
      rw [← hkey, ← hcap] at hholds
      have htake := hholds.take (by rw [hparams.1]; exact hrate) hnow
      rw [hkey, hcap, hparams.1] at htake
      have hlater : ∀ c' ∈ calls,
          (Lib.TokenBucket.take (capacity perSecond burst) perSecond l (seconds c.now)).2.since ≤
            seconds c'.now := by
        intro c' hc'
        rw [take_since]
        exact seconds_mono (hclock'.1 c' hc')
      have hrest := ih hfixed' hclock'.2 hlater htake.2
      have hwindow : opens ≤ c.now ∧ (c.now : ℚ) ≤ closes ↔
          opens / 1000 ≤ seconds c.now ∧ seconds c.now ≤ closes / 1000 := by
        unfold seconds
        rw [div_le_div_iff_of_pos_right (by norm_num), div_le_div_iff_of_pos_right (by norm_num)]
      have htimes : times key (c :: calls) = seconds c.now :: times key calls := by
        unfold times
        rw [List.filter_cons_of_pos (by simpa using hkey), List.map_cons]
      rw [htimes]
      apply And.intro
      · unfold granted grants
        rw [hrest.1, htake.1]
        simp only [hkey, true_and, hwindow]
      · exact ⟨hnow, hrest.2⟩
    · have hsame : (c.take buckets).2 key = buckets key := take_of_ne hkey
      have hholds' : Holds key (capacity perSecond burst) (c.take buckets).2 l := by
        unfold Holds
        rw [hsame]
        exact hholds
      have hsince' : ∀ c' ∈ calls, l.since ≤ seconds c'.now :=
        fun c' hc' => hsince c' (List.mem_cons_of_mem c hc')
      have hrest := ih hfixed' hclock'.2 hsince' hholds'
      have htimes : times key (c :: calls) = times key calls := by
        unfold times
        rw [List.filter_cons_of_neg (by simpa using hkey)]
      rw [htimes]
      apply And.intro
      · unfold granted
        rw [if_neg (fun h => hkey h.1), Nat.zero_add]
        exact hrest.1
      · exact hrest.2

theorem capacity_pos (perSecond : ℚ) (burst : Option ℚ) : 0 < capacity perSecond burst :=
  lt_max_of_lt_left one_pos

theorem granted_le (hrate : 0 < perSecond) (hfixed : Fixed key perSecond burst calls)
    (hclock : OneClock calls) {opens length : ℚ} (hlength : 0 ≤ length) :
    (granted key opens (opens + 1000 * length) noBuckets calls : ℚ) ≤
      capacity perSecond burst + perSecond * length := by
  have hcap := capacity_pos perSecond burst
  cases calls with
  | nil =>
    have hflow : 0 ≤ perSecond * length := mul_nonneg hrate.le hlength
    simp only [granted, Nat.cast_zero]
    linarith
  | cons c calls =>
    have hlater : ∀ c' ∈ c :: calls, seconds c.now ≤ seconds c'.now := by
      intro c' hc'
      rcases List.mem_cons.mp hc' with rfl | hc'
      · exact le_rfl
      · exact seconds_mono ((List.pairwise_cons.mp hclock).1 c' hc')
    -- At the first call the bucket of the key counts as full.
    have hfull : Holds key (capacity perSecond burst) noBuckets
        ⟨capacity perSecond burst, seconds c.now⟩ := rfl
    have hrun := granted_eq opens (opens + 1000 * length) hrate hfixed hclock hlater hfull
    have hwindow : opens / 1000 ≤ (opens + 1000 * length) / 1000 := by
      linarith
    have hwithin : Within (capacity perSecond burst)
        ⟨capacity perSecond burst, seconds c.now⟩ := ⟨hcap.le, le_rfl⟩
    have hbound := grants_le hrate.le hwithin hwindow hrun.2
    have hlength : (opens + 1000 * length) / 1000 - opens / 1000 = length := by
      ring
    rw [hlength, mul_comm length perSecond] at hbound
    rw [hrun.1]
    exact hbound

/-! ## Reset times -/

theorem pos_of_refused (hrefused : (c.take buckets).1.ok = false) : 0 < c.perSecond := by
  by_contra hrate
  unfold Call.take takeToken at hrefused
  rw [if_pos (not_lt.mp hrate)] at hrefused
  cases hrefused

/-- The bucket that a refusal leaves has a token again when the reset time is over. -/
theorem granted_of_reset (hkey : c'.key = c.key) (hrate : c'.perSecond = c.perSecond)
    (hburst : c'.burst = c.burst) {after : Buckets}
    (hafter : after c.key = (c.take buckets).2 c.key) (hrefused : (c.take buckets).1.ok = false)
    (hwait : c.now + (c.take buckets).1.resetMs ≤ c'.now) : (c'.take after).1.ok = true := by
  have hpos := pos_of_refused hrefused
  rw [take_eq hpos] at hafter hrefused hwait
  dsimp only at hafter hrefused hwait
  rw [update_self] at hafter
  rw [hrefused, if_neg Bool.false_ne_true] at hwait
  have hsince : (c.filled buckets).2.since = seconds c.now := take_since ..
  have hlevel : c'.level after = (c.filled buckets).2 := by
    unfold Call.level
    rw [hkey, hafter]
    dsimp only
    rw [← hsince]
  have hms : (c.now : ℚ) + (1 - c.refilled buckets) / c.perSecond * 1000 ≤ c'.now := by
    have hceil := Int.le_ceil ((1 - c.refilled buckets) / c.perSecond * 1000)
    have hcast : (c.now : ℚ) + ⌈(1 - c.refilled buckets) / c.perSecond * 1000⌉ ≤ c'.now := by
      exact_mod_cast hwait
    linarith
  have hover : seconds c.now + (1 - c.refilled buckets) / c.perSecond ≤ seconds c'.now := by
    unfold seconds
    linarith
  have hcap : 1 ≤ c.capacity := le_max_left _ _
  have hgranted := take_after_wait hpos hcap hrefused hover
  rw [take_eq (by rw [hrate]; exact hpos)]
  dsimp only
  unfold Call.filled Call.capacity
  rw [hlevel, hrate, hburst]
  exact hgranted

/-- Whatever the calls of the other keys, a key that is used with one rate is bounded by it. -/
theorem bounded_of_run (hclock : OneClock calls) (hfixed : Fixed key perSecond burst calls) :
    Bounded key perSecond burst calls := by
  apply Bounded.mk
  · intro hrate opens length hlength
    exact granted_le hrate hfixed hclock hlength
  · intro earlier denied between later rest hcalls hdenied hlater hbetween hrefused hwait
    have hparams := hfixed denied (by rw [hcalls]; simp) hdenied
    have hparams' := hfixed later (by rw [hcalls]; simp) hlater
    apply granted_of_reset (hlater.trans hdenied.symm) (hparams'.1.trans hparams.1.symm)
      (hparams'.2.trans hparams.2.symm) _ hrefused hwait
    have hrun : run noBuckets (earlier ++ denied :: between) =
        run (denied.take (run noBuckets earlier)).2 between := by
      unfold run
      rw [List.foldl_append, List.foldl_cons]
    rw [hrun, hdenied]
    exact run_of_ne hbetween

theorem bounded_of_run_login :
    Bounded "public:192.0.2.1" 2 (some 2)
      [⟨"public:192.0.2.1", 2, some 2, 0⟩, ⟨"quote:192.0.2.1", 1, none, 400⟩,
        ⟨"public:192.0.2.1", 2, some 2, 900⟩] :=
  bounded_of_run (by simp [OneClock]) (by simp [Fixed])

/-- A rate of zero turns the limit off. -/
theorem granted_without_rate :
    ¬∀ (key : String) (perSecond : ℚ) (burst : Option ℚ) (calls : List Call), OneClock calls →
      Fixed key perSecond burst calls → ∀ opens length : ℚ, 0 ≤ length →
        (granted key opens (opens + 1000 * length) noBuckets calls : ℚ) ≤
          capacity perSecond burst + perSecond * length := by
  intro h
  have hbound := h "public:192.0.2.1" 0 none
    [⟨"public:192.0.2.1", 0, none, 0⟩, ⟨"public:192.0.2.1", 0, none, 0⟩]
    (by simp [OneClock]) (by simp [Fixed]) 0 0 le_rfl
  norm_num [granted, Call.take, takeToken, capacity] at hbound

end OnchainInvoice.RateLimit
