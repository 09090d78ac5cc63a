import Mathlib
import Chmicro.Retry

set_option autoImplicit false

namespace Chmicro.Resilience

open Truncation

theorem inLongLong_iff {x : ℚ} (nonneg : 0 ≤ x) : InLongLong x ↔ x < 2 ^ 63 := by
  have low := truncate_nonneg nonneg
  have bound : ((2 ^ 63 : Int) : ℚ) = 2 ^ 63 := by norm_num
  have high := truncate_lt_iff nonneg (2 ^ 63)
  rw [bound] at high
  rw [InLongLong, high]
  constructor
  · exact And.right
  · intro small
    exact ⟨by omega, small⟩

theorem toLongLong_eq {x : ℚ} (nonneg : 0 ≤ x) (bound : x < 2 ^ 63) :
    toLongLong x = some (truncate x) :=
  if_pos ((inLongLong_iff nonneg).mpr bound)

namespace RetryPolicy

variable (policy : RetryPolicy)

/-- The exact delay before the jitter. -/
def capped (attempt : Int) : ℚ := min (policy.exponential attempt) policy.opts.maxBackoff.toInt

section Exponential

variable {policy} (base : 0 ≤ policy.opts.baseBackoff.toInt)

include base

theorem exponential_nonneg (attempt : Int) : 0 ≤ policy.exponential attempt := by
  have factor : (0 : ℚ) ≤ 2 ^ (attempt - 2) := by positivity
  exact mul_nonneg (by exact_mod_cast base) factor

theorem exponential_mono {first second : Int} (le : first ≤ second) :
    policy.exponential first ≤ policy.exponential second := by
  have grows : (2 : ℚ) ^ (first - 2) ≤ 2 ^ (second - 2) :=
    zpow_le_zpow_right₀ one_le_two (by omega)
  exact mul_le_mul_of_nonneg_left grows (by exact_mod_cast base)

theorem capped_mono {first second : Int} (le : first ≤ second) :
    policy.capped first ≤ policy.capped second :=
  min_le_min_right _ (exponential_mono base le)

theorem capped_nonneg (cap : 0 ≤ policy.opts.maxBackoff.toInt) (attempt : Int) :
    0 ≤ policy.capped attempt :=
  le_min (exponential_nonneg base attempt) (by exact_mod_cast cap)

/-- No jitter down to minus one makes a delay negative. -/
theorem jittered_nonneg (cap : 0 ≤ policy.opts.maxBackoff.toInt) (attempt : Int) {jitter : ℚ}
    (low : -1 ≤ jitter) : 0 ≤ policy.capped attempt * (1 + jitter) :=
  mul_nonneg (capped_nonneg base cap attempt) (by linarith)

end Exponential

variable {policy}

theorem capped_le (attempt : Int) : policy.capped attempt ≤ policy.opts.maxBackoff.toInt :=
  min_le_right _ _

/-- From the second attempt on the exponential is a whole number of milliseconds. -/
theorem exponential_int {attempt : Int} (second : 2 ≤ attempt) :
    ∃ delay : Int, policy.exponential attempt = delay := by
  obtain ⟨exp, power⟩ := Int.eq_ofNat_of_zero_le (show 0 ≤ attempt - 2 by omega)
  refine ⟨policy.opts.baseBackoff.toInt * 2 ^ exp, ?_⟩
  rw [exponential, power, zpow_natCast]
  push_cast
  rfl

/-- In range, the delay before the jitter is what it is meant to be. -/
theorem raw_eq (base : 0 ≤ policy.opts.baseBackoff.toInt) {attempt : Int} (second : 2 ≤ attempt)
    (bound : policy.exponential attempt < 2 ^ 63) :
    ∃ raw : Int, policy.raw attempt = some raw ∧ (raw : ℚ) = policy.capped attempt := by
  obtain ⟨delay, whole⟩ := exponential_int second
  have value := toLongLong_eq (exponential_nonneg base attempt) bound
  refine ⟨min delay policy.opts.maxBackoff.toInt, ?_, ?_⟩
  · rw [raw, value, whole, truncate_intCast, Option.map_some]
  · rw [capped, whole]
    push_cast
    rfl

/-- In range, the backoff is the jittered delay, truncated and capped. -/
theorem backoff_eq (base : 0 ≤ policy.opts.baseBackoff.toInt)
    (cap : 0 ≤ policy.opts.maxBackoff.toInt) {attempt : Int} (second : 2 ≤ attempt)
    (bound : policy.exponential attempt < 2 ^ 63) {jitter : ℚ} (low : -1 ≤ jitter)
    (high : policy.capped attempt * (1 + jitter) < 2 ^ 63) :
    policy.backoffBeforeAttempt attempt jitter =
      some (min (truncate (policy.capped attempt * (1 + jitter))) policy.opts.maxBackoff.toInt) := by
  obtain ⟨raw, held, exact_⟩ := raw_eq base second bound
  have nonneg := jittered_nonneg base cap attempt low
  have later : ¬ attempt ≤ 1 := by omega
  rw [backoffBeforeAttempt, if_neg later, held, Option.bind_some, exact_, toLongLong_eq nonneg high,
    Option.map_some, max_eq_right (truncate_nonneg nonneg)]

theorem ratio_unit {ratio : ℚ} (held : policy.opts.jitterRatio = .finite ratio) :
    0 ≤ ratio ∧ ratio ≤ 1 := by
  have sanitised := policy.ratio_sanitised
  rw [held] at sanitised
  exact sanitised

/-- No drawn jitter turns a delay negative or more than doubles it. -/
theorem draws_unit {jitter : ℚ} (drawn : policy.Draws jitter) : -1 ≤ jitter ∧ jitter ≤ 1 := by
  obtain ⟨ratio, held, low, high⟩ := drawn
  obtain ⟨-, unit⟩ := ratio_unit held
  exact ⟨by linarith, by linarith⟩

variable (policy) in
/-- Both conversions are in range up to the last attempt, so that the un-jittered delay is the
exact one and never decreases. -/
def NeverCollapses : Prop :=
  (∀ attempt, 2 ≤ attempt → attempt ≤ policy.opts.maxAttempts.toInt →
    InLongLong (policy.exponential attempt) ∧
      ∃ raw : Int, policy.raw attempt = some raw ∧
        (∀ jitter, policy.Draws jitter → InLongLong (raw * (1 + jitter))) ∧
        policy.backoffBeforeAttempt attempt 0 = some raw ∧ (raw : ℚ) = policy.capped attempt) ∧
  ∀ first second, 2 ≤ first → first ≤ second → second ≤ policy.opts.maxAttempts.toInt →
    ∀ early ∈ policy.backoffBeforeAttempt first 0, ∀ late ∈ policy.backoffBeforeAttempt second 0,
      early ≤ late

variable (policy) in
/-- Even the last attempt's product, and its cap with the widest jitter, are in range. -/
def FitsAtLast : Prop :=
  policy.exponential policy.opts.maxAttempts.toInt < 2 ^ 63 ∧
    ∀ ratio, policy.opts.jitterRatio = .finite ratio →
      policy.capped policy.opts.maxAttempts.toInt * (1 + ratio) < 2 ^ 63

section Collapse

variable (base : 0 ≤ policy.opts.baseBackoff.toInt) (cap : 0 ≤ policy.opts.maxBackoff.toInt)

include base cap

/-- Without a jitter the second conversion gives back what went in. -/
theorem unjittered {attempt : Int} (second : 2 ≤ attempt)
    (bound : policy.exponential attempt < 2 ^ 63) {raw : Int}
    (exact_ : (raw : ℚ) = policy.capped attempt) :
    policy.backoffBeforeAttempt attempt 0 = some raw := by
  have below : policy.capped attempt * (1 + 0) < 2 ^ 63 := by
    have le : policy.capped attempt ≤ policy.exponential attempt := min_le_left _ _
    linarith
  have inside : raw ≤ policy.opts.maxBackoff.toInt := by
    have le := policy.capped_le attempt
    rw [← exact_] at le
    exact_mod_cast le
  rw [backoff_eq base cap second bound (by norm_num) below, ← exact_, add_zero, mul_one,
    truncate_intCast, min_eq_left inside]

theorem fits_before {attempt : Int} (fits : policy.FitsAtLast)
    (last : attempt ≤ policy.opts.maxAttempts.toInt) :
    policy.exponential attempt < 2 ^ 63 ∧
      ∀ jitter, policy.Draws jitter →
        0 ≤ policy.capped attempt * (1 + jitter) ∧ policy.capped attempt * (1 + jitter) < 2 ^ 63 := by
  constructor
  · exact lt_of_le_of_lt (exponential_mono base last) fits.1
  · intro jitter drawn
    obtain ⟨low, -⟩ := draws_unit drawn
    obtain ⟨ratio, held, -, high⟩ := drawn
    have here := capped_nonneg base cap attempt
    have later := capped_mono base last
    have wide := fits.2 ratio held
    have grows : policy.capped attempt * (1 + jitter) ≤
        policy.capped policy.opts.maxAttempts.toInt * (1 + ratio) := by
      apply mul_le_mul later _ (by linarith) (le_trans here later)
      linarith
    exact ⟨jittered_nonneg base cap attempt low, lt_of_le_of_lt grows wide⟩

theorem neverCollapses_of_fits (fits : policy.FitsAtLast) : policy.NeverCollapses := by
  have value {attempt : Int} (second : 2 ≤ attempt)
      (last : attempt ≤ policy.opts.maxAttempts.toInt) :
      ∃ raw : Int, policy.raw attempt = some raw ∧ (raw : ℚ) = policy.capped attempt ∧
        policy.backoffBeforeAttempt attempt 0 = some raw := by
    obtain ⟨bound, -⟩ := fits_before base cap fits last
    obtain ⟨raw, held, exact_⟩ := raw_eq base second bound
    exact ⟨raw, held, exact_, unjittered base cap second bound exact_⟩
  constructor
  · intro attempt second last
    obtain ⟨bound, jittered⟩ := fits_before base cap fits last
    obtain ⟨raw, held, exact_, plain⟩ := value second last
    refine ⟨(inLongLong_iff (exponential_nonneg base attempt)).mpr bound, raw, held, ?_, plain,
      exact_⟩
    intro jitter drawn
    obtain ⟨nonneg, small⟩ := jittered jitter drawn
    rw [exact_]
    exact (inLongLong_iff nonneg).mpr small
  · intro first second start le last early atEarly late atLate
    obtain ⟨before, -, exactBefore, plainBefore⟩ := value start (le_trans le last)
    obtain ⟨after, -, exactAfter, plainAfter⟩ := value (le_trans start le) last
    obtain rfl : before = early := Option.some.inj (plainBefore.symm.trans atEarly)
    obtain rfl : after = late := Option.some.inj (plainAfter.symm.trans atLate)
    have grows := capped_mono base le
    rw [← exactBefore, ← exactAfter] at grows
    exact_mod_cast grows

theorem fits_of_neverCollapses (some_ : 2 ≤ policy.opts.maxAttempts.toInt)
    (never : policy.NeverCollapses) : policy.FitsAtLast := by
  obtain ⟨inside, raw, -, jittered, -, exact_⟩ := never.1 _ some_ le_rfl
  constructor
  · exact (inLongLong_iff (exponential_nonneg base _)).mp inside
  · intro ratio held
    obtain ⟨nonneg, -⟩ := ratio_unit held
    have widest := jittered ratio ⟨ratio, held, by linarith, le_rfl⟩
    rw [exact_] at widest
    exact (inLongLong_iff (jittered_nonneg base cap _ (by linarith))).mp widest

theorem neverCollapses_iff : policy.NeverCollapses ↔
    policy.opts.maxAttempts.toInt < 2 ∨ policy.FitsAtLast := by
  constructor
  · intro never
    rcases lt_or_ge policy.opts.maxAttempts.toInt 2 with few | some_
    · exact .inl few
    · exact .inr (fits_of_neverCollapses base cap some_ never)
  · rintro (few | fits)
    · constructor
      · intro attempt second last
        omega
      · intro first second start le last
        omega
    · exact neverCollapses_of_fits base cap fits

end Collapse

/-- The backoff never collapses exactly when the last attempt's product is in range, and its cap
with the widest jitter is too. -/
theorem backoff_never_collapses_iff (opts : RetryOptions) (base : 0 ≤ opts.baseBackoff.toInt)
    (cap : 0 ≤ opts.maxBackoff.toInt) :
    (new opts).NeverCollapses ↔
      opts.maxAttempts.toInt < 2 ∨
        (opts.baseBackoff.toInt : ℚ) * 2 ^ (opts.maxAttempts.toInt - 2) < 2 ^ 63 ∧
          ∀ ratio, clampRatio opts.jitterRatio = .finite ratio →
            min ((opts.baseBackoff.toInt : ℚ) * 2 ^ (opts.maxAttempts.toInt - 2))
              opts.maxBackoff.toInt * (1 + ratio) < 2 ^ 63 := by
  have least : 0 ≤ (new opts).opts.baseBackoff.toInt := base
  have exact_ := neverCollapses_iff least cap
  rcases lt_or_ge opts.maxAttempts.toInt 2 with few | some_
  · have clamped : (new opts).opts.maxAttempts.toInt < 2 := by
      show (clampAttempts opts.maxAttempts).toInt < 2
      unfold clampAttempts
      split
      · decide
      · exact few
    exact ⟨fun _ => .inl few, fun _ => exact_.mpr (.inl clamped)⟩
  · have enough : ¬ opts.maxAttempts < 1 := by
      apply Int32.not_lt.mpr
      apply Int32.le_iff_toInt_le.mpr
      exact le_trans (by decide) some_
    have kept : (new opts).opts.maxAttempts = opts.maxAttempts := if_neg enough
    rw [FitsAtLast, capped, exponential, kept] at exact_
    exact exact_

theorem backoff_never_collapses_defaults : (new {}).NeverCollapses := by
  apply (backoff_never_collapses_iff {} (by decide) (by decide)).mpr
  have base : ((5 : Int64).toInt : ℚ) = 5 := by decide
  have attempts : (3 : Int32).toInt - 2 = 1 := by decide
  have cap : ((200 : Int64).toInt : ℚ) = 200 := by decide
  right
  show ((5 : Int64).toInt : ℚ) * 2 ^ ((3 : Int32).toInt - 2) < 2 ^ 63 ∧ ∀ ratio, _ →
    min (((5 : Int64).toInt : ℚ) * 2 ^ ((3 : Int32).toInt - 2)) ((200 : Int64).toInt : ℚ) *
      (1 + ratio) < 2 ^ 63
  rw [base, attempts, cap]
  constructor
  · norm_num
  · intro ratio held
    have kept : (new {}).opts.jitterRatio = .finite ratio := held
    obtain ⟨-, unit⟩ := ratio_unit kept
    norm_num
    linarith

/-- The cap comes after a product that no `long long` holds. -/
theorem backoff_collapses_at_63 : ¬ (new { maxAttempts := 63 }).NeverCollapses := by
  intro never
  have inside := (never.1 63 (by decide) (by decide)).1
  have base : (0 : Int) ≤ (new { maxAttempts := 63 }).opts.baseBackoff.toInt := by decide
  have small := (inLongLong_iff (exponential_nonneg base 63)).mp inside
  have product : (new { maxAttempts := 63 }).exponential 63 = 5 * 2 ^ 61 := by
    have five : ((new { maxAttempts := 63 }).opts.baseBackoff.toInt : ℚ) = 5 := by decide
    rw [exponential, five]
    norm_num
  rw [product] at small
  norm_num at small

end RetryPolicy

end Chmicro.Resilience
