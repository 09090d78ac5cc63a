import Mathlib
import Chmicro.RetryBackoff

set_option autoImplicit false

namespace Chmicro.Resilience.RetryPolicy

open Truncation

variable {policy : RetryPolicy}

section Envelope

variable (base : 0 ≤ policy.opts.baseBackoff.toInt) (cap : 0 ≤ policy.opts.maxBackoff.toInt)
  (room : policy.opts.maxBackoff.toInt < 2 ^ 62)

include base cap room

/-- A cap below half the range leaves room for any jitter. -/
theorem capped_fits (attempt : Int) {jitter : ℚ} (high : jitter ≤ 1) :
    policy.capped attempt * (1 + jitter) < 2 ^ 63 := by
  have nonneg := capped_nonneg base cap attempt
  have below : policy.capped attempt < 2 ^ 62 := by
    have wide : ((policy.opts.maxBackoff.toInt : Int) : ℚ) < 2 ^ 62 := by exact_mod_cast room
    exact lt_of_le_of_lt (policy.capped_le attempt) wide
  have doubled : policy.capped attempt * (1 + jitter) ≤ policy.capped attempt * 2 := by
    apply mul_le_mul_of_nonneg_left _ nonneg
    linarith
  linarith

theorem envelope {attempt : Int} (second : 2 ≤ attempt)
    (bound : policy.exponential attempt < 2 ^ 63) {ratio jitter : ℚ}
    (held : policy.opts.jitterRatio = .finite ratio) (low : -ratio ≤ jitter) (high : jitter ≤ ratio) :
    ∃ late, policy.backoffBeforeAttempt attempt jitter = some late ∧
      truncate (policy.capped attempt * (1 - ratio)) ≤ late ∧
      late ≤ truncate (policy.capped attempt * (1 + ratio)) ∧
      0 ≤ late ∧ late ≤ policy.opts.maxBackoff.toInt := by
  obtain ⟨nonneg, unit⟩ := ratio_unit held
  have here := capped_nonneg base cap attempt
  have fits := capped_fits base cap room attempt (le_trans high unit)
  have value := backoff_eq base cap second bound (by linarith) fits
  have least : policy.capped attempt * (1 - ratio) ≤ policy.capped attempt * (1 + jitter) := by
    apply mul_le_mul_of_nonneg_left _ here
    linarith
  have most : policy.capped attempt * (1 + jitter) ≤ policy.capped attempt * (1 + ratio) := by
    apply mul_le_mul_of_nonneg_left _ here
    linarith
  have undercap : truncate (policy.capped attempt * (1 - ratio)) ≤
      policy.opts.maxBackoff.toInt := by
    have shrinks : policy.capped attempt * (1 - ratio) ≤ policy.opts.maxBackoff.toInt := by
      have le := policy.capped_le attempt
      have less : policy.capped attempt * (1 - ratio) ≤ policy.capped attempt * 1 := by
        apply mul_le_mul_of_nonneg_left _ here
        linarith
      linarith
    have le := truncate_mono shrinks
    rw [truncate_intCast] at le
    exact le
  have positive : 0 ≤ truncate (policy.capped attempt * (1 + jitter)) :=
    truncate_nonneg (jittered_nonneg base cap attempt (by linarith))
  refine ⟨_, value, le_min (truncate_mono least) undercap, ?_, le_min positive cap, min_le_right _ _⟩
  exact le_trans (min_le_left _ _) (truncate_mono most)

/-- Under one draw, a later attempt never waits less than an earlier one. -/
theorem backoff_mono {first second : Int} (le : first ≤ second)
    (bound : policy.exponential second < 2 ^ 63) {jitter : ℚ} (low : -1 ≤ jitter)
    (high : jitter ≤ 1) {early late : Int}
    (before : policy.backoffBeforeAttempt first jitter = some early)
    (after : policy.backoffBeforeAttempt second jitter = some late) : early ≤ late := by
  rcases le_or_gt second 1 with one | twoSecond
  · rw [backoffBeforeAttempt, if_pos (le_trans le one)] at before
    rw [backoffBeforeAttempt, if_pos one] at after
    obtain rfl : early = late := Option.some.inj (before.symm.trans after)
    exact le_rfl
  have last := backoff_eq base cap twoSecond bound low (capped_fits base cap room second high)
  obtain rfl : _ = late := Option.some.inj (last.symm.trans after)
  rcases le_or_gt first 1 with one | twoFirst
  · rw [backoffBeforeAttempt, if_pos one] at before
    obtain rfl : 0 = early := Option.some.inj before
    exact le_min (truncate_nonneg (jittered_nonneg base cap second low)) cap
  have start := backoff_eq base cap twoFirst (lt_of_le_of_lt (exponential_mono base le) bound) low
    (capped_fits base cap room first high)
  obtain rfl : _ = early := Option.some.inj (start.symm.trans before)
  apply min_le_min_right
  apply truncate_mono
  exact mul_le_mul_of_nonneg_right (capped_mono base le) (by linarith)

/-- Whatever the attempt, there is a backoff between zero and the cap. -/
theorem backoff_within {attempt : Int} (bound : policy.exponential attempt < 2 ^ 63) {jitter : ℚ}
    (low : -1 ≤ jitter) (high : jitter ≤ 1) :
    ∃ delay, policy.backoffBeforeAttempt attempt jitter = some delay ∧ 0 ≤ delay ∧
      delay ≤ policy.opts.maxBackoff.toInt := by
  rcases le_or_gt attempt 1 with one | second
  · exact ⟨0, if_pos one, le_rfl, cap⟩
  · have value := backoff_eq base cap second bound low (capped_fits base cap room attempt high)
    have positive := truncate_nonneg (jittered_nonneg base cap attempt low)
    refine ⟨_, value, le_min positive cap, ?_⟩
    exact min_le_right _ _

end Envelope

theorem clampRatio_number {ratio : Double} (number : ratio ≠ .nan) :
    ∃ clamped, clampRatio ratio = .finite clamped := by
  have sanitised := clampRatio_sanitised ratio
  cases ratio with
  | nan => exact absurd rfl number
  | negInfinity => exact ⟨0, rfl⟩
  | infinity => exact ⟨1, rfl⟩
  | finite value =>
      unfold clampRatio
      dsimp only
      split_ifs
      · exact ⟨1, rfl⟩
      · exact ⟨0, rfl⟩
      · exact ⟨1, rfl⟩
      · exact ⟨value, rfl⟩

theorem backoff_envelope (opts : RetryOptions) (number : opts.jitterRatio ≠ .nan)
    (base : 0 ≤ opts.baseBackoff.toInt) (cap : 0 ≤ opts.maxBackoff.toInt)
    (room : opts.maxBackoff.toInt < 2 ^ 62) {first second : Int} (le : first ≤ second)
    (bound : (opts.baseBackoff.toInt : ℚ) * 2 ^ (second - 2) < 2 ^ 63) :
    ∃ ratio, clampRatio opts.jitterRatio = .finite ratio ∧
      ∀ jitter, -ratio ≤ jitter → jitter ≤ ratio →
        ∃ early late, (new opts).backoffBeforeAttempt first jitter = some early ∧
          (new opts).backoffBeforeAttempt second jitter = some late ∧ early ≤ late ∧
          0 ≤ late ∧ late ≤ opts.maxBackoff.toInt ∧
          (2 ≤ second →
            truncate (min ((opts.baseBackoff.toInt : ℚ) * 2 ^ (second - 2))
              opts.maxBackoff.toInt * (1 - ratio)) ≤ late ∧
            late ≤ truncate (min ((opts.baseBackoff.toInt : ℚ) * 2 ^ (second - 2))
              opts.maxBackoff.toInt * (1 + ratio))) := by
  obtain ⟨ratio, held⟩ := clampRatio_number number
  refine ⟨ratio, held, fun jitter low high => ?_⟩
  have kept : (new opts).opts.jitterRatio = .finite ratio := held
  have start : 0 ≤ (new opts).opts.baseBackoff.toInt := base
  obtain ⟨least, most⟩ := draws_unit ⟨ratio, kept, low, high⟩
  have before : (new opts).exponential first < 2 ^ 63 :=
    lt_of_le_of_lt (exponential_mono start le) bound
  obtain ⟨early, atFirst, -⟩ := backoff_within start cap room before least most
  obtain ⟨late, atSecond, positive, inside⟩ := backoff_within start cap room bound least most
  refine ⟨early, late, atFirst, atSecond, ?_, positive, inside, fun two => ?_⟩
  · exact backoff_mono start cap room le bound least most atFirst atSecond
  · obtain ⟨value, again, above, below, -⟩ := envelope start cap room two bound kept low high
    obtain rfl : value = late := Option.some.inj (again.symm.trans atSecond)
    exact ⟨above, below⟩

theorem backoff_envelope_defaults :
    ∃ early late, (new {}).backoffBeforeAttempt 2 (1 / 8) = some early ∧
      (new {}).backoffBeforeAttempt 3 (1 / 8) = some late ∧ early ≤ late := by
  have five : ((5 : Int64).toInt : ℚ) = 5 := by decide
  have small : ((5 : Int64).toInt : ℚ) * 2 ^ ((3 : Int) - 2) < 2 ^ 63 := by
    rw [five]
    norm_num
  obtain ⟨ratio, held, all⟩ := backoff_envelope {} (by decide) (by decide) (by decide) (by decide)
    (show (2 : Int) ≤ 3 by decide) small
  have exact_ : clampRatio (.finite (3602879701896397 / 2 ^ 54)) = .finite ratio := held
  norm_num [clampRatio, Double.less, Double.greater] at exact_
  obtain ⟨early, late, before, after, le, -⟩ := all (1 / 8) (by linarith) (by linarith)
  exact ⟨early, late, before, after, le⟩

end Chmicro.Resilience.RetryPolicy
