import Mathlib
import Chmicro.Truncation

set_option autoImplicit false

namespace Chmicro.Resilience

open Truncation

/-- A double whose finite values are taken as exact numbers. -/
inductive Double where
  | nan
  | negInfinity
  | infinity
  | finite (value : ℚ)
  deriving DecidableEq

/-- `<`, which is false of a NaN. -/
def Double.less (double : Double) (bound : ℚ) : Bool :=
  match double with
  | nan | infinity => false
  | negInfinity => true
  | finite value => value < bound

/-- `>`, which is false of a NaN. -/
def Double.greater (double : Double) (bound : ℚ) : Bool :=
  match double with
  | nan | negInfinity => false
  | infinity => true
  | finite value => bound < value

/-- Both durations are in milliseconds. The ratio is the double next to 0.2. -/
structure RetryOptions where
  maxAttempts : Int32 := 3
  baseBackoff : Int64 := 5
  maxBackoff : Int64 := 200
  jitterRatio : Double := .finite (3602879701896397 / 2 ^ 54)

def clampAttempts (attempts : Int32) : Int32 := if attempts < 1 then 1 else attempts

def clampRatio (ratio : Double) : Double :=
  let ratio := if ratio.less 0 then .finite 0 else ratio
  if ratio.greater 1 then .finite 1 else ratio

/-- A ratio that a constructed policy can hold. -/
def Double.Sanitised : Double → Prop
  | nan => True
  | negInfinity | infinity => False
  | finite value => 0 ≤ value ∧ value ≤ 1

theorem clampRatio_sanitised (ratio : Double) : (clampRatio ratio).Sanitised := by
  cases ratio with
  | nan => trivial
  | negInfinity => exact ⟨le_rfl, zero_le_one⟩
  | infinity => exact ⟨zero_le_one, le_rfl⟩
  | finite value =>
      rcases lt_or_ge value 0 with negative | nonneg
      · have unit : ¬ (1 : ℚ) < 0 := by norm_num
        simp [clampRatio, Double.less, Double.greater, Double.Sanitised, negative, unit]
      · rcases lt_or_ge 1 value with above | unit
        · simp [clampRatio, Double.less, Double.greater, Double.Sanitised, above,
            not_lt.mpr nonneg]
        · simp [clampRatio, Double.less, Double.greater, Double.Sanitised, nonneg, unit,
            not_lt.mpr nonneg, not_lt.mpr unit]

structure RetryPolicy where
  opts : RetryOptions
  ratio_sanitised : opts.jitterRatio.Sanitised

namespace RetryPolicy

def new (opts : RetryOptions) : RetryPolicy where
  opts :=
    { opts with
      maxAttempts := clampAttempts opts.maxAttempts
      jitterRatio := clampRatio opts.jitterRatio }
  ratio_sanitised := clampRatio_sanitised opts.jitterRatio

end RetryPolicy

/-- The number is one that a conversion to `long long` is defined for. -/
def InLongLong (x : ℚ) : Prop := -2 ^ 63 ≤ truncate x ∧ truncate x < 2 ^ 63

instance (x : ℚ) : Decidable (InLongLong x) :=
  inferInstanceAs (Decidable (-2 ^ 63 ≤ truncate x ∧ truncate x < 2 ^ 63))

/-- The conversion of a double. Out of range it is undefined, and there is no value. -/
def toLongLong (x : ℚ) : Option Int := if InLongLong x then some (truncate x) else none

namespace RetryPolicy

variable (policy : RetryPolicy)

/-- The argument of the first conversion, the base times `pow(2, attempt - 2)`. -/
def exponential (attempt : Int) : ℚ := policy.opts.baseBackoff.toInt * 2 ^ (attempt - 2)

/-- The delay before the jitter, which the cap is already applied to. -/
def raw (attempt : Int) : Option Int :=
  (toLongLong (policy.exponential attempt)).map (min · policy.opts.maxBackoff.toInt)

/-- The backoff when the distribution yields the jitter. -/
def backoffBeforeAttempt (attempt : Int) (jitter : ℚ) : Option Int :=
  if attempt ≤ 1 then some 0
  else
    (policy.raw attempt).bind fun raw =>
      (toLongLong (raw * (1 + jitter))).map fun jittered =>
        min (max 0 jittered) policy.opts.maxBackoff.toInt

/-- The distribution can yield the jitter. There is no value between two NaNs. -/
def Draws (jitter : ℚ) : Prop :=
  ∃ ratio, policy.opts.jitterRatio = .finite ratio ∧ -ratio ≤ jitter ∧ jitter ≤ ratio

end RetryPolicy

end Chmicro.Resilience
