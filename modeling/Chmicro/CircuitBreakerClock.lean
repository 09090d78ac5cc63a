import Mathlib
import Chmicro.CircuitBreaker

set_option autoImplicit false

namespace Chmicro.Resilience

/-- A breaker whose interval and opening time are the signed 64-bit counts of the source. -/
structure ClockedBreaker extends CircuitBreaker where
  intervalMillis : Int64
  openedNanos : Int64
  interval_eq : opts.openInterval = intervalMillis.toInt
  opened_eq : openedAt = openedNanos.toInt

namespace ClockedBreaker

variable (breaker : ClockedBreaker) (now : Int64)

/-- `now - opened_at_`, in nanoseconds. -/
def elapsed : Int64 := now - breaker.openedNanos

/-- The interval as the comparison converts it to nanoseconds. -/
def intervalNanos : Int64 := breaker.intervalMillis * 1000000

/-- `AllowRequest`, with the comparison made on 64-bit counts. -/
def allowRequest : Bool × CircuitBreaker :=
  breaker.toCircuitBreaker.allow (breaker.elapsed now < breaker.intervalNanos)

end ClockedBreaker

/-- The number of nanoseconds is one that a signed 64-bit count can hold. -/
def InNanos (nanos : Int) : Prop := -2 ^ 63 ≤ nanos ∧ nanos < 2 ^ 63

theorem bmod_of_inNanos {nanos : Int} (inside : InNanos nanos) : nanos.bmod (2 ^ 64) = nanos := by
  obtain ⟨low, high⟩ := inside
  apply Int.bmod_eq_of_le
  · omega
  · omega

namespace ClockedBreaker

variable {breaker : ClockedBreaker} {now : Int64}

theorem elapsed_exact (inside : InNanos (now.toInt - breaker.openedAt)) :
    (breaker.elapsed now).toInt = now.toInt - breaker.openedAt := by
  rw [elapsed, Int64.toInt_sub, ← breaker.opened_eq]
  exact bmod_of_inNanos inside

theorem intervalNanos_exact (inside : InNanos breaker.opts.openNanos) :
    breaker.intervalNanos.toInt = breaker.opts.openNanos := by
  rw [intervalNanos, Int64.toInt_mul, ← breaker.interval_eq]
  exact bmod_of_inNanos inside

/-- Where both counts hold, the comparison is the exact one, and so is the whole call. -/
theorem allowRequest_exact (elapsed_ : InNanos (now.toInt - breaker.openedAt))
    (interval : InNanos breaker.opts.openNanos) :
    breaker.allowRequest now = breaker.toCircuitBreaker.allowRequest now.toInt := by
  have same : breaker.elapsed now < breaker.intervalNanos ↔
      now.toInt - breaker.openedAt < breaker.opts.openNanos := by
    rw [Int64.lt_iff_toInt_lt, elapsed_exact elapsed_, intervalNanos_exact interval]
  rw [allowRequest, CircuitBreaker.allowRequest, CircuitBreaker.early, decide_eq_decide.mpr same]

variable (breaker now) in
/-- An open breaker moves to half-open exactly when the exact interval is over, and both sides of
the comparison are in range. -/
def Honoured : Prop :=
  ((breaker.allowRequest now).2.state = .halfOpen ↔
    breaker.opts.openNanos ≤ now.toInt - breaker.openedAt) ∧
  InNanos (now.toInt - breaker.openedAt) ∧ InNanos breaker.opts.openNanos

theorem halfOpen_iff (opened : breaker.state = .open)
    (elapsed_ : InNanos (now.toInt - breaker.openedAt))
    (interval : InNanos breaker.opts.openNanos) :
    (breaker.allowRequest now).2.state = .halfOpen ↔
      breaker.opts.openNanos ≤ now.toInt - breaker.openedAt := by
  rw [allowRequest_exact elapsed_ interval]
  by_cases early : now.toInt - breaker.openedAt < breaker.opts.openNanos
  · rw [CircuitBreaker.allowRequest_waits opened early]
    simp [opened, early]
  · rw [CircuitBreaker.allowRequest_probes opened early]
    simp [Int.not_lt.mp early]

/-- The interval is honoured exactly when it is at most 9223372036854 milliseconds either way, and
the breaker has been open for less than `2^63` nanoseconds. -/
theorem honoured_iff (breaker : ClockedBreaker) (opened : breaker.state = .open) (now : Int64)
    (later : breaker.openedNanos ≤ now) :
    breaker.Honoured now ↔
      (-9223372036854 ≤ breaker.intervalMillis.toInt ∧
        breaker.intervalMillis.toInt ≤ 9223372036854) ∧
      now.toInt - breaker.openedNanos.toInt < 2 ^ 63 := by
  have ordered : breaker.openedNanos.toInt ≤ now.toInt := Int64.le_iff_toInt_le.mp later
  have elapsed_ : InNanos (now.toInt - breaker.openedAt) ↔
      now.toInt - breaker.openedNanos.toInt < 2 ^ 63 := by
    rw [breaker.opened_eq, InNanos]
    omega
  have interval : InNanos breaker.opts.openNanos ↔ -9223372036854 ≤ breaker.intervalMillis.toInt ∧
      breaker.intervalMillis.toInt ≤ 9223372036854 := by
    rw [ClampedOptions.openNanos, breaker.interval_eq, nanosPerMilli, InNanos]
    omega
  rw [← elapsed_, ← interval, Honoured]
  constructor
  · rintro ⟨-, inElapsed, inInterval⟩
    exact ⟨inInterval, inElapsed⟩
  · rintro ⟨inInterval, inElapsed⟩
    exact ⟨halfOpen_iff opened inElapsed inInterval, inElapsed, inInterval⟩

/-- A breaker that its first failure has opened. -/
def tripped (interval opened : Int64) : ClockedBreaker where
  toCircuitBreaker :=
    (CircuitBreaker.new
      { consecutiveFailuresToOpen := 1, openInterval := interval.toInt }).onFailure opened.toInt
  intervalMillis := interval
  openedNanos := opened
  interval_eq := rfl
  opened_eq := rfl

theorem honoured_after_two_seconds : (tripped 2000 0).Honoured 2000000000 := by
  apply (honoured_iff (tripped 2000 0) rfl 2000000000 (by decide)).mpr
  decide

/-- An interval meant to keep the breaker open wraps to a negative one. -/
theorem stay_open_probes :
    ((tripped Int64.maxValue 0).allowRequest 0).2.state = .halfOpen ∧
      ¬ (tripped Int64.maxValue 0).Honoured 0 := by
  have moved : ((tripped Int64.maxValue 0).allowRequest 0).2.state = .halfOpen := by decide
  refine ⟨moved, fun honoured => ?_⟩
  have due := honoured.1.mp moved
  exact absurd due (by decide)

end ClockedBreaker

end Chmicro.Resilience
