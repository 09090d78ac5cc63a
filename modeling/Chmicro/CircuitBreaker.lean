import Mathlib.Data.List.Basic

set_option autoImplicit false

namespace Chmicro.Resilience

inductive CircuitState where
  | closed
  | «open»
  | halfOpen
  deriving DecidableEq, Repr

/-- The open interval is in milliseconds, as in the source. -/
structure CircuitBreakerOptions where
  consecutiveFailuresToOpen : UInt32 := 5
  openInterval : Int := 2000
  halfOpenMaxInflight : UInt32 := 1
  consecutiveSuccessesToClose : UInt32 := 2
  deriving DecidableEq, Repr

/-- The options a constructed breaker holds: none of the three counts is zero. -/
structure ClampedOptions extends CircuitBreakerOptions where
  failures_pos : 0 < consecutiveFailuresToOpen
  inflight_pos : 0 < halfOpenMaxInflight
  successes_pos : 0 < consecutiveSuccessesToClose
  deriving DecidableEq

/-- The constructor's replacement of a zero count. -/
def atLeastOne (count : UInt32) : UInt32 :=
  if count = 0 then 1 else count

theorem atLeastOne_pos (count : UInt32) : 0 < atLeastOne count := by
  unfold atLeastOne
  split
  · decide
  · rename_i nonzero
    exact UInt32.pos_iff_ne_zero.mpr nonzero

def CircuitBreakerOptions.clamp (opts : CircuitBreakerOptions) : ClampedOptions where
  consecutiveFailuresToOpen := atLeastOne opts.consecutiveFailuresToOpen
  openInterval := opts.openInterval
  halfOpenMaxInflight := atLeastOne opts.halfOpenMaxInflight
  consecutiveSuccessesToClose := atLeastOne opts.consecutiveSuccessesToClose
  failures_pos := atLeastOne_pos _
  inflight_pos := atLeastOne_pos _
  successes_pos := atLeastOne_pos _

/-- Nanoseconds in one millisecond. The steady clock counts nanoseconds. -/
def nanosPerMilli : Int := 1000000

/-- The open interval as an exact duration on the steady clock. -/
def ClampedOptions.openNanos (opts : ClampedOptions) : Int :=
  opts.openInterval * nanosPerMilli

/-- How a bound of the options is read where the counters are of this type. -/
class ReadsBound (Count : Type) where
  bound : UInt32 → Count

/-- The source counts in unsigned 32-bit words. -/
instance : ReadsBound UInt32 where
  bound count := count

/-- The counters are of a type of the reader's choice, which is the source's own where none is
given. -/
structure CircuitBreaker (Count : Type := UInt32) where
  opts : ClampedOptions
  state : CircuitState
  consecutiveFailures : Count
  consecutiveSuccesses : Count
  openedAt : Int
  halfOpenInflight : Count
  deriving DecidableEq

namespace CircuitBreaker

open ReadsBound

def new (opts : CircuitBreakerOptions) : CircuitBreaker where
  opts := opts.clamp
  state := .closed
  consecutiveFailures := 0
  consecutiveSuccesses := 0
  openedAt := 0
  halfOpenInflight := 0

section Calls

variable {Count : Type} [ReadsBound Count] [OfNat Count 0] [OfNat Count 1] [Add Count] [Sub Count]
  [LE Count] [DecidableLE Count] [LT Count] [DecidableLT Count]

/-- `TryTransitionToHalfOpenLocked`, by the outcome of its comparison: whether the open interval
is still running. -/
def tryTransitionToHalfOpenLocked (breaker : CircuitBreaker Count) (early : Bool) :
    CircuitBreaker Count :=
  if breaker.state ≠ .open then
    breaker
  else if early then
    breaker
  else
    { breaker with
      state := .halfOpen
      consecutiveFailures := 0
      consecutiveSuccesses := 0
      halfOpenInflight := 0 }

/-- The part of `AllowRequest` that holds the mutex, by the outcome of that comparison. -/
def allowLocked (breaker : CircuitBreaker Count) (early : Bool) : Bool × CircuitBreaker Count :=
  let breaker := breaker.tryTransitionToHalfOpenLocked early
  if breaker.state = .open then
    (false, breaker)
  else if breaker.halfOpenInflight ≥ bound breaker.opts.halfOpenMaxInflight then
    (false, breaker)
  else
    (true, { breaker with halfOpenInflight := breaker.halfOpenInflight + 1 })

/-- `AllowRequest` as one atomic call. A closed breaker never takes the mutex. -/
def allow (breaker : CircuitBreaker Count) (early : Bool) : Bool × CircuitBreaker Count :=
  if breaker.state = .closed then
    (true, breaker)
  else
    breaker.allowLocked early

/-- The comparison of the exact durations. -/
def early (breaker : CircuitBreaker Count) (now : Int) : Bool :=
  now - breaker.openedAt < breaker.opts.openNanos

/-- The clock was read before the mutex was taken. -/
def allowRequestLocked (breaker : CircuitBreaker Count) (now : Int) :
    Bool × CircuitBreaker Count :=
  breaker.allowLocked (breaker.early now)

def allowRequest (breaker : CircuitBreaker Count) (now : Int) : Bool × CircuitBreaker Count :=
  breaker.allow (breaker.early now)

/-- A callback in half-open gives a slot back when one is taken. -/
def releaseSlot (breaker : CircuitBreaker Count) : CircuitBreaker Count :=
  if breaker.halfOpenInflight > 0 then
    { breaker with halfOpenInflight := breaker.halfOpenInflight - 1 }
  else
    breaker

def onSuccess (breaker : CircuitBreaker Count) : CircuitBreaker Count :=
  match breaker.state with
  | .closed => { breaker with consecutiveFailures := 0 }
  | .halfOpen =>
      let breaker := breaker.releaseSlot
      let breaker := { breaker with consecutiveSuccesses := breaker.consecutiveSuccesses + 1 }
      if breaker.consecutiveSuccesses ≥ bound breaker.opts.consecutiveSuccessesToClose then
        { breaker with
          state := .closed
          consecutiveFailures := 0
          consecutiveSuccesses := 0
          halfOpenInflight := 0 }
      else
        breaker
  -- Success callbacks are ignored while open.
  | .open => breaker

/-- `now` is the clock reading taken where the source takes it, when the breaker opens. -/
def onFailure (breaker : CircuitBreaker Count) (now : Int) : CircuitBreaker Count :=
  match breaker.state with
  | .closed =>
      let breaker := { breaker with consecutiveFailures := breaker.consecutiveFailures + 1 }
      if breaker.consecutiveFailures ≥ bound breaker.opts.consecutiveFailuresToOpen then
        { breaker with
          state := .open
          openedAt := now
          consecutiveSuccesses := 0 }
      else
        breaker
  | .halfOpen =>
      let breaker := breaker.releaseSlot
      { breaker with
        state := .open
        openedAt := now
        consecutiveFailures := 0
        consecutiveSuccesses := 0
        halfOpenInflight := 0 }
  | .open => breaker

end Calls

/- What each call does in each state. Later proofs use these equations and never
unfold a call. -/

theorem toNat_succ_of_lt {count bound : UInt32} (below : count < bound) :
    (count + 1).toNat = count.toNat + 1 := by
  have small := UInt32.lt_iff_toNat_lt.mp below
  have bounded := bound.toNat_lt
  rw [UInt32.toNat_add, UInt32.toNat_one]
  omega

/-- Below its bound, a counter reaches the bound exactly when its next value is the bound. -/
theorem le_succ_iff_of_lt {count bound : UInt32} (below : count < bound) :
    bound ≤ count + 1 ↔ count.toNat + 1 = bound.toNat := by
  have small := UInt32.lt_iff_toNat_lt.mp below
  rw [UInt32.le_iff_toNat_le, toNat_succ_of_lt below]
  omega

theorem succ_lt_of_not_le {count bound : UInt32} (few : ¬ bound ≤ count + 1) :
    count + 1 < bound :=
  UInt32.not_le.mp few

@[simp] theorem releaseSlot_opts (breaker : CircuitBreaker) :
    breaker.releaseSlot.opts = breaker.opts := by
  unfold releaseSlot
  split <;> rfl

@[simp] theorem releaseSlot_state (breaker : CircuitBreaker) :
    breaker.releaseSlot.state = breaker.state := by
  unfold releaseSlot
  split <;> rfl

@[simp] theorem releaseSlot_consecutiveFailures (breaker : CircuitBreaker) :
    breaker.releaseSlot.consecutiveFailures = breaker.consecutiveFailures := by
  unfold releaseSlot
  split <;> rfl

@[simp] theorem releaseSlot_consecutiveSuccesses (breaker : CircuitBreaker) :
    breaker.releaseSlot.consecutiveSuccesses = breaker.consecutiveSuccesses := by
  unfold releaseSlot
  split <;> rfl

@[simp] theorem releaseSlot_openedAt (breaker : CircuitBreaker) :
    breaker.releaseSlot.openedAt = breaker.openedAt := by
  unfold releaseSlot
  split <;> rfl

/-- Giving a slot back stops at zero. -/
theorem releaseSlot_inflight (breaker : CircuitBreaker) :
    breaker.releaseSlot.halfOpenInflight.toNat = breaker.halfOpenInflight.toNat - 1 := by
  unfold releaseSlot
  split
  · rename_i taken
    have positive : 1 ≤ breaker.halfOpenInflight.toNat := UInt32.lt_iff_toNat_lt.mp taken
    exact UInt32.toNat_sub_of_le _ _ (UInt32.le_iff_toNat_le.mpr positive)
  · rename_i free
    have zero : ¬ 0 < breaker.halfOpenInflight.toNat := fun h => free (UInt32.lt_iff_toNat_lt.mpr h)
    omega

theorem allowRequestLocked_waits {breaker : CircuitBreaker} (opened : breaker.state = .open)
    {now : Int} (early : now - breaker.openedAt < breaker.opts.openNanos) :
    breaker.allowRequestLocked now = (false, breaker) := by
  simp [allowRequestLocked, allowLocked, tryTransitionToHalfOpenLocked, CircuitBreaker.early,
    opened, early]

/-- The request that finds the interval over is the first probe. -/
theorem allowRequestLocked_probes {breaker : CircuitBreaker} (opened : breaker.state = .open)
    {now : Int} (due : ¬ now - breaker.openedAt < breaker.opts.openNanos) :
    breaker.allowRequestLocked now =
      (true, { breaker with
        state := .halfOpen
        consecutiveFailures := 0
        consecutiveSuccesses := 0
        halfOpenInflight := 1 }) := by
  have room : ¬ breaker.opts.halfOpenMaxInflight ≤ 0 :=
    UInt32.not_le.mpr breaker.opts.inflight_pos
  simp [allowRequestLocked, allowLocked, tryTransitionToHalfOpenLocked, CircuitBreaker.early,
    bound, opened, due, room]

/-- The slots are looked at in half-open, and also when the breaker has closed by then. -/
theorem allowRequestLocked_full {breaker : CircuitBreaker} (other : breaker.state ≠ .open)
    (full : breaker.opts.halfOpenMaxInflight ≤ breaker.halfOpenInflight) (now : Int) :
    breaker.allowRequestLocked now = (false, breaker) := by
  simp [allowRequestLocked, allowLocked, tryTransitionToHalfOpenLocked, bound, other, full]

theorem allowRequestLocked_admits {breaker : CircuitBreaker} (other : breaker.state ≠ .open)
    (room : ¬ breaker.opts.halfOpenMaxInflight ≤ breaker.halfOpenInflight) (now : Int) :
    breaker.allowRequestLocked now =
      (true, { breaker with halfOpenInflight := breaker.halfOpenInflight + 1 }) := by
  simp [allowRequestLocked, allowLocked, tryTransitionToHalfOpenLocked, bound, other, room]

theorem allowRequest_closed {breaker : CircuitBreaker} (closed : breaker.state = .closed)
    (now : Int) : breaker.allowRequest now = (true, breaker) := by
  simp only [allowRequest, allow, closed, ↓reduceIte]

theorem allowRequest_locked {breaker : CircuitBreaker} (other : breaker.state ≠ .closed)
    (now : Int) : breaker.allowRequest now = breaker.allowRequestLocked now := by
  simp only [allowRequest, allow, allowRequestLocked, other, ↓reduceIte]

theorem allowRequest_waits {breaker : CircuitBreaker} (opened : breaker.state = .open)
    {now : Int} (early : now - breaker.openedAt < breaker.opts.openNanos) :
    breaker.allowRequest now = (false, breaker) := by
  rw [allowRequest_locked (by simp [opened])]
  exact allowRequestLocked_waits opened early

theorem allowRequest_probes {breaker : CircuitBreaker} (opened : breaker.state = .open)
    {now : Int} (due : ¬ now - breaker.openedAt < breaker.opts.openNanos) :
    breaker.allowRequest now =
      (true, { breaker with
        state := .halfOpen
        consecutiveFailures := 0
        consecutiveSuccesses := 0
        halfOpenInflight := 1 }) := by
  rw [allowRequest_locked (by simp [opened])]
  exact allowRequestLocked_probes opened due

theorem allowRequest_full {breaker : CircuitBreaker} (half : breaker.state = .halfOpen)
    (full : breaker.opts.halfOpenMaxInflight ≤ breaker.halfOpenInflight) (now : Int) :
    breaker.allowRequest now = (false, breaker) := by
  rw [allowRequest_locked (by simp [half])]
  exact allowRequestLocked_full (by simp [half]) full now

theorem allowRequest_admits {breaker : CircuitBreaker} (half : breaker.state = .halfOpen)
    (room : ¬ breaker.opts.halfOpenMaxInflight ≤ breaker.halfOpenInflight) (now : Int) :
    breaker.allowRequest now =
      (true, { breaker with halfOpenInflight := breaker.halfOpenInflight + 1 }) := by
  rw [allowRequest_locked (by simp [half])]
  exact allowRequestLocked_admits (by simp [half]) room now

theorem onSuccess_closed {breaker : CircuitBreaker} (closed : breaker.state = .closed) :
    breaker.onSuccess = { breaker with consecutiveFailures := 0 } := by
  simp only [onSuccess, closed]

theorem onSuccess_open {breaker : CircuitBreaker} (opened : breaker.state = .open) :
    breaker.onSuccess = breaker := by
  simp only [onSuccess, opened]

theorem onSuccess_closes {breaker : CircuitBreaker} (half : breaker.state = .halfOpen)
    (enough : breaker.opts.consecutiveSuccessesToClose ≤ breaker.consecutiveSuccesses + 1) :
    breaker.onSuccess =
      { breaker with
        state := .closed
        consecutiveFailures := 0
        consecutiveSuccesses := 0
        halfOpenInflight := 0 } := by
  simp [onSuccess, bound, half, enough]

theorem onSuccess_counts {breaker : CircuitBreaker} (half : breaker.state = .halfOpen)
    (few : ¬ breaker.opts.consecutiveSuccessesToClose ≤ breaker.consecutiveSuccesses + 1) :
    breaker.onSuccess =
      { breaker.releaseSlot with
        consecutiveSuccesses := breaker.consecutiveSuccesses + 1 } := by
  simp [onSuccess, bound, half, few]

theorem onFailure_opens {breaker : CircuitBreaker} (closed : breaker.state = .closed)
    (enough : breaker.opts.consecutiveFailuresToOpen ≤ breaker.consecutiveFailures + 1)
    (now : Int) :
    breaker.onFailure now =
      { breaker with
        state := .open
        consecutiveFailures := breaker.consecutiveFailures + 1
        openedAt := now
        consecutiveSuccesses := 0 } := by
  simp [onFailure, bound, closed, enough]

theorem onFailure_counts {breaker : CircuitBreaker} (closed : breaker.state = .closed)
    (few : ¬ breaker.opts.consecutiveFailuresToOpen ≤ breaker.consecutiveFailures + 1)
    (now : Int) :
    breaker.onFailure now =
      { breaker with consecutiveFailures := breaker.consecutiveFailures + 1 } := by
  simp [onFailure, bound, closed, few]

/-- Any failure in half-open opens the breaker again. -/
theorem onFailure_reopens {breaker : CircuitBreaker} (half : breaker.state = .halfOpen)
    (now : Int) :
    breaker.onFailure now =
      { breaker with
        state := .open
        openedAt := now
        consecutiveFailures := 0
        consecutiveSuccesses := 0
        halfOpenInflight := 0 } := by
  simp [onFailure, half]

theorem onFailure_open {breaker : CircuitBreaker} (opened : breaker.state = .open) (now : Int) :
    breaker.onFailure now = breaker := by
  simp only [onFailure, opened]

@[simp] theorem allowRequest_opts (breaker : CircuitBreaker) (now : Int) :
    (breaker.allowRequest now).2.opts = breaker.opts := by
  cases state : breaker.state with
  | closed => rw [allowRequest_closed state]
  | «open» =>
      by_cases early : now - breaker.openedAt < breaker.opts.openNanos
      · rw [allowRequest_waits state early]
      · rw [allowRequest_probes state early]
  | halfOpen =>
      by_cases full : breaker.opts.halfOpenMaxInflight ≤ breaker.halfOpenInflight
      · rw [allowRequest_full state full]
      · rw [allowRequest_admits state full]

@[simp] theorem onSuccess_opts (breaker : CircuitBreaker) :
    breaker.onSuccess.opts = breaker.opts := by
  cases state : breaker.state with
  | closed => rw [onSuccess_closed state]
  | «open» => rw [onSuccess_open state]
  | halfOpen =>
      by_cases enough : breaker.opts.consecutiveSuccessesToClose ≤
          breaker.consecutiveSuccesses + 1
      · rw [onSuccess_closes state enough]
      · rw [onSuccess_counts state enough]
        exact releaseSlot_opts breaker

@[simp] theorem onFailure_opts (breaker : CircuitBreaker) (now : Int) :
    (breaker.onFailure now).opts = breaker.opts := by
  cases state : breaker.state with
  | closed =>
      by_cases enough : breaker.opts.consecutiveFailuresToOpen ≤ breaker.consecutiveFailures + 1
      · rw [onFailure_opens state enough]
      · rw [onFailure_counts state enough]
  | «open» => rw [onFailure_open state]
  | halfOpen => rw [onFailure_reopens state]

end CircuitBreaker

end Chmicro.Resilience
