import Chmicro.CircuitBreakerThreads

set_option autoImplicit false

namespace Chmicro.Resilience

instance : ReadsBound Int where
  bound count := count.toNat

/-- The breaker with integers for its counters, which have no width to wrap at. -/
abbrev ExactBreaker := CircuitBreaker Int

namespace CircuitBreaker

def exact (breaker : CircuitBreaker) : ExactBreaker where
  opts := breaker.opts
  state := breaker.state
  consecutiveFailures := breaker.consecutiveFailures.toNat
  consecutiveSuccesses := breaker.consecutiveSuccesses.toNat
  openedAt := breaker.openedAt
  halfOpenInflight := breaker.halfOpenInflight.toNat

/-- What bounds the counters in each state. -/
structure Bounded (breaker : CircuitBreaker) : Prop where
  inflight : breaker.halfOpenInflight ≤ breaker.opts.halfOpenMaxInflight
  closed : breaker.state = .closed →
    breaker.consecutiveFailures < breaker.opts.consecutiveFailuresToOpen ∧
      breaker.consecutiveSuccesses = 0
  opened : breaker.state = .open →
    breaker.consecutiveSuccesses = 0 ∧
      breaker.consecutiveFailures ≤ breaker.opts.consecutiveFailuresToOpen
  halfOpen : breaker.state = .halfOpen →
    breaker.consecutiveFailures = 0 ∧
      breaker.consecutiveSuccesses < breaker.opts.consecutiveSuccessesToClose

section Enter

variable {breaker : CircuitBreaker}

theorem Bounded.of_closed (inflight : breaker.halfOpenInflight ≤ breaker.opts.halfOpenMaxInflight)
    (state : breaker.state = .closed)
    (failures : breaker.consecutiveFailures < breaker.opts.consecutiveFailuresToOpen)
    (successes : breaker.consecutiveSuccesses = 0) : Bounded breaker where
  inflight := inflight
  closed := fun _ => ⟨failures, successes⟩
  opened := fun opened => by simp [state] at opened
  halfOpen := fun half => by simp [state] at half

theorem Bounded.of_open (inflight : breaker.halfOpenInflight ≤ breaker.opts.halfOpenMaxInflight)
    (state : breaker.state = .open) (successes : breaker.consecutiveSuccesses = 0)
    (failures : breaker.consecutiveFailures ≤ breaker.opts.consecutiveFailuresToOpen) :
    Bounded breaker where
  inflight := inflight
  closed := fun closed => by simp [state] at closed
  opened := fun _ => ⟨successes, failures⟩
  halfOpen := fun half => by simp [state] at half

theorem Bounded.of_halfOpen
    (inflight : breaker.halfOpenInflight ≤ breaker.opts.halfOpenMaxInflight)
    (state : breaker.state = .halfOpen) (failures : breaker.consecutiveFailures = 0)
    (successes : breaker.consecutiveSuccesses < breaker.opts.consecutiveSuccessesToClose) :
    Bounded breaker where
  inflight := inflight
  closed := fun closed => by simp [state] at closed
  opened := fun opened => by simp [state] at opened
  halfOpen := fun _ => ⟨failures, successes⟩

end Enter

theorem new_bounded (opts : CircuitBreakerOptions) : Bounded (new opts) :=
  .of_closed UInt32.zero_le rfl opts.clamp.failures_pos rfl

theorem succ_le_of_lt {count bound : UInt32} (below : count < bound) : count + 1 ≤ bound := by
  have small := UInt32.lt_iff_toNat_lt.mp below
  rw [UInt32.le_iff_toNat_le, toNat_succ_of_lt below]
  omega

theorem releaseSlot_le {breaker : CircuitBreaker} {bound : UInt32}
    (within : breaker.halfOpenInflight ≤ bound) : breaker.releaseSlot.halfOpenInflight ≤ bound := by
  have before := UInt32.le_iff_toNat_le.mp within
  have released := releaseSlot_inflight breaker
  rw [UInt32.le_iff_toNat_le]
  omega

theorem Bounded.effect {breaker after : CircuitBreaker} (bounded : Bounded breaker)
    (effect : Effect breaker after) : Bounded after := by
  have inflight := bounded.inflight
  cases effect with
  | same => exact bounded
  | resets closed =>
      have successes := (bounded.closed closed).2
      exact .of_closed inflight closed breaker.opts.failures_pos successes
  | fails closed few =>
      have successes := (bounded.closed closed).2
      exact .of_closed inflight closed few successes
  | opens now closed enough =>
      have reached := succ_le_of_lt (bounded.closed closed).1
      exact .of_open inflight rfl rfl reached
  | probes now opened due =>
      have one : (1 : UInt32) ≤ breaker.opts.halfOpenMaxInflight :=
        succ_le_of_lt breaker.opts.inflight_pos
      exact .of_halfOpen one rfl rfl breaker.opts.successes_pos
  | admits other room =>
      have next := succ_le_of_lt room
      exact ⟨next, bounded.closed, bounded.opened, bounded.halfOpen⟩
  | counts half few =>
      have failures := (bounded.halfOpen half).1
      have within := releaseSlot_le inflight
      apply Bounded.of_halfOpen
      · simpa only [releaseSlot_opts] using within
      · simpa only [releaseSlot_state] using half
      · simpa only [releaseSlot_consecutiveFailures] using failures
      · simpa only [releaseSlot_opts] using few
  | closes half enough => exact .of_closed UInt32.zero_le rfl breaker.opts.failures_pos rfl
  | reopens now half => exact .of_open UInt32.zero_le rfl rfl UInt32.zero_le

end CircuitBreaker

/-- The changes of state there are. -/
inductive StateChange : CircuitState → CircuitState → Prop where
  | opens : StateChange .closed .open
  | probes : StateChange .open .halfOpen
  | closes : StateChange .halfOpen .closed
  | reopens : StateChange .halfOpen .open

namespace CircuitBreaker

theorem Effect.stateChange {breaker after : CircuitBreaker} (effect : Effect breaker after)
    (changed : after.state ≠ breaker.state) : StateChange breaker.state after.state := by
  cases effect with
  | opens now closed enough =>
      rw [closed]
      exact .opens
  | probes now opened due =>
      rw [opened]
      exact .probes
  | closes half enough =>
      rw [half]
      exact .closes
  | reopens now half =>
      rw [half]
      exact .reopens
  | counts half few => exact (changed (releaseSlot_state breaker)).elim
  | same | resets | fails | admits => exact (changed rfl).elim

theorem le_iff_exact {count bound : UInt32} :
    bound ≤ count ↔ (bound.toNat : Int) ≤ count.toNat := by
  rw [UInt32.le_iff_toNat_le]
  omega

theorem exact_succ {count bound : UInt32} (below : count < bound) :
    ((count + 1).toNat : Int) = count.toNat + 1 := by
  have next := toNat_succ_of_lt below
  omega

theorem releaseSlot_exact (breaker : CircuitBreaker) :
    breaker.releaseSlot.exact = breaker.exact.releaseSlot := by
  have released := releaseSlot_inflight breaker
  by_cases taken : 0 < breaker.halfOpenInflight
  · have positive : 0 < breaker.halfOpenInflight.toNat := UInt32.lt_iff_toNat_lt.mp taken
    have held : breaker.exact.halfOpenInflight > 0 := by
      show (breaker.halfOpenInflight.toNat : Int) > 0
      omega
    have given : (breaker.releaseSlot.halfOpenInflight.toNat : Int) =
        breaker.halfOpenInflight.toNat - 1 := by omega
    have gives : breaker.exact.releaseSlot =
        { breaker.exact with halfOpenInflight := breaker.exact.halfOpenInflight - 1 } := if_pos held
    rw [gives]
    simp only [releaseSlot, gt_iff_lt, taken, ↓reduceIte, exact] at given ⊢
    rw [given]
  · have none_ : ¬ breaker.exact.halfOpenInflight > 0 := by
      have zero : ¬ 0 < breaker.halfOpenInflight.toNat :=
        fun positive => taken (UInt32.lt_iff_toNat_lt.mpr positive)
      show ¬ (breaker.halfOpenInflight.toNat : Int) > 0
      omega
    have keeps : breaker.exact.releaseSlot = breaker.exact := if_neg none_
    rw [keeps]
    simp only [releaseSlot, gt_iff_lt, taken, ↓reduceIte]

theorem allowRequestLocked_exact (breaker : CircuitBreaker) (now : Int) :
    (breaker.allowRequestLocked now).2.exact = (breaker.exact.allowRequestLocked now).2 := by
  by_cases opened : breaker.state = .open
  · by_cases early : now - breaker.openedAt < breaker.opts.openNanos
    · rw [allowRequestLocked_waits opened early]
      simp [allowRequestLocked, allowLocked, tryTransitionToHalfOpenLocked, CircuitBreaker.early,
        exact, opened, early]
    · have positive : 0 < breaker.opts.halfOpenMaxInflight.toNat :=
        UInt32.lt_iff_toNat_lt.mp breaker.opts.inflight_pos
      have room : breaker.opts.halfOpenMaxInflight.toNat ≠ 0 := by omega
      rw [allowRequestLocked_probes opened early]
      simp [allowRequestLocked, allowLocked, tryTransitionToHalfOpenLocked, CircuitBreaker.early,
        ReadsBound.bound, exact, opened, early, room]
  · have stays : breaker.exact.tryTransitionToHalfOpenLocked (breaker.exact.early now) =
        breaker.exact := by
      simp [tryTransitionToHalfOpenLocked, exact, opened]
    have other : breaker.exact.state ≠ .open := opened
    by_cases full : breaker.opts.halfOpenMaxInflight ≤ breaker.halfOpenInflight
    · have same : breaker.exact.halfOpenInflight ≥
          ReadsBound.bound breaker.exact.opts.halfOpenMaxInflight :=
        le_iff_exact.mp full
      rw [allowRequestLocked_full opened full]
      simp only [allowRequestLocked, allowLocked, stays, other, same, ↓reduceIte]
    · have same : ¬ breaker.exact.halfOpenInflight ≥
          ReadsBound.bound breaker.exact.opts.halfOpenMaxInflight :=
        mt le_iff_exact.mpr full
      have next := exact_succ (UInt32.not_le.mp full)
      rw [allowRequestLocked_admits opened full]
      simp only [allowRequestLocked, allowLocked, stays, other, same, ↓reduceIte]
      simp only [exact, next]

/-- The success that is counted in half-open is below the bound, so the count goes up by one. -/
theorem onSuccess_exact {breaker : CircuitBreaker} (bounded : Bounded breaker) :
    breaker.onSuccess.exact = breaker.exact.onSuccess := by
  cases state : breaker.state with
  | closed =>
      rw [onSuccess_closed state]
      simp [onSuccess, exact, state]
  | «open» =>
      rw [onSuccess_open state]
      simp [onSuccess, exact, state]
  | halfOpen =>
      have half : breaker.exact.state = .halfOpen := state
      have below := (bounded.halfOpen state).2
      have next := exact_succ below
      have released := releaseSlot_exact breaker
      have count : breaker.releaseSlot.exact.consecutiveSuccesses =
          breaker.consecutiveSuccesses.toNat := by
        simp only [exact, releaseSlot_consecutiveSuccesses]
      have bound : breaker.releaseSlot.exact.opts = breaker.opts := releaseSlot_opts breaker
      by_cases enough : breaker.opts.consecutiveSuccessesToClose ≤
          breaker.consecutiveSuccesses + 1
      · have reached : (breaker.consecutiveSuccesses.toNat : Int) + 1 ≥
            ReadsBound.bound breaker.opts.consecutiveSuccessesToClose :=
          next ▸ le_iff_exact.mp enough
        rw [onSuccess_closes state enough]
        simp only [onSuccess, half, ← released, count, bound, reached, ↓reduceIte]
        simp only [exact, releaseSlot_openedAt]
        rfl
      · have short : ¬ (breaker.consecutiveSuccesses.toNat : Int) + 1 ≥
            ReadsBound.bound breaker.opts.consecutiveSuccessesToClose :=
          next ▸ mt le_iff_exact.mpr enough
        rw [onSuccess_counts state enough]
        simp only [onSuccess, half, ← released, count, bound, short, ↓reduceIte]
        simp only [exact, releaseSlot_opts, next]

theorem onFailure_exact {breaker : CircuitBreaker} (bounded : Bounded breaker) (now : Int) :
    (breaker.onFailure now).exact = breaker.exact.onFailure now := by
  cases state : breaker.state with
  | closed =>
      have closed : breaker.exact.state = .closed := state
      have below := (bounded.closed state).1
      have next := exact_succ below
      by_cases enough : breaker.opts.consecutiveFailuresToOpen ≤ breaker.consecutiveFailures + 1
      · have reached : breaker.exact.consecutiveFailures + 1 ≥
            ReadsBound.bound breaker.exact.opts.consecutiveFailuresToOpen :=
          next ▸ le_iff_exact.mp enough
        rw [onFailure_opens state enough]
        simp only [onFailure, closed, reached, ↓reduceIte]
        simp only [exact, next]
        rfl
      · have short : ¬ breaker.exact.consecutiveFailures + 1 ≥
            ReadsBound.bound breaker.exact.opts.consecutiveFailuresToOpen :=
          next ▸ mt le_iff_exact.mpr enough
        rw [onFailure_counts state enough]
        simp only [onFailure, closed, short, ↓reduceIte]
        simp only [exact, next, state]
  | «open» =>
      rw [onFailure_open state]
      simp [onFailure, exact, state]
  | halfOpen =>
      have half : breaker.exact.state = .halfOpen := state
      have released := releaseSlot_exact breaker
      rw [onFailure_reopens state]
      simp only [onFailure, half, ← released]
      simp [exact]

end CircuitBreaker

namespace BreakerThreads

open Transition

/-- The breaker after a step, computed without a width. -/
def exactStep (threads : BreakerThreads) : Action → ExactBreaker
  | .allow call =>
      match threads.calls[call]? with
      | some (.lock now) => (threads.breaker.exact.allowRequestLocked now).2
      | _ => threads.breaker.exact
  | .success => threads.breaker.exact.onSuccess
  | .failure => threads.breaker.exact.onFailure threads.clock
  | .advance _ | .callAllow => threads.breaker.exact

/-- A step in which no counter wraps and the state changes only as it may. -/
structure Regular (before : BreakerThreads) (action : Action) (after : BreakerThreads) : Prop where
  exact : after.breaker.exact = before.exactStep action
  change : after.breaker.state ≠ before.breaker.state →
    StateChange before.breaker.state after.breaker.state

theorem Moves.regular {threads after : BreakerThreads} {action : Action}
    (moves : Moves threads action after) (bounded : threads.breaker.Bounded) :
    Regular threads action after := by
  refine ⟨?_, moves.effect.stateChange⟩
  cases moves with
  | advances | calls => rfl
  | passes call at_ closed => simp only [exactStep, at_]
  | loads call at_ other => simp only [exactStep, at_]
  | reads call at_ => simp only [exactStep, at_]
  | locks call now at_ =>
      simp only [exactStep, at_]
      exact CircuitBreaker.allowRequestLocked_exact threads.breaker now
  | succeeds => exact CircuitBreaker.onSuccess_exact bounded
  | fails => exact CircuitBreaker.onFailure_exact bounded threads.clock

/-- In every schedule the counters keep their bounds, no counter wraps and the state changes
only along the automaton's edges. -/
theorem counters_bounded (opts : CircuitBreakerOptions) (clock : Int) (actions : List Action)
    (threads : BreakerThreads) (reached : run step (start opts clock) actions = some threads) :
    threads.breaker.opts = opts.clamp ∧ threads.breaker.Bounded ∧
      Along step Regular (start opts clock) actions := by
  have kept : ∀ (before : BreakerThreads) (action : Action) (after : BreakerThreads),
      before.breaker.Bounded → before.step action = some after → after.breaker.Bounded := by
    intro before action after bounded taken
    exact bounded.effect (step_moves taken).effect
  have initial : (start opts clock).breaker.Bounded := CircuitBreaker.new_bounded opts
  have bounded : threads.breaker.Bounded :=
    invariant_always step (fun threads => threads.breaker.Bounded) kept initial reached
  refine ⟨run_opts reached, bounded, ?_⟩
  apply along_of_invariant step (fun _ _ => True) (fun threads => threads.breaker.Bounded)
    (fun before action after bounded _ taken => kept before action after bounded taken) initial
  · intro before action after bounded _ taken
    exact (step_moves taken).regular bounded
  · exact Meets.of_forall step (fun _ _ => trivial) _ _

/-- Failures that open a breaker with the default options. -/
def outage : List Action := [.failure, .failure, .failure, .failure, .failure]

/-- A call that finds the open interval over, or the breaker half-open. -/
def probe (call : Nat) : List Action :=
  [.advance 2000000000, .callAllow, .allow call, .allow call, .allow call]

theorem counters_bounded_default :
    ∃ opened probing threads, run step (start {} 0) outage = some opened ∧
      opened.breaker.state = .open ∧ opened.breaker.consecutiveFailures = 5 ∧
      run step opened (probe 0 ++ [.success]) = some probing ∧
      probing.breaker.state = .halfOpen ∧ probing.breaker.consecutiveSuccesses = 1 ∧
      run step (start {} 0) (outage ++ probe 0 ++ [.success] ++ probe 1 ++ [.success]) =
        some threads ∧ threads.breaker.state = .closed ∧
      threads.breaker.opts = CircuitBreakerOptions.clamp {} ∧ threads.breaker.Bounded ∧
      Along step Regular (start {} 0)
        (outage ++ probe 0 ++ [.success] ++ probe 1 ++ [.success]) :=
  ⟨_, _, _, rfl, rfl, rfl, rfl, rfl, rfl, rfl, rfl,
    counters_bounded {} 0 (outage ++ probe 0 ++ [.success] ++ probe 1 ++ [.success]) _ rfl⟩

end BreakerThreads

end Chmicro.Resilience
