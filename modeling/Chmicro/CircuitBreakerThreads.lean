import Chmicro.CircuitBreaker
import Chmicro.Transition

set_option autoImplicit false

namespace Chmicro.Resilience

/-- The step a call of `AllowRequest` takes next. A call that loads closed returns without
the mutex. -/
inductive AllowPc where
  | load
  | readClock
  | lock (now : Int)
  | returned (allowed : Bool)
  deriving DecidableEq, Repr

/-- The breaker with the calls of `AllowRequest` under way, and the steady clock. A thread
is inside one call at a time, so threads are told apart by their calls. -/
structure BreakerThreads where
  breaker : CircuitBreaker
  clock : Int
  calls : List AllowPc := []
  deriving DecidableEq

namespace BreakerThreads

inductive Action where
  | advance (nanos : Nat)
  | callAllow
  | allow (call : Nat)
  | success
  | failure
  deriving DecidableEq, Repr

def start (opts : CircuitBreakerOptions) (clock : Int) : BreakerThreads where
  breaker := .new opts
  clock := clock

/-- One step of a call of `AllowRequest`, and what the call does next. -/
def stepAllow (threads : BreakerThreads) : AllowPc → Option (CircuitBreaker × AllowPc)
  | .load =>
      if threads.breaker.state = .closed then some (threads.breaker, .returned true)
      else some (threads.breaker, .readClock)
  | .readClock => some (threads.breaker, .lock threads.clock)
  | .lock now =>
      let (allowed, breaker) := threads.breaker.allowRequestLocked now
      some (breaker, .returned allowed)
  | .returned _ => none

/-- `OnSuccess` and `OnFailure` hold the mutex from their first read to their last write. -/
def step (threads : BreakerThreads) : Action → Option BreakerThreads
  | .advance nanos => some { threads with clock := threads.clock + nanos }
  | .callAllow => some { threads with calls := threads.calls ++ [.load] }
  | .allow call =>
      (threads.calls[call]?).bind fun pc =>
        (threads.stepAllow pc).map fun (breaker, next) =>
          { threads with breaker, calls := threads.calls.set call next }
  | .success => some { threads with breaker := threads.breaker.onSuccess }
  | .failure => some { threads with breaker := threads.breaker.onFailure threads.clock }

end BreakerThreads

/-- Every way a critical section changes the breaker. -/
inductive CircuitBreaker.Effect (breaker : CircuitBreaker) : CircuitBreaker → Prop where
  | same : Effect breaker breaker
  | resets (closed : breaker.state = .closed) :
      Effect breaker { breaker with consecutiveFailures := 0 }
  | fails (closed : breaker.state = .closed)
      (few : breaker.consecutiveFailures + 1 < breaker.opts.consecutiveFailuresToOpen) :
      Effect breaker { breaker with consecutiveFailures := breaker.consecutiveFailures + 1 }
  | opens (now : Int) (closed : breaker.state = .closed)
      (enough : breaker.opts.consecutiveFailuresToOpen ≤ breaker.consecutiveFailures + 1) :
      Effect breaker { breaker with
        state := .open
        consecutiveFailures := breaker.consecutiveFailures + 1
        openedAt := now
        consecutiveSuccesses := 0 }
  | probes (now : Int) (opened : breaker.state = .open)
      (due : ¬ now - breaker.openedAt < breaker.opts.openNanos) :
      Effect breaker { breaker with
        state := .halfOpen
        consecutiveFailures := 0
        consecutiveSuccesses := 0
        halfOpenInflight := 1 }
  | admits (other : breaker.state ≠ .open)
      (room : breaker.halfOpenInflight < breaker.opts.halfOpenMaxInflight) :
      Effect breaker { breaker with halfOpenInflight := breaker.halfOpenInflight + 1 }
  | counts (half : breaker.state = .halfOpen)
      (few : breaker.consecutiveSuccesses + 1 < breaker.opts.consecutiveSuccessesToClose) :
      Effect breaker { breaker.releaseSlot with
        consecutiveSuccesses := breaker.consecutiveSuccesses + 1 }
  | closes (half : breaker.state = .halfOpen)
      (enough : breaker.opts.consecutiveSuccessesToClose ≤ breaker.consecutiveSuccesses + 1) :
      Effect breaker { breaker with
        state := .closed
        consecutiveFailures := 0
        consecutiveSuccesses := 0
        halfOpenInflight := 0 }
  | reopens (now : Int) (half : breaker.state = .halfOpen) :
      Effect breaker { breaker with
        state := .open
        openedAt := now
        consecutiveFailures := 0
        consecutiveSuccesses := 0
        halfOpenInflight := 0 }

namespace CircuitBreaker

theorem allowRequestLocked_effect (breaker : CircuitBreaker) (now : Int) :
    Effect breaker (breaker.allowRequestLocked now).2 := by
  by_cases opened : breaker.state = .open
  · by_cases early : now - breaker.openedAt < breaker.opts.openNanos
    · rw [allowRequestLocked_waits opened early]
      exact .same
    · rw [allowRequestLocked_probes opened early]
      exact .probes now opened early
  · by_cases full : breaker.opts.halfOpenMaxInflight ≤ breaker.halfOpenInflight
    · rw [allowRequestLocked_full opened full]
      exact .same
    · rw [allowRequestLocked_admits opened full]
      exact .admits opened (UInt32.not_le.mp full)

theorem onSuccess_effect (breaker : CircuitBreaker) : Effect breaker breaker.onSuccess := by
  cases state : breaker.state with
  | closed =>
      rw [onSuccess_closed state]
      exact .resets state
  | «open» =>
      rw [onSuccess_open state]
      exact .same
  | halfOpen =>
      by_cases enough : breaker.opts.consecutiveSuccessesToClose ≤
          breaker.consecutiveSuccesses + 1
      · rw [onSuccess_closes state enough]
        exact .closes state enough
      · rw [onSuccess_counts state enough]
        exact .counts state (UInt32.not_le.mp enough)

theorem onFailure_effect (breaker : CircuitBreaker) (now : Int) :
    Effect breaker (breaker.onFailure now) := by
  cases state : breaker.state with
  | closed =>
      by_cases enough : breaker.opts.consecutiveFailuresToOpen ≤ breaker.consecutiveFailures + 1
      · rw [onFailure_opens state enough]
        exact .opens now state enough
      · rw [onFailure_counts state enough]
        exact .fails state (UInt32.not_le.mp enough)
  | «open» =>
      rw [onFailure_open state]
      exact .same
  | halfOpen =>
      rw [onFailure_reopens state]
      exact .reopens now state

theorem Effect.opts_eq {breaker after : CircuitBreaker} (effect : Effect breaker after) :
    after.opts = breaker.opts := by
  cases effect with
  | counts half few => exact releaseSlot_opts breaker
  | _ => rfl

end CircuitBreaker

namespace BreakerThreads

/-- Every way the threads move. -/
inductive Moves (threads : BreakerThreads) : Action → BreakerThreads → Prop where
  | advances (nanos : Nat) :
      Moves threads (.advance nanos) { threads with clock := threads.clock + nanos }
  | calls : Moves threads .callAllow { threads with calls := threads.calls ++ [.load] }
  | passes (call : Nat) (at_ : threads.calls[call]? = some .load)
      (closed : threads.breaker.state = .closed) :
      Moves threads (.allow call)
        { threads with calls := threads.calls.set call (.returned true) }
  | loads (call : Nat) (at_ : threads.calls[call]? = some .load)
      (other : threads.breaker.state ≠ .closed) :
      Moves threads (.allow call) { threads with calls := threads.calls.set call .readClock }
  | reads (call : Nat) (at_ : threads.calls[call]? = some .readClock) :
      Moves threads (.allow call)
        { threads with calls := threads.calls.set call (.lock threads.clock) }
  | locks (call : Nat) (now : Int) (at_ : threads.calls[call]? = some (.lock now)) :
      Moves threads (.allow call)
        { threads with
          breaker := (threads.breaker.allowRequestLocked now).2
          calls := threads.calls.set call
            (.returned (threads.breaker.allowRequestLocked now).1) }
  | succeeds : Moves threads .success { threads with breaker := threads.breaker.onSuccess }
  | fails : Moves threads .failure
      { threads with breaker := threads.breaker.onFailure threads.clock }

theorem step_moves {threads after : BreakerThreads} {action : Action}
    (taken : threads.step action = some after) : Moves threads action after := by
  cases action with
  | advance nanos =>
      cases taken
      exact .advances nanos
  | callAllow =>
      cases taken
      exact .calls
  | success =>
      cases taken
      exact .succeeds
  | failure =>
      cases taken
      exact .fails
  | allow call =>
      obtain ⟨pc, at_, moved⟩ := Option.bind_eq_some_iff.mp taken
      obtain ⟨⟨breaker, next⟩, stepped, rfl⟩ := Option.map_eq_some_iff.mp moved
      cases pc with
      | load =>
          simp only [stepAllow] at stepped
          split at stepped
          · rename_i closed
            cases stepped
            exact .passes call at_ closed
          · rename_i other
            cases stepped
            exact .loads call at_ other
      | readClock =>
          cases stepped
          exact .reads call at_
      | lock now =>
          cases stepped
          exact .locks call now at_
      | returned allowed => cases stepped

/-- The critical section of a call that waits for the mutex can always run. -/
theorem step_locks {threads : BreakerThreads} {call : Nat} {now : Int}
    (at_ : threads.calls[call]? = some (.lock now)) :
    threads.step (.allow call) = some
      { threads with
        breaker := (threads.breaker.allowRequestLocked now).2
        calls := threads.calls.set call
          (.returned (threads.breaker.allowRequestLocked now).1) } := by
  simp [step, at_, stepAllow]

/-- Whatever a step is, the breaker changes as one critical section changes it. -/
theorem Moves.effect {threads after : BreakerThreads} {action : Action}
    (moves : Moves threads action after) : threads.breaker.Effect after.breaker := by
  cases moves with
  | locks call now at_ => exact threads.breaker.allowRequestLocked_effect now
  | succeeds => exact threads.breaker.onSuccess_effect
  | fails => exact threads.breaker.onFailure_effect threads.clock
  | advances | calls | passes | loads | reads => exact .same

theorem run_opts {opts : CircuitBreakerOptions} {clock : Int} {actions : List Action}
    {threads : BreakerThreads}
    (reached : Transition.run step (start opts clock) actions = some threads) :
    threads.breaker.opts = opts.clamp :=
  Transition.invariant_always step (fun threads => threads.breaker.opts = opts.clamp)
    (fun _ _ _ same taken => (step_moves taken).effect.opts_eq.trans same) rfl reached

end BreakerThreads

end Chmicro.Resilience
