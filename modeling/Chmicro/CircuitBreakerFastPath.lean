import Chmicro.CircuitBreakerThreads

set_option autoImplicit false

namespace Chmicro.Resilience.BreakerThreads

open Transition

/-- The step is the critical section of a call of `AllowRequest`, and the breaker is closed. -/
def LocksClosed (threads : BreakerThreads) (action : Action) : Prop :=
  threads.breaker.state = .closed ∧ ∃ call, action = .allow call ∧
    ∃ now, threads.calls[call]? = some (.lock now)

/-- A critical section that runs while closed ends as the lock-free path does: the call
returns true and the breaker is untouched. -/
def LikeFastPath (before : BreakerThreads) (action : Action) (after : BreakerThreads) : Prop :=
  before.breaker.state = .closed → ∀ call, action = .allow call →
    (∃ now, before.calls[call]? = some (.lock now)) →
      after.calls[call]? = some (.returned true) ∧ after.breaker = before.breaker

/-- While closed, the critical section treats the breaker as if it were half-open. It either
refuses the request or takes a slot. -/
theorem locks_closed {threads : BreakerThreads} {call : Nat} {now : Int}
    (at_ : threads.calls[call]? = some (.lock now)) (closed : threads.breaker.state = .closed) :
    ∃ after, threads.step (.allow call) = some after ∧
      (after.calls[call]? = some (.returned true) ↔
        threads.breaker.halfOpenInflight < threads.breaker.opts.halfOpenMaxInflight) ∧
      (after.breaker = threads.breaker ↔
        ¬ threads.breaker.halfOpenInflight < threads.breaker.opts.halfOpenMaxInflight) := by
  have other : threads.breaker.state ≠ .open := by simp [closed]
  obtain ⟨inside, -⟩ := List.getElem?_eq_some_iff.mp at_
  refine ⟨_, step_locks at_, ?_⟩
  by_cases room : threads.breaker.halfOpenInflight < threads.breaker.opts.halfOpenMaxInflight
  · have taken : threads.breaker.halfOpenInflight + 1 ≠ threads.breaker.halfOpenInflight := by
      intro same
      have next := CircuitBreaker.toNat_succ_of_lt room
      rw [same] at next
      omega
    have changed : { threads.breaker with
        halfOpenInflight := threads.breaker.halfOpenInflight + 1 } ≠ threads.breaker :=
      fun same => taken (congrArg CircuitBreaker.halfOpenInflight same)
    rw [CircuitBreaker.allowRequestLocked_admits other (UInt32.not_le.mpr room)]
    simp [inside, room, changed]
  · have full := UInt32.not_lt.mp room
    rw [CircuitBreaker.allowRequestLocked_full other full]
    simp [inside, room]

/-- No critical section that runs while closed ends as the lock-free path does. A run is free
of the difference just when it has no such critical section. -/
theorem like_fast_path_iff (opts : CircuitBreakerOptions) (clock : Int) (actions : List Action) :
    Along step LikeFastPath (start opts clock) actions ↔
      Meets step (fun threads action => ¬ LocksClosed threads action) (start opts clock) actions := by
  apply along_iff_meets step (fun _ => True) _ _ (fun _ _ _ _ _ _ => trivial) _ trivial
  intro threads action _
  constructor
  · rintro alike ⟨closed, call, rfl, now, at_⟩
    obtain ⟨after, taken, returns, unchanged⟩ := locks_closed at_ closed
    obtain ⟨allowed, same⟩ := alike after taken closed call rfl ⟨now, at_⟩
    exact unchanged.mp same (returns.mp allowed)
  · intro never after _ closed call same waiting
    exact (never ⟨closed, call, same, waiting⟩).elim

/-- One failure opens this breaker, one success closes it, and it may be probed at once. -/
def touchyOptions : CircuitBreakerOptions where
  consecutiveFailuresToOpen := 1
  openInterval := 0
  consecutiveSuccessesToClose := 1

/-- The breaker opens, two calls load open, a third call is the probe whose success closes it,
and the two take the mutex only then. -/
def staleLoads : List Action :=
  [.failure, .callAllow, .callAllow, .callAllow, .allow 0, .allow 1, .allow 2, .allow 0, .allow 1,
    .allow 2, .allow 2, .success, .allow 0, .allow 1]

/-- The closed breaker refuses one of the two calls, and the other one has taken a slot. -/
theorem closed_breaker_refuses :
    ∃ before after, run step (start touchyOptions 0) (staleLoads.take 12) = some before ∧
      run step before (staleLoads.drop 12) = some after ∧
      before.breaker.state = .closed ∧ after.breaker.state = .closed ∧
      before.calls[0]? = some (.lock 0) ∧ before.calls[1]? = some (.lock 0) ∧
      after.calls[0]? = some (.returned true) ∧ after.calls[1]? = some (.returned false) ∧
      after.breaker ≠ before.breaker :=
  ⟨_, _, rfl, rfl, rfl, rfl, rfl, rfl, rfl, rfl, by decide⟩

end Chmicro.Resilience.BreakerThreads
