import Chmicro.CircuitBreakerThreads
import Chmicro.ListSet

set_option autoImplicit false

namespace Chmicro.Resilience

/-- A breaker that stays open stays as it is. -/
theorem CircuitBreaker.Effect.stays_open {breaker after : CircuitBreaker}
    (effect : Effect breaker after) (before : breaker.state = .open) (opened : after.state = .open) :
    after = breaker := by
  cases effect with
  | same => rfl
  | probes now due => cases opened
  | closes half | counts half | reopens now half => simp [before] at half
  | resets closed | fails closed | opens now closed => simp [before] at closed
  | admits other => exact (other before).elim

namespace CircuitBreaker

/-- Only a failure opens the breaker, and it notes the time. -/
theorem onFailure_openedAt {breaker : CircuitBreaker} {now : Int}
    (before : breaker.state ≠ .open) (opened : (breaker.onFailure now).state = .open) :
    (breaker.onFailure now).openedAt = now := by
  cases state : breaker.state with
  | closed =>
      by_cases enough : breaker.opts.consecutiveFailuresToOpen ≤ breaker.consecutiveFailures + 1
      · rw [onFailure_opens state enough]
      · simp [onFailure_counts state enough, state] at opened
  | «open» => exact (before state).elim
  | halfOpen => rw [onFailure_reopens state]

theorem allowRequestLocked_not_opens {breaker : CircuitBreaker} {now : Int}
    (before : breaker.state ≠ .open) : (breaker.allowRequestLocked now).2.state ≠ .open := by
  by_cases full : breaker.opts.halfOpenMaxInflight ≤ breaker.halfOpenInflight
  · rw [allowRequestLocked_full before full]
    exact before
  · rw [allowRequestLocked_admits before full]
    exact before

theorem onSuccess_not_opens {breaker : CircuitBreaker} (before : breaker.state ≠ .open) :
    breaker.onSuccess.state ≠ .open := by
  cases state : breaker.state with
  | closed => simp [onSuccess_closed state, state]
  | «open» => exact (before state).elim
  | halfOpen =>
      by_cases enough : breaker.opts.consecutiveSuccessesToClose ≤
          breaker.consecutiveSuccesses + 1
      · simp [onSuccess_closes state enough]
      · simp [onSuccess_counts state enough, state]

/-- An open breaker admits a request just when the interval is over for its clock reading. -/
theorem allowRequestLocked_open {breaker : CircuitBreaker} (opened : breaker.state = .open)
    (now : Int) :
    (breaker.allowRequestLocked now).1 =
      decide (breaker.openedAt + breaker.opts.openNanos ≤ now) := by
  by_cases early : now - breaker.openedAt < breaker.opts.openNanos
  · have before : ¬ breaker.openedAt + breaker.opts.openNanos ≤ now := by omega
    rw [allowRequestLocked_waits opened early]
    simp [before]
  · have due : breaker.openedAt + breaker.opts.openNanos ≤ now := by omega
    rw [allowRequestLocked_probes opened early]
    simp [due]

end CircuitBreaker

namespace BreakerThreads

open Transition

/-- No call waits with a clock reading that lies ahead. -/
def ReadingsPast (threads : BreakerThreads) : Prop :=
  ∀ now, .lock now ∈ threads.calls → now ≤ threads.clock

theorem ReadingsPast.set {threads : BreakerThreads} (past : ReadingsPast threads) {next : AllowPc}
    (ahead : ∀ now, .lock now = next → now ≤ threads.clock) (call : Nat)
    (breaker : CircuitBreaker) :
    ReadingsPast { threads with breaker, calls := threads.calls.set call next } := by
  intro now member
  rcases List.mem_or_eq_of_mem_set member with old | new
  · exact past now old
  · exact ahead now new

theorem ReadingsPast.step {threads after : BreakerThreads} {action : Action}
    (past : ReadingsPast threads) (taken : threads.step action = some after) :
    ReadingsPast after := by
  cases step_moves taken with
  | advances nanos =>
      intro now member
      have before := past now member
      show now ≤ threads.clock + nanos
      omega
  | calls =>
      intro now member
      have old : .lock now ∈ threads.calls := by simpa using member
      exact past now old
  | passes call at_ closed => exact past.set (fun now impossible => by cases impossible) call _
  | loads call at_ other => exact past.set (fun now impossible => by cases impossible) call _
  | reads call at_ =>
      apply past.set
      intro now same
      cases same
      exact Int.le_refl _
  | locks call now at_ => exact past.set (fun now impossible => by cases impossible) call _
  | succeeds => exact past
  | fails => exact past

theorem run_readingsPast {opts : CircuitBreakerOptions} {clock : Int} {actions : List Action}
    {threads : BreakerThreads} (reached : run step (start opts clock) actions = some threads) :
    ReadingsPast threads :=
  invariant_always step ReadingsPast (fun _ _ _ past taken => past.step taken)
    (fun now impossible => by cases impossible) reached

/-- The step that opens the breaker notes the time of the step. -/
theorem opens_at {threads opened : BreakerThreads} {action : Action}
    (taken : threads.step action = some opened) (before : threads.breaker.state ≠ .open)
    (now : opened.breaker.state = .open) :
    opened.clock = threads.clock ∧ opened.breaker.openedAt = threads.clock := by
  cases step_moves taken with
  | fails => exact ⟨rfl, CircuitBreaker.onFailure_openedAt before now⟩
  | locks call reading at_ => exact (CircuitBreaker.allowRequestLocked_not_opens before now).elim
  | succeeds => exact (CircuitBreaker.onSuccess_not_opens before now).elim
  | advances | calls | passes | loads | reads => exact (before now).elim

/-- What holds since the breaker opened, as long as the clock has not passed the interval:
the breaker is untouched, and no call has been admitted. -/
structure Quiet (opened threads : BreakerThreads) : Prop where
  past : ReadingsPast threads
  breaker : threads.breaker = opened.breaker
  calls : ∀ call : Nat, opened.calls[call]? ≠ some (.returned true) →
    threads.calls[call]? ≠ some (.returned true)

theorem Quiet.set {opened threads : BreakerThreads} (quiet : Quiet opened threads) {call : Nat}
    {next : AllowPc} (refused : next ≠ .returned true) :
    ∀ other : Nat, opened.calls[other]? ≠ some (.returned true) →
      (threads.calls.set call next)[other]? ≠ some (.returned true) := by
  intro other unadmitted found
  have before := ListSet.getElem?_of_set found refused
  exact quiet.calls other unadmitted before

theorem Quiet.step {opened threads after : BreakerThreads} {action : Action}
    (quiet : Quiet opened threads) (isOpen : opened.breaker.state = .open)
    (taken : threads.step action = some after)
    (early : after.clock < opened.breaker.openedAt + opened.breaker.opts.openNanos) :
    Quiet opened after := by
  have past := quiet.past.step taken
  have state : threads.breaker.state = .open := by rw [quiet.breaker, isOpen]
  cases step_moves taken with
  | advances nanos => exact ⟨past, quiet.breaker, quiet.calls⟩
  | calls =>
      refine ⟨past, quiet.breaker, fun call unadmitted found => ?_⟩
      have old := ListSet.getElem?_of_concat found (by simp)
      exact quiet.calls call unadmitted old
  | passes call at_ closed => simp [state] at closed
  | loads call at_ other => exact ⟨past, quiet.breaker, quiet.set (by simp)⟩
  | reads call at_ => exact ⟨past, quiet.breaker, quiet.set (by simp)⟩
  | locks call now at_ =>
      have reading := quiet.past now (List.mem_of_getElem? at_)
      have waits : now - threads.breaker.openedAt < threads.breaker.opts.openNanos := by
        rw [quiet.breaker]
        have before : threads.clock < opened.breaker.openedAt + opened.breaker.opts.openNanos :=
          early
        omega
      have refuses := CircuitBreaker.allowRequestLocked_waits state waits
      rw [refuses] at past ⊢
      exact ⟨past, quiet.breaker, quiet.set (by simp)⟩
  | succeeds =>
      have ignored := CircuitBreaker.onSuccess_open state
      rw [ignored] at past ⊢
      exact ⟨past, quiet.breaker, quiet.calls⟩
  | fails =>
      have ignored := CircuitBreaker.onFailure_open state threads.clock
      rw [ignored] at past ⊢
      exact ⟨past, quiet.breaker, quiet.calls⟩

theorem step_clock {threads after : BreakerThreads} {action : Action}
    (taken : threads.step action = some after) : threads.clock ≤ after.clock := by
  cases step_moves taken with
  | advances nanos =>
      show threads.clock ≤ threads.clock + nanos
      omega
  | calls | passes | loads | reads | locks | succeeds | fails => exact Int.le_refl _

theorem run_quiet {opened final : BreakerThreads} {later : List Action}
    (isOpen : opened.breaker.state = .open) (past : ReadingsPast opened)
    (onward : run step opened later = some final)
    (early : final.clock < opened.breaker.openedAt + opened.breaker.opts.openNanos) :
    Quiet opened final := by
  have until_then : final.clock < opened.breaker.openedAt + opened.breaker.opts.openNanos →
      Quiet opened final := by
    apply invariant_always step (fun threads =>
      threads.clock < opened.breaker.openedAt + opened.breaker.opts.openNanos →
        Quiet opened threads) _ _ onward
    · intro threads action after quiet taken soon
      have before := step_clock taken
      exact (quiet (by omega)).step isOpen taken soon
    · intro _
      exact ⟨past, rfl, fun _ unadmitted => unadmitted⟩
  exact until_then early

theorem run_stays_open {opened final : BreakerThreads} {later : List Action}
    (open_ : Meets step (fun threads _ => threads.breaker.state = .open) opened later)
    (onward : run step opened later = some final) (isOpen : final.breaker.state = .open) :
    final.breaker = opened.breaker := by
  induction later generalizing opened with
  | nil =>
      cases onward
      rfl
  | cons action rest ih =>
      obtain ⟨next, taken, remaining⟩ := (run_cons_eq_some step).mp onward
      have still := open_.2 next taken
      have nextOpen : next.breaker.state = .open := by
        cases rest with
        | nil =>
            cases remaining
            exact isOpen
        | cons _ _ => exact still.1
      have same := (step_moves taken).effect.stays_open open_.1 nextOpen
      rw [ih still remaining, same]

/-- From the time the breaker opens, no call is admitted before the interval is over. As long
as it is open, whatever callbacks arrive, a clock reading is late enough from then on. -/
theorem quiet_period (opts : CircuitBreakerOptions) (clock : Int) (actions later : List Action)
    (threads opened final : BreakerThreads) (action : Action)
    (reached : run step (start opts clock) actions = some threads)
    (before : threads.breaker.state ≠ .open) (opens : threads.step action = some opened)
    (isOpen : opened.breaker.state = .open) (onward : run step opened later = some final) :
    (final.clock < threads.clock + opts.clamp.openNanos →
      ∀ call : Nat, opened.calls[call]? ≠ some (.returned true) →
        final.calls[call]? ≠ some (.returned true)) ∧
    (Meets step (fun threads _ => threads.breaker.state = .open) opened later →
      final.breaker.state = .open → ∀ (call : Nat) now, final.calls[call]? = some (.lock now) →
        ∃ after, final.step (.allow call) = some after ∧
          after.calls[call]? =
            some (.returned (decide (threads.clock + opts.clamp.openNanos ≤ now)))) := by
  obtain ⟨sameClock, since⟩ := opens_at opens before isOpen
  have options : opened.breaker.opts = opts.clamp :=
    (step_moves opens).effect.opts_eq.trans (run_opts reached)
  have past := (run_readingsPast reached).step opens
  constructor
  · intro early
    rw [← since, ← options] at early
    exact (run_quiet isOpen past onward early).calls
  · intro stays still call now at_
    have same := run_stays_open stays onward still
    obtain ⟨inside, -⟩ := List.getElem?_eq_some_iff.mp at_
    refine ⟨_, step_locks at_, ?_⟩
    rw [CircuitBreaker.allowRequestLocked_open still, same, since, options]
    simp [inside]

/-- A call loads open and takes the mutex half-way through the interval, after a callback. -/
theorem quiet_period_half_way :
    ∃ opened final, (start { consecutiveFailuresToOpen := 1 } 0).step .failure = some opened ∧
      run step opened [.callAllow, .allow 0, .advance 1000000000, .allow 0, .success, .allow 0] =
        some final ∧
      final.calls[0]? ≠ some (.returned true) :=
  ⟨_, _, rfl, rfl, (quiet_period { consecutiveFailuresToOpen := 1 } 0 []
    [.callAllow, .allow 0, .advance 1000000000, .allow 0, .success, .allow 0] _ _ _ .failure
    rfl (by decide) rfl rfl rfl).1 (by decide) 0 (by decide)⟩

end BreakerThreads

end Chmicro.Resilience
