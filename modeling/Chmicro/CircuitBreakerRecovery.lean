import Chmicro.CircuitBreakerBounds
import Chmicro.CircuitBreakerSlots

set_option autoImplicit false

namespace Chmicro.Resilience.BreakerClients

open Transition

/-- What the breaker is in, whoever schedules its calls. -/
structure Sound (clients : BreakerClients) : Prop where
  covered : Covered clients
  bounded : clients.threads.breaker.Bounded

/-- A report of success, of whichever request. -/
def Action.succeeds : Action → Bool
  | .success _ => true
  | _ => false

def Action.reports : Action → Bool
  | .success _ | .failure _ => true
  | _ => false

/-- The threads of the clients take a step of their own. -/
theorem step_threads {clients after : BreakerClients} {action : Action}
    (taken : clients.step action = some after) :
    ∃ own, clients.threads.step own = some after.threads := by
  cases action with
  | advance | callAllow | allow =>
      simp only [step, Option.map_eq_some_iff] at taken
      obtain ⟨threads, moved, rfl⟩ := taken
      exact ⟨_, moved⟩
  | success | failure =>
      obtain ⟨threads, episode, moved, -, rfl⟩ := callback_eq_some taken
      exact ⟨_, moved⟩

theorem Sound.step {clients after : BreakerClients} {action : Action} (sound : Sound clients)
    (taken : clients.step action = some after) : Sound after := by
  obtain ⟨own, moved⟩ := step_threads taken
  exact ⟨sound.covered.step taken, sound.bounded.effect (BreakerThreads.step_moves moved).effect⟩

theorem Sound.run {clients after : BreakerClients} {actions : List Action} (sound : Sound clients)
    (reached : Transition.run BreakerClients.step clients actions = some after) : Sound after :=
  invariant_always BreakerClients.step Sound (fun _ _ _ sound taken => sound.step taken) sound
    reached

section Call

variable {clients : BreakerClients}

/-- The threads with one more call, which has read the clock and waits for the mutex. -/
def waiting (threads : BreakerThreads) : BreakerThreads :=
  { threads with calls := threads.calls ++ [.lock threads.clock] }

end Call

/-- What a continuation does to close the breaker: no request fails, and so many calls begin, so
many requests are admitted and so many report success, at most. -/
structure Spares (bound : Nat) (clients : BreakerClients) (more : List Action)
    (after : BreakerClients) : Prop where
  failures : ∀ id, .failure id ∉ more
  calls : more.count .callAllow ≤ bound
  successes : more.countP Action.succeeds ≤ bound
  admitted : after.requests.length ≤ clients.requests.length + bound

theorem Spares.append {clients between after : BreakerClients} {first more : List Action}
    {few rest : Nat} (early : Spares few clients first between)
    (late : Spares rest between more after) : Spares (few + rest) clients (first ++ more) after where
  failures := by
    intro id member
    rcases List.mem_append.mp member with before | later
    · exact early.failures id before
    · exact late.failures id later
  calls := by
    rw [List.count_append]
    exact Nat.add_le_add early.calls late.calls
  successes := by
    rw [List.countP_append]
    exact Nat.add_le_add early.successes late.successes
  admitted := by
    have before := early.admitted
    have later := late.admitted
    omega

/-- The breaker closes in some continuation that does no more than that. -/
def Recovers (bound : Nat) (clients : BreakerClients) : Prop :=
  ∃ more after, run step clients more = some after ∧ after.threads.breaker.state = .closed ∧
    Spares bound clients more after

section Recovers

variable {clients : BreakerClients}

/-- What recovers after a few actions. -/
theorem Recovers.after {first : List Action} {next : BreakerClients} {few bound : Nat}
    (recovers : Recovers bound next) (reached : run step clients first = some next)
    (spares : Spares few clients first next) : Recovers (few + bound) clients := by
  obtain ⟨more, after, ran, closed, late⟩ := recovers
  refine ⟨first ++ more, after, ?_, closed, spares.append late⟩
  rw [run_append, reached, Option.bind_some, ran]

theorem Recovers.mono {bound more : Nat} (recovers : Recovers bound clients) (le : bound ≤ more) :
    Recovers more clients := by
  obtain ⟨actions, after, ran, closed, spares⟩ := recovers
  refine ⟨actions, after, ran, closed, spares.failures, spares.calls.trans le,
    spares.successes.trans le, spares.admitted.trans ?_⟩
  omega

/-- Successes that are still missing in half-open. -/
def missing (breaker : CircuitBreaker) : Nat :=
  breaker.opts.consecutiveSuccessesToClose.toNat - breaker.consecutiveSuccesses.toNat

end Recovers

/-- The first failure opens this breaker, and the next call is its one probe. -/
def probing : List Action :=
  [.callAllow, .allow 0, .failure 0, .callAllow, .allow 1, .allow 1, .allow 1]

end Chmicro.Resilience.BreakerClients
