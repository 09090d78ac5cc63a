import Chmicro.CircuitBreakerClients
import Chmicro.CircuitBreakerThreads
import Chmicro.ListSet

set_option autoImplicit false

namespace Chmicro.Resilience

/-- The threads with the history of the requests they admitted, to which the callbacks belong. -/
structure BreakerClients extends History where
  threads : BreakerThreads
  deriving DecidableEq

namespace BreakerClients

open Transition

inductive Action where
  | advance (nanos : Nat)
  | callAllow
  | allow (call : Nat)
  | success (id : Nat)
  | failure (id : Nat)
  deriving DecidableEq, Repr

def start (opts : CircuitBreakerOptions) (clock : Int) : BreakerClients where
  threads := .start opts clock

/-- The step of a call may admit its request, and may begin a half-open episode with it. -/
def allow (clients : BreakerClients) (call : Nat) (threads : BreakerThreads) : BreakerClients :=
  let entered := clients.threads.breaker.state ≠ .halfOpen ∧ threads.breaker.state = .halfOpen
  let admitted := threads.calls[call]? = some (.returned true)
  { clients.record entered admitted with threads }

def callback (clients : BreakerClients) (own : BreakerThreads.Action) (id : Nat)
    (outcome : Outcome) : Option BreakerClients :=
  (clients.threads.step own).bind fun threads =>
    (clients.report id outcome).map fun history => { history with threads }

def step (clients : BreakerClients) : Action → Option BreakerClients
  | .advance nanos =>
      (clients.threads.step (.advance nanos)).map fun threads => { clients with threads }
  | .callAllow => (clients.threads.step .callAllow).map fun threads => { clients with threads }
  | .allow call => (clients.threads.step (.allow call)).map (clients.allow call)
  | .success id => clients.callback .success id .success
  | .failure id => clients.callback .failure id .failure

theorem callback_eq_some {clients next : BreakerClients} {own : BreakerThreads.Action} {id : Nat}
    {outcome : Outcome} (taken : clients.callback own id outcome = some next) :
    ∃ threads episode, clients.threads.step own = some threads ∧
      clients.requests[id]? = some ⟨episode, none⟩ ∧
      next = { clients with
        threads
        requests := clients.requests.set id ⟨episode, some ⟨outcome, clients.episode⟩⟩ } := by
  obtain ⟨threads, moved, reports⟩ := Option.bind_eq_some_iff.mp taken
  obtain ⟨history, reported, rfl⟩ := Option.map_eq_some_iff.mp reports
  obtain ⟨episode, awaited, rfl⟩ := History.report_eq_some reported
  exact ⟨threads, episode, moved, awaited, rfl⟩

/- What becomes of the history when a call has taken a step. -/

section Allow

variable {clients : BreakerClients} {call : Nat} {threads : BreakerThreads}

theorem allow_refused (same : threads.breaker.state = clients.threads.breaker.state)
    (refused : threads.calls[call]? ≠ some (.returned true)) :
    clients.allow call threads = { clients with threads } := by
  have stays : ¬ (clients.threads.breaker.state ≠ .halfOpen ∧
      threads.breaker.state = .halfOpen) := fun entered => entered.1 (same ▸ entered.2)
  simp only [allow, History.record, stays, refused, decide_false, Bool.false_eq_true, ↓reduceIte]

theorem allow_admitted (same : threads.breaker.state = clients.threads.breaker.state)
    (admitted : threads.calls[call]? = some (.returned true)) :
    clients.allow call threads =
      { clients with
        threads
        requests := clients.requests ++ [{ episode := clients.episode }] } := by
  have stays : ¬ (clients.threads.breaker.state ≠ .halfOpen ∧
      threads.breaker.state = .halfOpen) := fun entered => entered.1 (same ▸ entered.2)
  simp only [allow, History.record, stays, admitted, decide_false, decide_true,
    Bool.false_eq_true, ↓reduceIte]

theorem allow_entered (before : clients.threads.breaker.state ≠ .halfOpen)
    (half : threads.breaker.state = .halfOpen)
    (admitted : threads.calls[call]? = some (.returned true)) :
    clients.allow call threads =
      { threads
        episode := clients.episode + 1
        requests := clients.requests ++ [{ episode := clients.episode + 1 }] } := by
  have entered : clients.threads.breaker.state ≠ .halfOpen ∧
      threads.breaker.state = .halfOpen := ⟨before, half⟩
  simp only [allow, History.record, entered, admitted, ne_eq, not_false_eq_true, and_self,
    decide_true, ↓reduceIte]

end Allow

/-- Every slot that is taken in half-open belongs to a request of the episode that has not
reported. -/
def Covered (clients : BreakerClients) : Prop :=
  clients.threads.breaker.state = .halfOpen →
    clients.threads.breaker.halfOpenInflight.toNat ≤ clients.outstanding

/-- A request admitted in half-open takes its slot within the episode. -/
theorem Covered.locks {clients : BreakerClients} (covered : Covered clients) {call : Nat}
    {now : Int} (at_ : clients.threads.calls[call]? = some (.lock now)) :
    Covered (clients.allow call
      { clients.threads with
        breaker := (clients.threads.breaker.allowRequestLocked now).2
        calls := clients.threads.calls.set call
          (.returned (clients.threads.breaker.allowRequestLocked now).1) }) := by
  obtain ⟨inside, -⟩ := List.getElem?_eq_some_iff.mp at_
  by_cases opened : clients.threads.breaker.state = .open
  · by_cases early : now - clients.threads.breaker.openedAt < clients.threads.breaker.opts.openNanos
    · rw [CircuitBreaker.allowRequestLocked_waits opened early, allow_refused]
      · exact covered
      · rfl
      · simp [inside]
    · rw [CircuitBreaker.allowRequestLocked_probes opened early, allow_entered]
      · exact fun _ => History.outstanding_admitted _ (clients.episode + 1)
      · simp [opened]
      · rfl
      · simp [inside]
  · by_cases full : clients.threads.breaker.opts.halfOpenMaxInflight ≤
        clients.threads.breaker.halfOpenInflight
    · rw [CircuitBreaker.allowRequestLocked_full opened full, allow_refused]
      · exact covered
      · rfl
      · simp [inside]
    · have next := CircuitBreaker.toNat_succ_of_lt (UInt32.not_le.mp full)
      rw [CircuitBreaker.allowRequestLocked_admits opened full, allow_admitted]
      · intro half
        have before := covered half
        rw [History.outstanding_concat]
        dsimp only
        omega
      · rfl
      · simp [inside]

/-- A report gives back at most one slot, and the request it belongs to is no longer counted. -/
theorem Covered.counts {clients : BreakerClients} (covered : Covered clients)
    {id episode : Nat} {threads : BreakerThreads} {report : Report}
    (awaited : clients.requests[id]? = some ⟨episode, none⟩)
    (before : clients.threads.breaker.state = .halfOpen)
    (released : threads.breaker.halfOpenInflight.toNat =
      clients.threads.breaker.halfOpenInflight.toNat - 1) :
    Covered { clients with
      threads
      requests := clients.requests.set id ⟨episode, some report⟩ } := by
  intro _
  have enough := covered before
  have reported := History.outstanding_report awaited report
  dsimp only
  split at reported <;> omega

theorem Covered.allow {clients after : BreakerClients} {call : Nat} (covered : Covered clients)
    (taken : clients.step (.allow call) = some after) : Covered after := by
  obtain ⟨threads, moved, rfl⟩ := Option.map_eq_some_iff.mp taken
  cases BreakerThreads.step_moves moved with
  | passes call at_ closed =>
      obtain ⟨inside, -⟩ := List.getElem?_eq_some_iff.mp at_
      rw [allow_admitted]
      · intro half
        simp [closed] at half
      · rfl
      · simp [inside]
  | loads call at_ other =>
      obtain ⟨inside, -⟩ := List.getElem?_eq_some_iff.mp at_
      rw [allow_refused]
      · exact covered
      · rfl
      · simp [inside]
  | reads call at_ =>
      obtain ⟨inside, -⟩ := List.getElem?_eq_some_iff.mp at_
      rw [allow_refused]
      · exact covered
      · rfl
      · simp [inside]
  | locks call now at_ => exact covered.locks at_

/-- Only a success that leaves the breaker half-open is to be counted. -/
theorem Covered.success {clients after : BreakerClients} {id : Nat} (covered : Covered clients)
    (taken : clients.step (.success id) = some after) : Covered after := by
  obtain ⟨threads, episode, moved, awaited, rfl⟩ := callback_eq_some taken
  cases moved
  intro half
  cases state : clients.threads.breaker.state with
  | closed => simp [CircuitBreaker.onSuccess_closed state, state] at half
  | «open» => simp [CircuitBreaker.onSuccess_open state, state] at half
  | halfOpen =>
      by_cases enough : clients.threads.breaker.opts.consecutiveSuccessesToClose ≤
          clients.threads.breaker.consecutiveSuccesses + 1
      · simp [CircuitBreaker.onSuccess_closes state enough] at half
      · have released := CircuitBreaker.releaseSlot_inflight clients.threads.breaker
        rw [CircuitBreaker.onSuccess_counts state enough] at half ⊢
        exact covered.counts awaited state released half

theorem Covered.step {clients after : BreakerClients} {action : Action}
    (covered : Covered clients) (taken : clients.step action = some after) : Covered after := by
  cases action with
  | advance nanos =>
      cases taken
      exact covered
  | callAllow =>
      cases taken
      exact covered
  | allow call => exact covered.allow taken
  | success id => exact covered.success taken
  | failure id =>
      obtain ⟨threads, episode, moved, awaited, rfl⟩ := callback_eq_some taken
      cases moved
      intro half
      exact (Clients.onFailure_not_halfOpen _ _ half).elim

end BreakerClients

end Chmicro.Resilience
